import TileFabric.CommandLine.Options

/-!
# Reading the arguments of a command line

Arguments are read from left to right. An option is written `--name value`, `--name=value`,
`-n value`, `-nvalue` or `-n=value`, and switches of one letter may share a dash. What begins with
a dash is never taken for a value that stands by itself, and behind `--` nothing is an option.

A value that stands by itself is looked at when the next option or operand of its place is read or
the place ends. A command does not end the place in front of it before its own arguments are read,
so a request for help behind a command is answered even if the value in front of it is wrong.
-/

set_option autoImplicit false

namespace TileFabric.CommandLine

/-- An option and the argument that is its value, which nothing has been made of yet. -/
abbrev Pending := OptionName × String

/-- What a place of the command line gives: options, operands, or a word that ends the reading. -/
inductive Found where
  | plain (options : Options) (operands : List String)
  | command (options : Options) (pending : Option Pending) (topic : Topic) (rest : List String)
  | helpCommand (rest : List String)
  | help (form : HelpForm)
  | version
  deriving Repr

/-- Whether an argument begins like an option; a lone dash does not. -/
def isOptionLike (argument : String) : Bool :=
  match argument.toList with
  | '-' :: _ :: _ => true
  | _ => false

def findLong? (topic : Topic) (name : String) : Option OptionName :=
  topic.options.find? fun option => option.long = name

def findShort? (topic : Topic) (letter : Char) : Option OptionName :=
  topic.options.find? fun option => option.short? = some letter

/-- The first part of a text up to an equals sign, and the part behind it if there is one. -/
def splitValue (text : List Char) : String × Option String :=
  let name := String.ofList (text.takeWhile (· ≠ '='))
  match text.dropWhile (· ≠ '=') with
  | _ :: value => (name, some (String.ofList value))
  | [] => (name, none)

/-- What the options in one argument come to. -/
inductive Taken where
  | options (options : Options)
  /-- The last option waits for a value in the next argument. -/
  | waiting (options : Options) (option : OptionName)
  | help (form : HelpForm)
  | version

/-- Takes the letters behind a single dash. -/
def takeLetters (topic : Topic) (options : Options) : List Char → Except UsageError Taken
  | [] => .ok (.options options)
  | letter :: rest =>
    match findShort? topic letter with
    | none => .error (.unexpected (String.ofList ['-', letter]))
    | some .help => .ok (.help .short)
    | some .version => .ok .version
    | some option =>
      if option.takesValue then
        match rest with
        | [] => .ok (.waiting options option)
        | '=' :: value => (options.give option (String.ofList value)).map .options
        | value => (options.give option (String.ofList value)).map .options
      else do
        let options ← options.give option ""
        takeLetters topic options rest

/-- Takes an option by its long name. -/
def takeLong (topic : Topic) (options : Options) (text : List Char) : Except UsageError Taken :=
  let (name, value?) := splitValue text
  match findLong? topic name, value? with
  | none, _ => .error (.unexpected ("--" ++ name))
  | some .help, none => .ok (.help .long)
  | some .version, none => .ok .version
  | some option, none =>
    if option.takesValue then .ok (.waiting options option)
    else (options.give option "").map .options
  | some option, some value =>
    if option.takesValue then (options.give option value).map .options
    else .error (.unexpected value)

def takeOption (topic : Topic) (options : Options) (argument : String) : Except UsageError Taken :=
  match argument.toList with
  | '-' :: '-' :: text => takeLong topic options text
  | '-' :: letters => takeLetters topic options letters
  | _ => .error (.unexpected argument)

/-- One more operand, if the command takes it. -/
def addOperand (topic : Topic) (operands : List String) (argument : String) :
    Except UsageError (List String) :=
  if operands.length < topic.operands then .ok (operands ++ [argument])
  else .error (.unexpected argument)

/-- The options with the pending one among them. -/
def settle (options : Options) : Option Pending → Except UsageError Options
  | some (option, value) => options.give option value
  | none => .ok options

/-- Reads the arguments of a place, behind what has been read of them. -/
def scan (topic : Topic) (options : Options) (pending : Option Pending) (operands : List String) :
    List String → Except UsageError Found
  | [] => do .ok (.plain (← settle options pending) operands)
  | "--" :: rest => do
    let options ← settle options pending
    let operands ← rest.foldlM (addOperand topic) operands
    .ok (.plain options operands)
  | argument :: rest =>
    if isOptionLike argument then do
      let options ← settle options pending
      match ← takeOption topic options argument with
      | .help form => .ok (.help form)
      | .version => .ok .version
      | .options options => scan topic options none operands rest
      | .waiting options option =>
        match rest with
        | [] => .error (.missingValue option)
        | value :: rest =>
          if isOptionLike value then .error (.missingValue option)
          else scan topic options (some (option, value)) operands rest
    else
      match topic, Topic.command? argument with
      | .top, some .help => .ok (.helpCommand rest)
      | .top, some command => .ok (.command options pending command rest)
      | _, _ => do
        let options ← settle options pending
        let operands ← addOperand topic operands argument
        scan topic options none operands rest

/-- A command with what it runs on. -/
inductive Command where
  | switchbox (x y : UInt32) (wires : Option UInt32) (format : ReportFormat)
  | grid (format : ReportFormat)
  | params (format : ReportFormat)
  | pack (netlist : String) (output : Option String)
  deriving DecidableEq, Repr, Inhabited

/-- What holds for every command. -/
structure General where
  quiet : Bool
  verbose : Bool
  color : ColorChoice
  config : Option String
  deriving DecidableEq, Repr, Inhabited

inductive Invocation where
  | run (general : General) (command : Command)
  | help (form : HelpForm) (topic : Topic)
  | version
  deriving Repr

namespace Invocation

/-- The command of a topic from its options and operands. -/
def commandOf (topic : Topic) (options : Options) (operands : List String) :
    Except UsageError Command :=
  let format := options.format.getD .text
  match topic, operands with
  | .top, _ | .help, _ => .error .missingCommand
  | .switchbox, _ => .ok (.switchbox (options.x.getD 0) (options.y.getD 0) options.wires format)
  | .grid, _ => .ok (.grid format)
  | .params, _ => .ok (.params format)
  | .pack, netlist :: _ => .ok (.pack netlist options.output)
  | .pack, [] => .error .missingNetlist

/-- The general options; what is given behind the command counts before what is given in front. -/
def generalOf (front behind : Options) : General :=
  { quiet := front.quiet || behind.quiet
    verbose := front.verbose || behind.verbose
    color := (behind.color <|> front.color).getD .auto
    config := behind.config <|> front.config }

/-- What the `help` command is asked about; about itself it has no more to say in the long form. -/
def helpOn : List String → Except UsageError Invocation
  | [] => .ok (.help .long .top)
  | [name] =>
    match Topic.command? name with
    | some .help => .ok (.help .short .help)
    | some topic => .ok (.help .long topic)
    | none => .error (.unexpected name)
  | _ :: extra :: _ => .error (.unexpected extra)

def parse (arguments : List String) : Except UsageError Invocation := do
  match ← scan .top {} none [] arguments with
  | .help form => .ok (.help form .top)
  | .version => .ok .version
  | .helpCommand rest => helpOn rest
  | .plain _ _ => .error .missingCommand
  | .command front pending topic rest =>
    match ← scan topic {} none [] rest with
    | .plain behind operands =>
      let front ← settle front pending
      .ok (.run (generalOf front behind) (← commandOf topic behind operands))
    | .help form => .ok (.help form topic)
    | .version | .helpCommand _ | .command .. => .error .missingCommand

end Invocation

end TileFabric.CommandLine
