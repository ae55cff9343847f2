import TileFabric.Digits

/-!
# Options of the command line

Which options there are, what they are called and what values they take, and which of them a
command knows. An option may be given once at each place: before the command, or behind it. What
the commands and the options are for is told by `Help`.
-/

set_option autoImplicit false

namespace TileFabric.CommandLine

/-- When output is colored; `auto` asks the terminal. -/
inductive ColorChoice where
  | auto | always | never
  deriving DecidableEq, Repr, Inhabited

def ColorChoice.ofName? : String → Option ColorChoice
  | "auto" => some .auto
  | "always" => some .always
  | "never" => some .never
  | _ => none

inductive ReportFormat where
  | text | json
  deriving DecidableEq, Repr, Inhabited

def ReportFormat.ofName? : String → Option ReportFormat
  | "text" => some .text
  | "json" => some .json
  | _ => none

/-- What can be asked for help about: the program and its commands, `help` among them. -/
inductive Topic where
  | top | switchbox | grid | params | pack | help
  deriving DecidableEq, Repr, Inhabited

namespace Topic

def commands : List Topic := [switchbox, grid, params, pack, help]

def name : Topic → String
  | top => "borca"
  | switchbox => "switchbox"
  | grid => "grid"
  | params => "params"
  | pack => "pack"
  | help => "help"

def command? (name : String) : Option Topic := commands.find? fun topic => topic.name = name

/-- How many operands may follow; what `help` is asked about is read by a rule of its own. -/
def operands : Topic → Nat
  | pack => 1
  | top | switchbox | grid | params | help => 0

end Topic

/-- How much help is asked for. -/
inductive HelpForm where
  | short | long
  deriving DecidableEq, Repr, Inhabited

inductive OptionName where
  | quiet | verbose | color | config | x | y | wires | format | output | help | version
  deriving DecidableEq, Repr, Inhabited

namespace OptionName

def long : OptionName → String
  | quiet => "quiet"
  | verbose => "verbose"
  | color => "color"
  | config => "config"
  | x => "x"
  | y => "y"
  | wires => "wires"
  | format => "format"
  | output => "output"
  | help => "help"
  | version => "version"

def short? : OptionName → Option Char
  | quiet => some 'q'
  | verbose => some 'v'
  | wires => some 'w'
  | format => some 'f'
  | output => some 'o'
  | help => some 'h'
  | version => some 'V'
  | color | config | x | y => none

def takesValue : OptionName → Bool
  | quiet | verbose | help | version => false
  | color | config | x | y | wires | format | output => true

end OptionName

/-- The options of a command, as help lists them; every command that runs knows the general ones. -/
def Topic.options : Topic → List OptionName
  | .top => [.quiet, .verbose, .color, .config, .help, .version]
  | .switchbox => [.quiet, .x, .verbose, .y, .color, .wires, .config, .format, .help]
  | .grid | .params => [.format, .quiet, .verbose, .color, .config, .help]
  | .pack => [.output, .quiet, .verbose, .color, .config, .help]
  | .help => []

inductive UsageError where
  | unexpected (argument : String)
  | repeated (option : OptionName)
  | missingValue (option : OptionName)
  | badValue (option : OptionName) (value : String)
  | missingCommand
  | missingNetlist
  deriving DecidableEq, Repr

namespace UsageError

def message : UsageError → String
  | unexpected argument => s!"unexpected argument '{argument}' found"
  | repeated option => s!"the option '--{option.long}' cannot be used multiple times"
  | missingValue option => s!"a value is required for '--{option.long}' but none was supplied"
  | badValue option value => s!"invalid value '{value}' for '--{option.long}'"
  | missingCommand => "a command is required but none was given"
  | missingNetlist => "a netlist is required but none was given"

end UsageError

/-- The values that options have been given at one place. -/
structure Options where
  quiet : Bool := false
  verbose : Bool := false
  color : Option ColorChoice := none
  config : Option String := none
  x : Option UInt32 := none
  y : Option UInt32 := none
  wires : Option UInt32 := none
  format : Option ReportFormat := none
  output : Option String := none
  deriving DecidableEq, Repr, Inhabited

namespace Options

variable {α : Type}

/-- Digits with a plus or a minus before them or not, for a number that has 32 bits. -/
def word? (text : String) : Option UInt32 := do
  let (negative, digits) := match text.toList with
    | '+' :: digits => (false, digits)
    | '-' :: digits => (true, digits)
    | digits => (false, digits)
  let n ← Digits.toNat? 10 digits
  if n < UInt32.size ∧ (negative → n = 0) then some (UInt32.ofNat n) else none

/-- Gives an option, which must not have been given yet, a value that it can read. -/
def once (option : OptionName) (text : String) (old : Option α) (read : String → Option α)
    (store : α → Options) : Except UsageError Options :=
  match old, read text with
  | some _, _ => .error (.repeated option)
  | none, some value => .ok (store value)
  | none, none => .error (.badValue option text)

/-- Turns a switch on, which must not be on yet. -/
def turnOn (option : OptionName) (on : Bool) (store : Options) : Except UsageError Options :=
  if on then .error (.repeated option) else .ok store

/-- The options with one more given; `help` and `version` have no value to keep. -/
def give (options : Options) (option : OptionName) (text : String) : Except UsageError Options :=
  match option with
  | .quiet => turnOn option options.quiet { options with quiet := true }
  | .verbose => turnOn option options.verbose { options with verbose := true }
  | .color => once option text options.color ColorChoice.ofName? ({ options with color := some · })
  | .config => once option text options.config some ({ options with config := some · })
  | .x => once option text options.x word? ({ options with x := some · })
  | .y => once option text options.y word? ({ options with y := some · })
  | .wires => once option text options.wires word? ({ options with wires := some · })
  | .format =>
    once option text options.format ReportFormat.ofName? ({ options with format := some · })
  | .output => once option text options.output some ({ options with output := some · })
  | .help | .version => .ok options

end Options

end TileFabric.CommandLine
