import TileFabric.CommandLine.Columns
import TileFabric.CommandLine.Options

/-!
# Help texts

The help on a command says what it does, how it is called and which operands and options it knows.
The short form has a line for each of them; the long form has a paragraph for each, in which the
values that an option takes are explained.
-/

set_option autoImplicit false

namespace TileFabric.CommandLine

def versionText : String := "borca 0.1.0\n"

/-- An option or an operand as help shows it. -/
structure HelpEntry where
  spelling : String
  purpose : String
  /-- The values to choose from, with what they mean. -/
  values : List (String × String) := []
  default? : Option String := none
  deriving DecidableEq, Repr

namespace OptionName

/-- What an option is for. -/
def purpose (form : HelpForm) : OptionName → String
  | quiet => "Suppress all output except errors"
  | verbose => "Show progress notes"
  | color => "Control colored output"
  | config => "Path to a `borca.toml` file or the directory holding it"
  | x => "Tile column of the box"
  | y => "Tile row of the box"
  | wires => "Wires per side (overrides `switchbox.wires_per_side`)"
  | format => "Output format"
  | output => "Output path; the packed netlist goes to stdout when omitted"
  | help =>
    match form with
    | .short => "Print help (see more with '--help')"
    | .long => "Print help (see a summary with '-h')"
  | version => "Print version"

/-- The values to choose from, with what they mean. -/
def values : OptionName → List (String × String)
  | color =>
    [("auto", "Detect from terminal capabilities"),
      ("always", "Always produce colored output"),
      ("never", "Never produce colored output")]
  | format =>
    [("text", "Human-readable terminal output"), ("json", "Machine-readable JSON output")]
  | quiet | verbose | config | x | y | wires | output | help | version => []

/-- The value of an option that is not given, where help names it. -/
def default? : OptionName → Option String
  | color => some "auto"
  | x | y => some "0"
  | format => some "text"
  | quiet | verbose | config | wires | output | help | version => none

/-- An option with its short name and its value, as it is written in front of its purpose. -/
def spelling (option : OptionName) : String :=
  let short := match option.short? with
    | some letter => String.ofList ['-', letter, ',', ' ']
    | none => blanks 4
  let value := if option.takesValue then " <" ++ option.long.toUpper ++ ">" else ""
  short ++ "--" ++ option.long ++ value

def helpEntry (form : HelpForm) (option : OptionName) : HelpEntry :=
  { spelling := option.spelling
    purpose := option.purpose form
    values := option.values
    default? := option.default? }

end OptionName

namespace HelpEntry

/-- Two columns, the first one as wide as it has to be. -/
def columns (rows : List (String × String)) : String :=
  let width := (rows.map fun (left, _) => left.length).foldl max 0
  String.join (rows.map fun (left, right) => "  " ++ padRight width left ++ "  " ++ right ++ "\n")

/-- The purpose on one line with the default and the names of the values. -/
def summary (e : HelpEntry) : String :=
  let default := match e.default? with
    | some value => " [default: " ++ value ++ "]"
    | none => ""
  let values :=
    if e.values.isEmpty then ""
    else " [possible values: " ++ ", ".intercalate (e.values.map Prod.fst) ++ "]"
  e.purpose ++ default ++ values

/-- A line of a paragraph below the spelling. -/
def indented (text : String) : String := blanks 10 ++ text ++ "\n"

/-- The values one below the other, what they mean in a column of its own. -/
def valueLines (values : List (String × String)) : String :=
  let width := (values.map fun (name, _) => name.length).foldl max 0
  String.join (values.map fun (name, meaning) =>
    indented ("- " ++ padRight (width + 1) (name ++ ":") ++ " " ++ meaning))

/-- The spelling, and below it the purpose, the values and the default. -/
def paragraph (e : HelpEntry) : String :=
  let values :=
    if e.values.isEmpty then "" else "\n" ++ indented "Possible values:" ++ valueLines e.values
  let default := match e.default? with
    | some value => indented "" ++ indented ("[default: " ++ value ++ "]")
    | none => ""
  "  " ++ e.spelling ++ "\n" ++ indented e.purpose ++ values ++ default

/-- Entries below each other: lines in the short form, paragraphs in the long one. -/
def list (form : HelpForm) (entries : List HelpEntry) : String :=
  match form with
  | .short => columns (entries.map fun e => (e.spelling, e.summary))
  | .long => "\n".intercalate (entries.map paragraph)

end HelpEntry

namespace Topic

def purpose : Topic → String
  | top => "Borca FPGA architecture toolkit"
  | switchbox => "Generate the pips of one switch box"
  | grid => "Declare every tile, channel and switch box of the device"
  | params => "Print the FASM parameter table"
  | pack => "Pack a JSON netlist into Borca cells"
  | help => "Print this message or the help of the given subcommand(s)"

def usage : Topic → String
  | top => "borca [OPTIONS] <COMMAND>"
  | pack => "borca pack [OPTIONS] <NETLIST>"
  | help => "borca help [COMMAND]..."
  | switchbox => "borca switchbox [OPTIONS]"
  | grid => "borca grid [OPTIONS]"
  | params => "borca params [OPTIONS]"

/-- The operands as help shows them. -/
def operandEntries : Topic → List HelpEntry
  | pack => [{ spelling := "<NETLIST>", purpose := "Input netlist (JSON)" }]
  | help => [{ spelling := "[COMMAND]...", purpose := "Print help for the subcommand(s)" }]
  | top | switchbox | grid | params => []

def commandLines : Topic → String
  | top => HelpEntry.columns (commands.map fun topic => (topic.name, topic.purpose))
  | switchbox | grid | params | pack | help => ""

/-- A part of a help text under its title; one without lines is left out. -/
def helpSection (title lines : String) : List String :=
  if lines.isEmpty then [] else [title ++ ":\n" ++ lines]

def helpText (form : HelpForm) (topic : Topic) : String :=
  let operands := HelpEntry.list form topic.operandEntries
  let options := HelpEntry.list form (topic.options.map (·.helpEntry form))
  "\n".intercalate
    ([topic.purpose ++ "\n", "Usage: " ++ topic.usage ++ "\n"] ++
      helpSection "Commands" topic.commandLines ++
      helpSection "Arguments" operands ++
      helpSection "Options" options)

end Topic

end TileFabric.CommandLine
