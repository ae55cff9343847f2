import TileFabric.Bitstream.Json
import TileFabric.CommandLine.Columns
import TileFabric.CommandLine.Help
import TileFabric.CommandLine.Session
import TileFabric.Json.Printer
import TileFabric.Netlist.Consistency
import TileFabric.Netlist.Json
import TileFabric.Routing.Json

/-!
# The commands

`switchbox` lists the pips of one switch box, `grid` declares a whole device, `params` prints the
parameter table and `pack` packs a netlist. `run` reads the arguments and runs what they ask for.
-/

set_option autoImplicit false

namespace TileFabric.CommandLine

open Session

variable {m : Type → Type} [Monad m]

/-- A line about a pip, its names in columns. -/
def pipLine (symbols : SymbolTable) (pip : Pip) : String :=
  padRight 24 (symbols.text pip.name) ++ " " ++ padLeft 10 (symbols.text pip.source) ++ " -> " ++
    padRight 10 (symbols.text pip.target) ++ " " ++ symbols.text pip.pipType ++ "\n"

def printJson (value : Json) : Session m Unit := print (value.pretty ++ "\n")

/-- Lists the pips of the box of one tile. The wires given stand for all four sides. -/
def switchbox (general : General) (colored : Bool) (settings : Settings) (x y : UInt32)
    (wires : Option UInt32) (format : ReportFormat) : Session m Unit := do
  let box := match wires with
    | some n => { settings.box with wires := n, horizontalWires := none }
    | none => settings.box
  remark general s!"   Generating switch box at x{x}y{y} ({box.wires} wires per side)"
  let spec := Settings.gridSpec { settings with box }
  let (result, site) := (Build.declare (spec.declareBox x y)).run {}
  showLog general colored site.log
  match result with
  | .error _ => throw .reported
  | .ok _ =>
    let r := site.recorder
    match format with
    | .json => printJson (r.pipsJson Json.ofBinary64)
    | .text =>
      print (String.join (r.pips.toList.map (pipLine r.symbols)))
      remark general s!"    Finished {r.pips.size} pips"

def summaryText (s : GridSummary) : String :=
  s!"grid:          {s.width}x{s.height}\n" ++
    s!"bels:          {s.bels}\n" ++
    s!"bel wires:     {s.belWires}\n" ++
    s!"channel wires: {s.channelWires}\n" ++
    s!"pips:          {s.pips}\n"

/-- Declares the device and prints what has been declared, or only how much. -/
def grid (general : General) (colored : Bool) (settings : Settings) (format : ReportFormat) :
    Session m Unit := do
  remark general s!"   Declaring {settings.device.columns}x{settings.device.rows} grid"
  let (result, site) := (Build.grid settings.gridSpec).run {}
  showLog general colored site.log
  match result with
  | .error _ => throw .reported
  | .ok summary =>
    match format with
    | .json => printJson (site.recorder.toJson Json.ofBinary64)
    | .text => print (summaryText summary)

def tableText (table : ParamTable) : String :=
  String.join (table.toList.map fun (key, d) => padRight 24 key.text ++ " " ++ d.text ++ "\n")

def params (general : General) (colored : Bool) (settings : Settings) (format : ReportFormat) :
    Session m Unit := do
  match ParamTable.configured settings.device.lutInputs settings.parameters with
  | .error e =>
    showLog general colored (Log.empty.add e.diagnostic)
    throw .reported
  | .ok table =>
    match format with
    | .json => printJson table.toJson
    | .text => print (tableText table)

/-- Reads a netlist from a file, which has to be consistent. -/
def readNetlist (system : FileSystem m) (path : String) : Session m Netlist := do
  let text ← onFiles (fun reason => s!"cannot read '{path}': {reason}") (system.read path)
  match Netlist.ofText? text with
  | none => throw (.message s!"invalid netlist '{path}': the text is not a netlist in JSON")
  | some netlist =>
    match netlist.check with
    | .ok () => pure netlist
    | .error e => throw (.message e.message)

def summaryLine (s : PackSummary) : String :=
  s!"    Finished {s.constants} constants, {s.luts} LUTs, {s.flipFlops} flip-flops, " ++
    s!"{s.virtualIo} virtual IOs"

/-- Packs a netlist and writes it to a file or prints it. -/
def pack (system : FileSystem m) (general : General) (colored : Bool) (settings : Settings)
    (path : String) (output : Option String) : Session m Unit := do
  let netlist ← readNetlist system path
  remark general
    s!"     Packing {path} ({netlist.cells.size} cells, {netlist.nets.size} nets)"
  let packing := Packing.pack settings.device.lutInputs settings.stages
  let (result, workspace) := packing.run { netlist, log := .empty }
  showLog general colored workspace.log
  match result with
  | .error _ => throw .reported
  | .ok summary =>
    match output with
    | some file => onFiles id (system.write file (workspace.netlist.toJson.pretty ++ "\n"))
    | none => printJson workspace.netlist.toJson
    remark general (summaryLine summary)

/-- Runs one command; `colorTerminal` says whether the terminal shows colors. -/
def session (system : FileSystem m) (colorTerminal : Bool) (general : General) (command : Command) :
    Session m Unit := do
  let colored := match general.color with
    | .auto => colorTerminal
    | .always => true
    | .never => false
  let settings ← loadSettings system general
  match command with
  | .switchbox x y wires format => switchbox general colored settings x y wires format
  | .grid format => grid general colored settings format
  | .params format => params general colored settings format
  | .pack netlist output => pack system general colored settings netlist output

/-- The exit code and the output for some arguments; arguments that make no sense exit with 2. -/
def run (system : FileSystem m) (colorTerminal : Bool) (arguments : List String) :
    m (UInt32 × Transcript) :=
  match Invocation.parse arguments with
  | .error e => pure (2, { err := s!"error: {e.message}\n" })
  | .ok .version => pure (0, { out := versionText })
  | .ok (.help form topic) => pure (0, { out := topic.helpText form })
  | .ok (.run general command) => (session system colorTerminal general command).finish

end TileFabric.CommandLine
