import TileFabric.Packing.Constants

/-!
# Packing passes

Lookup tables and flip-flops go into logic blocks of their own, IO buffers become flip-flops.
`Packing.pack` runs the passes that are switched on: constants, lookup tables, flip-flops, IO.
-/

set_option autoImplicit false

namespace TileFabric

/-- Which passes run; without further word only the one for IO. -/
structure Stages where
  constants : Bool := false
  luts : Bool := false
  flipFlops : Bool := false
  virtualIo : Bool := true
  deriving DecidableEq, Repr, Inhabited

/-- How many cells each pass replaced. -/
structure PackSummary where
  constants : Nat := 0
  luts : Nat := 0
  flipFlops : Nat := 0
  virtualIo : Nat := 0
  deriving DecidableEq, Repr, Inhabited

namespace Replacement

/-- A lookup table becomes a logic block with its attributes. -/
def lut (k : UInt32) : Replacement where
  remarks _ := []
  make cell := (LogicBlock.make s!"{cell.name}_LUT4" k).map ({ · with attrs := cell.attrs })
  move := Bench.lutToBlock true

/-- A flip-flop becomes a logic block with its attributes. -/
def flipFlop (k : UInt32) : Replacement where
  remarks _ := []
  make cell := (LogicBlock.make s!"{cell.name}_DFF" k).map ({ · with attrs := cell.attrs })
  move := Bench.flipFlopToBlock true

def bidirectionalRemark (cell : Cell) : Diagnostic :=
  ((Diagnostic.warning .pack 201
    s!"bidirectional buffer '{cell.name}' has no virtual IO mapping").about cell.name).withNote
      "the DFFER register is created unconnected"

/-- An IO buffer becomes a flip-flop. -/
def buffer : Replacement where
  remarks cell :=
    if cell.cellType = CellType.bidirectionalBuffer then [bidirectionalRemark cell] else []
  make cell := FlipFlop.make s!"{cell.name}_DFF"
  move := Bench.bufferToFlipFlop

end Replacement

namespace Netlist

/-- The names of the cells with a property, in the order in which the cells are kept. -/
def namesOf (netlist : Netlist) (p : Cell → Bool) : List String :=
  (netlist.cells.values.filter p).map (·.name)

/-- Whether a flip-flop among the users of a net has its clock on it. -/
def feedsClock (netlist : Netlist) (net : Net) : Bool :=
  net.users.any fun user =>
    match netlist.cells[user.cell]? with
    | some cell => cell.isFlipFlop && cell.portNet? "CLK" == some net.name
    | none => false

/-- The names of the IO buffers that drive a clock. -/
def clockBuffers (netlist : Netlist) : List String :=
  netlist.nets.values.filterMap fun net =>
    match netlist.driverCell? net.name with
    | some driver => if driver.isIoBuffer && netlist.feedsClock net then some driver.name else none
    | none => none

end Netlist

namespace Packing

def luts (k : UInt32) : Packing Nat := do
  announce "Packing LUTs.."
  (Replacement.lut k).replaceCells ((← netlist).namesOf Cell.isLut)

def flipFlops (k : UInt32) : Packing Nat := do
  announce "Packing non-LUT FFs.."
  (Replacement.flipFlop k).replaceCells ((← netlist).namesOf Cell.isFlipFlop)

/-- Buffers that drive a clock stay, so that the clock comes in on an input of its own. -/
def virtualIo : Packing Nat := do
  announce "Packing IOs.."
  let netlist ← netlist
  let clocks := netlist.clockBuffers
  Replacement.buffer.replaceCells
    (netlist.namesOf fun cell => cell.isIoBuffer && !clocks.contains cell.name)

def runStages (k : UInt32) (stages : Stages) : Packing PackSummary := do
  let constants ← if stages.constants then constants k else pure 0
  let luts ← if stages.luts then luts k else pure 0
  let flipFlops ← if stages.flipFlops then flipFlops k else pure 0
  let virtualIo ← if stages.virtualIo then virtualIo else pure 0
  pure { constants, luts, flipFlops, virtualIo }

/-- Runs the passes; an error goes into the log, a success marks the netlist as packed. -/
def pack (k : UInt32) (stages : Stages) : Packing PackSummary := do
  let summary ← tryCatch (runStages k stages) fun e => do
    report e.diagnostic
    throw e
  edit (modify (Netlist.setSetting "pack" (.int 1)))
  pure summary

end Packing

end TileFabric
