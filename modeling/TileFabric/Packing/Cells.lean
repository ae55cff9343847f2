import TileFabric.Netlist.Edit

/-!
# Cells of the fabric

The cell types that packing knows, and the makers of the two it builds: the logic block with its
eight lookup-table slots, and the flip-flop. A new cell stands alone; `addCell` puts it into a
netlist.
-/

set_option autoImplicit false

namespace TileFabric

namespace CellType

def logicBlock : String := "CLB"
def flipFlop : String := "DFFER"
def lut : String := "LUT4"
def inputBuffer : String := "$nextpnr_ibuf"
def outputBuffer : String := "$nextpnr_obuf"
def bidirectionalBuffer : String := "$nextpnr_iobuf"
def ground : String := "GND"
def supply : String := "VCC"

end CellType

namespace Cell

def isLut (cell : Cell) : Bool := cell.cellType == CellType.lut

def isFlipFlop (cell : Cell) : Bool := cell.cellType == CellType.flipFlop

def isLogicBlock (cell : Cell) : Bool := cell.cellType == CellType.logicBlock

def isIoBuffer (cell : Cell) : Bool :=
  cell.cellType == CellType.inputBuffer || cell.cellType == CellType.outputBuffer ||
    cell.cellType == CellType.bidirectionalBuffer

/-- Gives a cell one more port, attached to nothing. -/
def addPort (direction : PortDirection) (cell : Cell) (name : String) : Except NetlistError Cell :=
  if cell.ports.contains name then .error (.duplicatePort cell.name name)
  else .ok { cell with ports := cell.ports.insert name { direction } }

def addPorts (direction : PortDirection) (names : List String) (cell : Cell) :
    Except NetlistError Cell :=
  names.foldlM (addPort direction) cell

end Cell

namespace LogicBlock

/-- The lookup-table slots of a block, in the order in which their ports are declared. -/
def slots : List Nat := [1, 0, 3, 2, 5, 4, 7, 6]

def lutInput (slot input : Nat) : String := s!"LUT{slot}_I{input}"

def combOutput (slot : Nat) : String := s!"COMB{slot}_O"

def syncOutput (slot : Nat) : String := s!"SYNC{slot}_O"

/-- The inputs that all slots share. -/
def sharedInputs : List String := ["MUX_I0", "MUX_I1", "CLK", "CE", "RST"]

def lutInputs (k : UInt32) : List String :=
  slots.flatMap fun slot => (List.range k.toNat).map (lutInput slot)

def outputs : List String := slots.map combOutput ++ slots.map syncOutput

/-- A logic block whose lookup tables have `k` inputs. -/
def make (name : String) (k : UInt32) : Except NetlistError Cell := do
  let params : List (String × Property) :=
    [("K", .int (Int64.ofNat k.toNat)),
      ("LUT_INIT", .int 0),
      ("DFF_INIT", .int 0),
      ("FF_USED", .int 0)]
  let cell : Cell := { name, cellType := CellType.logicBlock, params := .ofList params }
  let cell ← cell.addPorts .input (lutInputs k)
  let cell ← cell.addPorts .input sharedInputs
  cell.addPorts .output outputs

end LogicBlock

namespace FlipFlop

def inputs : List String := ["CLK", "CE", "RST", "D"]

def outputs : List String := ["Q"]

def make (name : String) : Except NetlistError Cell := do
  let cell : Cell :=
    { name, cellType := CellType.flipFlop, params := (∅ : NameMap Property).insert "INIT" (.int 0) }
  let cell ← cell.addPorts .input inputs
  cell.addPorts .output outputs

end FlipFlop

namespace Netlist

/-- The name given, or else one made up for a cell of the type. -/
def chooseName (cellType : String) : Option String → Edit String
  | some name => pure name
  | none => modifyGet (freshCellName cellType)

/-- Makes a logic block for `k`-input tables; of no other type is there one. -/
def makeLogicBlock (cellType : String) (name : Option String) (k : UInt32) : Edit Cell := do
  if cellType ≠ CellType.logicBlock then throw (.unsupportedCellType "CLB" cellType)
  else
    let name ← chooseName cellType name
    liftExcept (LogicBlock.make name k)

/-- Makes a flip-flop; of no other type is there one. -/
def makeFlipFlop (cellType : String) (name : Option String) : Edit Cell := do
  if cellType ≠ CellType.flipFlop then throw (.unsupportedCellType "DFF" cellType)
  else
    let name ← chooseName cellType name
    liftExcept (FlipFlop.make name)

end Netlist

end TileFabric
