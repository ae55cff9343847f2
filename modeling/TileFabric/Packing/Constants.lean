import Std.Data.ExtTreeSet
import TileFabric.Packing.Replacement

/-!
# Constant drivers

Ground and supply cells give way to two logic blocks that drive one net each. The users of every
net that such a cell drives move onto the constant net of that level, except that inputs of lookup
tables are left unconnected at ground, since a free input reads as zero.
-/

set_option autoImplicit false

namespace TileFabric

/-- A constant: the block and the net that carry it, and its level. -/
structure Constant where
  cell : String
  net : String
  high : Bool
  deriving DecidableEq, Repr

namespace Constant

def ground : Constant := ⟨"$PACKER_GND", "$PACKER_GND_NET", false⟩

def supply : Constant := ⟨"$PACKER_VCC", "$PACKER_VCC_NET", true⟩

/-- The port of a constant block that drives the net. -/
def outputPort : String := LogicBlock.combOutput 1

/-- The contents of a table that is constant; tables wider than 16 inputs are filled up to 16. -/
def table (c : Constant) (k : UInt32) : Property :=
  let width := Nat.pow 2 (min k.toNat 16)
  if c.high then .ones width else .zeros width

/-- The block of a constant, attached to nothing yet. -/
def makeBlock (c : Constant) (k : UInt32) : Except NetlistError Cell :=
  (LogicBlock.make c.cell k).map fun cell => cell.setParam "LUT_INIT" (c.table k)

/-- The constant that a cell of this type supplies. -/
def ofCellType? (cellType : String) : Option Constant :=
  if cellType = CellType.ground then some ground
  else if cellType = CellType.supply then some supply
  else none

/-- Puts a constant's block and net into the netlist. -/
def install (cell : Cell) (net : Net) : Edit Unit := do
  let cell := cell.withPortNet outputPort (some net.name)
  let net := { net with driver := some ⟨cell.name, outputPort⟩ }
  let netlist ← get
  if netlist.nets.contains net.name then throw (.duplicateNet net.name)
  else
    Netlist.addCell cell
    modify fun netlist => { netlist with nets := netlist.nets.insert net.name net }

end Constant

/-- Whether a word occurs in a text. -/
def occursIn (word : List Char) : List Char → Bool
  | [] => word.isEmpty
  | c :: rest => word.isPrefixOf (c :: rest) || occursIn word rest

/-- Whether a port is a data input of a lookup table: of one, or of one inside a logic block. -/
def Cell.isLutInput (cell : Cell) (port : String) : Bool :=
  if cell.isLut then ['I'].isPrefixOf port.toList
  else if cell.isLogicBlock then
    ['L', 'U', 'T'].isPrefixOf port.toList && occursIn ['_', 'I'] port.toList
  else false

/--
A netlist while its constant nets are emptied: what has been collected for the two constants,
and what is to be removed.
-/
structure ConstantSweep where
  netlist : Netlist
  groundNet : Net := { name := Constant.ground.net }
  supplyNet : Net := { name := Constant.supply.net }
  groundUsed : Bool := false
  deadNets : List String := []
  deadCells : Std.ExtTreeSet String := ∅

namespace ConstantSweep

/-- Moves one user of a constant net: off it, and onto the net of the constant unless it floats. -/
def moveUser (high : Bool) (netlist : Netlist) (net : Net) (user : PortRef) : Netlist × Net :=
  match netlist.cells[user.cell]? with
  | none => (netlist, net)
  | some cell =>
    if cell.ports.contains user.port then
      if !high && cell.isLutInput user.port then
        (netlist.setPortNet user.cell user.port none, net)
      else
        (netlist.setPortNet user.cell user.port (some net.name),
          { net with users := net.users ++ [user] })
    else (netlist, net)

/-- Empties a net: its driver is dropped and its users move, in order. -/
def moveUsers (high : Bool) (netlist : Netlist) (name : String) (net : Net) : Netlist × Net :=
  match netlist.nets[name]? with
  | none => (netlist, net)
  | some old =>
    let emptied := { netlist with
      nets := netlist.nets.insert name { old with driver := none, users := [] } }
    old.users.foldl (fun (netlist, net) user => moveUser high netlist net user) (emptied, net)

/-- Looks at one net and, if a ground or supply cell drives it, moves its users. -/
def visit (sweep : ConstantSweep) (name : String) : ConstantSweep :=
  match sweep.netlist.driverCell? name with
  | none => sweep
  | some driver =>
    match Constant.ofCellType? driver.cellType with
    | none => sweep
    | some constant =>
      let dead := { sweep with
        deadNets := sweep.deadNets ++ [name]
        deadCells := sweep.deadCells.insert driver.name }
      if constant.high then
        let (netlist, supplyNet) := moveUsers true sweep.netlist name sweep.supplyNet
        { dead with netlist, supplyNet }
      else
        let (netlist, groundNet) := moveUsers false sweep.netlist name sweep.groundNet
        { dead with netlist, groundNet, groundUsed := true }

/-- Visits all nets in the order of their names. -/
def ofNetlist (netlist : Netlist) : ConstantSweep :=
  netlist.nets.keys.foldl visit { netlist }

/-- The netlist without the emptied nets and the cells that drove them. -/
def swept (sweep : ConstantSweep) : Netlist :=
  let netlist := { sweep.netlist with
    nets := sweep.deadNets.foldl (fun nets name => nets.erase name) sweep.netlist.nets }
  sweep.deadCells.toList.foldl (fun netlist name => (netlist.removeCell name).2) netlist

end ConstantSweep

namespace Packing

/--
Replaces ground and supply cells and counts them. The ground block is added only when some net
was at ground, the supply block always.
-/
def constants (k : UInt32) : Packing Nat := do
  announce "Packing constants.."
  let groundCell ← liftExcept (Constant.ground.makeBlock k)
  let supplyCell ← liftExcept (Constant.supply.makeBlock k)
  let sweep := ConstantSweep.ofNetlist (← netlist)
  setNetlist sweep.swept
  if sweep.groundUsed then edit (Constant.install groundCell sweep.groundNet)
  edit (Constant.install supplyCell sweep.supplyNet)
  pure sweep.deadCells.size

end Packing

end TileFabric
