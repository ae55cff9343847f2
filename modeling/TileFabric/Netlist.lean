import TileFabric.NameMap
import TileFabric.Property

/-!
# Netlists

A netlist holds cells and nets under their names. A cell's port may name the net it is attached
to; a net lists the ports attached to it, one as its driver and the others as its users. The two
sides are kept apart, so that a netlist read from a file may disagree with itself: whether they
agree is checked in `Netlist.Consistency`.
-/

set_option autoImplicit false

namespace TileFabric

inductive PortDirection where
  | input | output | inout
  deriving DecidableEq, Repr, Inhabited

structure Port where
  direction : PortDirection
  net : Option String := none
  deriving DecidableEq, Repr, Inhabited

/-- A port of a cell, by name. -/
structure PortRef where
  cell : String
  port : String
  deriving DecidableEq, Repr, Inhabited

structure Cell where
  name : String
  cellType : String
  ports : NameMap Port := ∅
  params : NameMap Property := ∅
  attrs : NameMap Property := ∅
  deriving DecidableEq, Repr, Inhabited

structure Net where
  name : String
  driver : Option PortRef := none
  users : List PortRef := []
  deriving DecidableEq, Repr, Inhabited

structure Netlist where
  cells : NameMap Cell
  nets : NameMap Net
  settings : NameMap Property
  /-- The number that the next made-up cell name tries first. -/
  nextName : Nat
  deriving DecidableEq, Repr, Inhabited

namespace Cell

/-- The net that a port is attached to; a port that is not there is attached to none. -/
def portNet? (cell : Cell) (port : String) : Option String := cell.ports[port]?.bind (·.net)

/-- A parameter as an integer, or the default if it is absent or has no integer value. -/
def intParam (cell : Cell) (name : String) (default : Int) : Int :=
  (cell.params[name]?.bind (·.asInt?)).getD default

def setParam (cell : Cell) (name : String) (value : Property) : Cell :=
  { cell with params := cell.params.insert name value }

end Cell

namespace Net

/-- The driver, if there is one, and then the users. -/
def references (net : Net) : List PortRef := net.driver.toList ++ net.users

end Net

namespace Netlist

def empty : Netlist := ⟨∅, ∅, ∅, 0⟩

/-- The cell that a net names as its driver's. -/
def driverCell? (netlist : Netlist) (net : String) : Option Cell := do
  let net ← netlist.nets[net]?
  let driver ← net.driver
  netlist.cells[driver.cell]?

/-- Packing leaves the setting `pack` at 1. -/
def isPacked (netlist : Netlist) : Bool :=
  (netlist.settings["pack"]?.bind (·.asInt?)) == some 1

end Netlist

end TileFabric
