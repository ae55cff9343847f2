import TileFabric.Netlist
import TileFabric.Netlist.Error

/-!
# Editing netlists

An `Edit` runs on a netlist and leaves one behind whether it succeeds or fails, so what a failed
edit has changed can be stated. Attaching and detaching keep the two sides of a connection
together: the port's net and the net's list of ports.
-/

set_option autoImplicit false

namespace TileFabric

abbrev Edit (α : Type) := ExceptT NetlistError (StateM Netlist) α

namespace Netlist

/-- The made-up name number `n` for cells of a type. -/
def madeUpName (cellType : String) (n : Nat) : String := s!"$borca_{cellType}_{n}"

/-- The first number from `n` on that is not taken, of the first `tries` and the one behind them. -/
def firstFree (taken : Nat → Bool) : Nat → Nat → Nat
  | 0, n => n
  | tries + 1, n => if taken n then firstFree taken tries (n + 1) else n

/--
A cell name that no cell of the netlist has. Numbers are never tried twice; as many cells as
there are can take as many numbers, so the one behind those is free.
-/
def freshCellName (cellType : String) (netlist : Netlist) : String × Netlist :=
  let taken n := netlist.cells.contains (madeUpName cellType n)
  let n := firstFree taken netlist.cells.size netlist.nextName
  (madeUpName cellType n, { netlist with nextName := n + 1 })

def addCell (cell : Cell) : Edit Unit := do
  let netlist ← get
  if netlist.cells.contains cell.name then throw (.duplicateCell cell.name)
  else set { netlist with cells := netlist.cells.insert cell.name cell }

/-- The netlist with a port's net field set; a port that is not there is left out. -/
def setPortNet (netlist : Netlist) (cell port : String) (net : Option String) : Netlist :=
  let attach (c : Cell) : Cell := { c with ports := c.ports.modify port ({ · with net }) }
  { netlist with cells := netlist.cells.modify cell attach }

/-- Attaches a free port to a net, which comes into being with its first port. -/
def connect (net cell port : String) : Edit Unit := do
  let netlist ← get
  match netlist.cells[cell]? with
  | none => throw (.unknownCell cell)
  | some c =>
    match c.ports[port]? with
    | none => throw (.missingPort cell port)
    | some p =>
      if p.net.isSome then throw (.portInUse cell port)
      else
        let target : Net := netlist.nets.getD net { name := net }
        match p.direction, target.driver with
        | .output, some driver => throw (.multipleDrivers net s!"{driver.cell}.{driver.port}")
        | .output, none =>
          let target := { target with driver := some ⟨cell, port⟩ }
          set (setPortNet { netlist with nets := netlist.nets.insert net target }
            cell port (some net))
        | _, _ =>
          let target := { target with users := target.users ++ [⟨cell, port⟩] }
          set (setPortNet { netlist with nets := netlist.nets.insert net target }
            cell port (some net))

/-- A net without its references to a port. -/
def dropReferences (ref : PortRef) (net : Net) : Net :=
  { net with
    driver := if net.driver = some ref then none else net.driver
    users := net.users.filter (· ≠ ref) }

/-- Detaches a port; where there is nothing to detach, nothing changes. -/
def disconnect (cell port : String) (netlist : Netlist) : Netlist :=
  match netlist.cells[cell]?.bind (·.portNet? port) with
  | none => netlist
  | some net =>
    let detached := setPortNet netlist cell port none
    { detached with nets := detached.nets.modify net (dropReferences ⟨cell, port⟩) }

/-- Detaches every port of a cell and takes it out. -/
def removeCell (name : String) (netlist : Netlist) : Option Cell × Netlist :=
  match netlist.cells[name]? with
  | none => (none, netlist)
  | some cell =>
    let detached := cell.ports.keys.foldl (fun netlist port => netlist.disconnect name port) netlist
    (detached.cells[name]?, { detached with cells := detached.cells.erase name })

def setSetting (name : String) (value : Property) (netlist : Netlist) : Netlist :=
  { netlist with settings := netlist.settings.insert name value }

end Netlist

end TileFabric
