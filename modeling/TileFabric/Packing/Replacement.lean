import TileFabric.Log
import TileFabric.Packing.Bench

/-!
# Replacing cells

A `Replacement` says how one cell becomes another. `replaceCells` replaces cells one after the
other: connections move at once, the new cells enter the netlist and the old ones leave it at the
end. When one cell fails, the cells before it are still replaced and the others are left alone.
-/

set_option autoImplicit false

namespace TileFabric

/-- What packing works on: a netlist, and the log that it reports to. -/
structure Workspace where
  netlist : Netlist
  log : Log
  deriving DecidableEq, Repr, Inhabited

abbrev Packing (α : Type) := ExceptT NetlistError (StateM Workspace) α

namespace Packing

variable {α : Type}

def report (d : Diagnostic) : Packing Unit :=
  modify fun w => { w with log := w.log.add d }

/-- Notes that a pass begins. -/
def announce (message : String) : Packing Unit := report (.note .info 2 message)

def netlist : Packing Netlist := return (← get).netlist

def setNetlist (netlist : Netlist) : Packing Unit := modify fun w => { w with netlist }

/-- Runs an edit on the netlist. -/
def edit (change : Edit α) : Packing α := ExceptT.mk fun w =>
  let (result, netlist) := change.run w.netlist
  (result, { w with netlist })

end Packing

structure Replacement where
  /-- What there is to say about a cell that is replaced. -/
  remarks : Cell → List Diagnostic
  /-- The cell that takes the place of another. -/
  make : Cell → Except NetlistError Cell
  /-- The connections that move to the new cell. -/
  move : Move Unit

namespace Replacement

open Packing

/--
Makes the new cell for one cell and moves its connections over. The old cell stays in the netlist
under its name, with what has not moved.
-/
def replaceOne (r : Replacement) (name : String) : Packing Cell := do
  let netlist ← netlist
  match netlist.cells[name]? with
  | none => throw (.unknownCell name)
  | some source =>
    (r.remarks source).forM report
    let target ← liftExcept (r.make source)
    if (netlist.cells.erase name).contains target.name then throw (.duplicateCell target.name)
    else
      let (result, bench) := r.move.run { nets := netlist.nets, source, target }
      setNetlist { netlist with
        nets := bench.nets
        cells := netlist.cells.insert name bench.source }
      match result with
      | .ok () => pure bench.target
      | .error e => throw e

/-- The new cells for as many of the cells as go well, and the error of the one that does not. -/
def replaceWhileWell (r : Replacement) : List String → Packing (List Cell × Option NetlistError)
  | [] => pure ([], none)
  | name :: rest =>
    tryCatch
      (do
        let cell ← r.replaceOne name
        let (cells, failure) ← r.replaceWhileWell rest
        pure (cell :: cells, failure))
      fun e => pure ([], some e)

/-- Takes the old cells out of the netlist, with their leftover connections, and puts the new in. -/
def commit (old : List String) (new : List Cell) : Packing Unit := edit do
  old.forM fun name => modify fun netlist => (netlist.removeCell name).2
  new.forM Netlist.addCell

/-- Replaces the cells of these names and counts them. -/
def replaceCells (r : Replacement) (names : List String) : Packing Nat := do
  let (cells, failure) ← r.replaceWhileWell names
  commit (names.take cells.length) cells
  match failure with
  | some e => throw e
  | none => pure names.length

end Replacement

end TileFabric
