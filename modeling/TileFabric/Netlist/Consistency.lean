import TileFabric.Netlist
import TileFabric.Netlist.Error

/-!
# Consistency of netlists

`Netlist.check` looks for the first thing wrong in a netlist: a cell or a net under another name
than its own, a net's reference to a port that is not attached to it, a port attached to a net
that is not there. Cells and nets are looked at in the order of their names.
-/

set_option autoImplicit false

namespace TileFabric.Netlist

/-- The entries whose key is not their name, cells before nets. -/
def misnamed (netlist : Netlist) : List (String × String) :=
  let named := netlist.cells.toList.map (fun (key, cell) => (key, cell.name)) ++
    netlist.nets.toList.map (fun (key, net) => (key, net.name))
  named.filter fun (key, name) => key ≠ name

/-- What is wrong with a reference in a net, if anything is. -/
def referenceError? (netlist : Netlist) (net : Net) (ref : PortRef) : Option NetlistError :=
  match netlist.cells[ref.cell]? with
  | none => some (.unknownCell ref.cell)
  | some cell =>
    if cell.portNet? ref.port = some net.name then none
    else some (.missingPort ref.cell ref.port)

/-- What is wrong with the net of a port, if anything is. -/
def attachmentError? (netlist : Netlist) (cell : Cell) (port : String) (p : Port) :
    Option NetlistError :=
  match p.net with
  | none => none
  | some net => if netlist.nets.contains net then none else some (.danglingPort net cell.name port)

/-- The first thing wrong in a netlist. -/
def error? (netlist : Netlist) : Option NetlistError :=
  netlist.misnamed.head?.map (fun (key, name) => .nameMismatch key name)
  <|> netlist.nets.values.findSome? (fun net =>
    net.references.findSome? (netlist.referenceError? net))
  <|> netlist.cells.values.findSome? (fun cell =>
    cell.ports.toList.findSome? fun (port, p) => netlist.attachmentError? cell port p)

/-- Fails with the first thing wrong in a netlist. -/
def check (netlist : Netlist) : Except NetlistError Unit :=
  match netlist.error? with
  | some e => .error e
  | none => .ok ()

end TileFabric.Netlist
