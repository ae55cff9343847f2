import TileFabric.Json.Reader
import TileFabric.Json.Record
import TileFabric.Netlist

/-!
# Netlists as JSON

Objects are keyed by name, directions are written in lower case, a free port's net is `null`.
Everything but a name, a cell's type and a port's direction may be left out. The number behind
made-up names is not written, and starts from zero in a netlist that is read.
-/

set_option autoImplicit false

namespace TileFabric

open Json (Record)

namespace Property

def toJson : Property → Json
  | .int value => .integer value.toInt
  | .bits text => .string text

def ofJson? : Json → Option Property
  | .string text => some (.bits text)
  | value => (Json.asInt64? value).map .int

end Property

namespace PortDirection

def tag : PortDirection → String
  | .input => "input"
  | .output => "output"
  | .inout => "inout"

def ofTag? : String → Option PortDirection
  | "input" => some .input
  | "output" => some .output
  | "inout" => some .inout
  | _ => none

end PortDirection

namespace Port

def toJson (port : Port) : Json :=
  .object [("direction", .string port.direction.tag), ("net", Json.ofOption .string port.net)]

def ofJson? (value : Json) : Option Port := do
  let record ← Record.ofJson? ["direction", "net"] value
  let direction ← record.required "direction" (Json.asTag? PortDirection.ofTag?)
  let net ← record.defaulted "net" (Json.asOption? Json.asString?) none
  some { direction, net }

end Port

namespace PortRef

def toJson (ref : PortRef) : Json :=
  .object [("cell", .string ref.cell), ("port", .string ref.port)]

def ofJson? (value : Json) : Option PortRef := do
  let record ← Record.ofJson? ["cell", "port"] value
  let cell ← record.required "cell" Json.asString?
  let port ← record.required "port" Json.asString?
  some { cell, port }

end PortRef

namespace Cell

def toJson (cell : Cell) : Json :=
  .object
    [("name", .string cell.name),
      ("type", .string cell.cellType),
      ("ports", Json.ofNameMap Port.toJson cell.ports),
      ("params", Json.ofNameMap Property.toJson cell.params),
      ("attrs", Json.ofNameMap Property.toJson cell.attrs)]

def ofJson? (value : Json) : Option Cell := do
  let record ← Record.ofJson? ["name", "type", "ports", "params", "attrs"] value
  let name ← record.required "name" Json.asString?
  let cellType ← record.required "type" Json.asString?
  let ports ← record.defaulted "ports" (Json.asNameMap? Port.ofJson?) ∅
  let params ← record.defaulted "params" (Json.asNameMap? Property.ofJson?) ∅
  let attrs ← record.defaulted "attrs" (Json.asNameMap? Property.ofJson?) ∅
  some { name, cellType, ports, params, attrs }

end Cell

namespace Net

def toJson (net : Net) : Json :=
  .object
    [("name", .string net.name),
      ("driver", Json.ofOption PortRef.toJson net.driver),
      ("users", .array (net.users.map PortRef.toJson))]

def ofJson? (value : Json) : Option Net := do
  let record ← Record.ofJson? ["name", "driver", "users"] value
  let name ← record.required "name" Json.asString?
  let driver ← record.defaulted "driver" (Json.asOption? PortRef.ofJson?) none
  let users ← record.defaulted "users" (Json.asList? PortRef.ofJson?) []
  some { name, driver, users }

end Net

namespace Netlist

def toJson (netlist : Netlist) : Json :=
  .object
    [("cells", Json.ofNameMap Cell.toJson netlist.cells),
      ("nets", Json.ofNameMap Net.toJson netlist.nets),
      ("settings", Json.ofNameMap Property.toJson netlist.settings)]

def ofJson? (value : Json) : Option Netlist := do
  let record ← Record.ofJson? ["cells", "nets", "settings"] value
  let cells ← record.defaulted "cells" (Json.asNameMap? Cell.ofJson?) ∅
  let nets ← record.defaulted "nets" (Json.asNameMap? Net.ofJson?) ∅
  let settings ← record.defaulted "settings" (Json.asNameMap? Property.ofJson?) ∅
  some { cells, nets, settings, nextName := 0 }

/-- The netlist that a text in JSON stands for. -/
def ofText? (text : String) : Option Netlist := (Json.parse? text).bind ofJson?

end Netlist

end TileFabric
