import TileFabric.Bitstream
import TileFabric.Json.Record

/-!
# Bitstream parameters as JSON

A directive is a record of its three fields, of which only the width may be left out. A row of a
table has its key in front of them.
-/

set_option autoImplicit false

namespace TileFabric

open Json (Record)

namespace Directive

def members (d : Directive) : List (String × Json) :=
  [("write", .bool d.write),
    ("numeric", .bool d.numeric),
    ("width", Json.ofOption (fun width => Json.ofNat width.toNat) d.width)]

def toJson (d : Directive) : Json := .object d.members

def ofJson? (value : Json) : Option Directive := do
  let record ← Record.ofJson? ["write", "numeric", "width"] value
  let write ← record.required "write" Json.asBool?
  let numeric ← record.required "numeric" Json.asBool?
  let width ← record.optional "width" Json.asUInt32?
  some { write, numeric, width }

end Directive

namespace ParamTable

def rowJson (key : ParamKey) (d : Directive) : Json :=
  .object (("cell_type", .string key.cellType) :: ("parameter", .string key.parameter) :: d.members)

def toJson (table : ParamTable) : Json :=
  .array (table.toList.map fun (key, d) => rowJson key d)

end ParamTable

end TileFabric
