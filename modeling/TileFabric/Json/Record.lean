import TileFabric.Json
import TileFabric.NameMap

/-!
# Reading records out of JSON trees

A record is written as an object of its fields, in any order, or as an array of their values in
the order of declaration. Fields that the record does not know are skipped, a field given twice
is refused. In an object an absent optional field is as good as `null`; in an array a field may
be left off the end only if it has a default.
-/

set_option autoImplicit false

namespace TileFabric.Json

variable {α : Type}

def asBool? : Json → Option Bool
  | .bool value => some value
  | _ => none

def asString? : Json → Option String
  | .string text => some text
  | _ => none

/-- An integer between two bounds. -/
def asIntWithin? (least greatest : Int) : Json → Option Int
  | .integer value => if least ≤ value ∧ value ≤ greatest then some value else none
  | _ => none

def asUInt16? (value : Json) : Option UInt16 :=
  (asIntWithin? 0 65535 value).map fun n => UInt16.ofNat n.toNat

def asUInt32? (value : Json) : Option UInt32 :=
  (asIntWithin? 0 4294967295 value).map fun n => UInt32.ofNat n.toNat

def asInt64? (value : Json) : Option Int64 :=
  (asIntWithin? (-9223372036854775808) 9223372036854775807 value).map Int64.ofInt

def asList? (decode : Json → Option α) : Json → Option (List α)
  | .array items => items.mapM decode
  | _ => none

/-- A `null` stands for nothing. -/
def asOption? (decode : Json → Option α) : Json → Option (Option α)
  | .null => some none
  | value => (decode value).map some

/-- Every member has to be readable; of members of one name the last counts. -/
def asNameMap? (decode : Json → Option α) : Json → Option (NameMap α)
  | .object members => do
    let entries ← members.mapM fun (key, value) => (decode value).map fun value => (key, value)
    some (Std.ExtTreeMap.ofList entries)
  | _ => none

def ofNameMap (encode : α → Json) (map : NameMap α) : Json :=
  .object (map.toList.map fun (key, value) => (key, encode value))

/-- One of a set of tags: its name, or an object with the name as its only key, for nothing. -/
def asTag? (ofName : String → Option α) : Json → Option α
  | .string name => ofName name
  | .object [(name, .null)] => ofName name
  | _ => none

/-- The fields of a record under their names, and whether they were given by position. -/
structure Record where
  positional : Bool
  fields : List (String × Json)

namespace Record

/-- The record with these field names, in the order of declaration. -/
def ofJson? (names : List String) : Json → Option Record
  | .object members =>
    let known := members.filter fun (key, _) => names.contains key
    if (known.map Prod.fst).Nodup then some ⟨false, known⟩ else none
  | .array items => if items.length ≤ names.length then some ⟨true, names.zip items⟩ else none
  | _ => none

def required (record : Record) (name : String) (decode : Json → Option α) : Option α :=
  (record.fields.lookup name).bind decode

/-- A field that may be `null`, and absent from an object. -/
def optional (record : Record) (name : String) (decode : Json → Option α) : Option (Option α) :=
  match record.fields.lookup name with
  | some value => asOption? decode value
  | none => if record.positional then none else some none

/-- A field with a default. -/
def defaulted (record : Record) (name : String) (decode : Json → Option α) (default : α) :
    Option α :=
  match record.fields.lookup name with
  | some value => decode value
  | none => some default

end Record

end TileFabric.Json
