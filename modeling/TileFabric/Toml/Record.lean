import TileFabric.Toml

/-!
# Reading records out of TOML trees

A record is written as a table of its fields, all of which it has to know, or as an array of their
values in the order of declaration, of which those past the last field are not looked at.
-/

set_option autoImplicit false

namespace TileFabric.Toml

variable {α : Type}

def asBool? : Toml → Option Bool
  | .boolean value => some value
  | _ => none

def asString? : Toml → Option String
  | .string text => some text
  | _ => none

def asUInt32? : Toml → Option UInt32
  | .integer value =>
    if 0 ≤ value ∧ value < UInt32.size then some (UInt32.ofNat value.toNat) else none
  | _ => none

/-- A number; an integer stands for the float nearest to it. -/
def asBinary64? : Toml → Option Binary64
  | .float value => some value
  | .integer value => some (.ofDecimal ⟨value < 0, value.natAbs, 0⟩)
  | _ => none

def asList? (decode : Toml → Option α) : Toml → Option (List α)
  | .array items => items.mapM decode
  | _ => none

/-- One of a set of tags: its name, or a table with the name as its only key, for nothing. -/
def asTag? (ofName : String → Option α) : Toml → Option α
  | .string name => ofName name
  | .table [(name, .table [])] => ofName name
  | .table [(name, .array [])] => ofName name
  | _ => none

/-- The fields of a record that are given, under their names. -/
structure Record where
  fields : List (String × Toml)

namespace Record

/-- The record with these field names, in the order of declaration. -/
def ofToml? (names : List String) : Toml → Option Record
  | .table entries =>
    if entries.all fun (key, _) => names.contains key then some ⟨entries⟩ else none
  | .array items => some ⟨names.zip items⟩
  | _ => none

def required (record : Record) (name : String) (decode : Toml → Option α) : Option α :=
  (record.fields.lookup name).bind decode

/-- A field with a default. -/
def defaulted (record : Record) (name : String) (decode : Toml → Option α) (default : α) :
    Option α :=
  match record.fields.lookup name with
  | some value => decode value
  | none => some default

/-- A field that may be absent. -/
def optional (record : Record) (name : String) (decode : Toml → Option α) (default : Option α) :
    Option (Option α) :=
  record.defaulted name (fun value => (decode value).map some) default

end Record

end TileFabric.Toml
