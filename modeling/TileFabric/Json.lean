import TileFabric.Binary64

/-!
# JSON trees

`Json` is the tree of a JSON text. Members of an object keep their order and their repetitions;
what a repetition means is for the reader of the tree to say.
-/

set_option autoImplicit false

namespace TileFabric

variable {α : Type}

/--
A JSON value. A number with a fraction or an exponent, and the number `-0`, is a `decimal`;
every other number is an `integer`. A string with half a surrogate pair, or an object with such
a key, is well-formed text that names no value: it is `unreadable`, so it may only be skipped.
-/
inductive Json where
  | null
  | bool (value : Bool)
  | integer (value : Int)
  | decimal (value : Decimal)
  | string (text : String)
  | array (items : List Json)
  | object (members : List (String × Json))
  | unreadable
  deriving Repr, Inhabited

namespace Json

def ofNat (n : Nat) : Json := .integer n

/--
A number if it is finite; JSON has no text for the others. Of two equally near decimals it is the
even one.
-/
def ofBinary64 (x : Binary64) : Json :=
  match x.shortest? .toEven with
  | some d => .decimal d
  | none => .null

def ofOption (encode : α → Json) : Option α → Json
  | some value => encode value
  | none => .null

def strings (texts : List String) : Json := .array (texts.map .string)

end Json

end TileFabric
