import TileFabric.Binary64

/-!
# TOML trees

`Toml` is the tree of a TOML document. The entries of a table keep the order in which they were
written; no key occurs twice in a table that was read from a text.
-/

set_option autoImplicit false

namespace TileFabric

inductive Toml where
  | string (text : String)
  | integer (value : Int)
  | float (value : Binary64)
  | boolean (value : Bool)
  /-- A date, a time or both, as written. -/
  | dateTime (text : String)
  | array (items : List Toml)
  | table (entries : List (String × Toml))
  deriving Repr, Inhabited

end TileFabric
