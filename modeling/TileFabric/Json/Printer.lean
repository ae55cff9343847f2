import TileFabric.Json

/-!
# Writing JSON

`compact` writes a tree without blanks, `pretty` with one item a line, two blanks deeper at each
level. Both spell strings and numbers alike.
-/

set_option autoImplicit false

namespace TileFabric.Json

/-- The point is placed positionally for numbers from `0.00001` up to below `1e16`. -/
def numberLayout : Decimal.Layout := ⟨fun e => decide (-5 ≤ e) && decide (e ≤ 15), true⟩

/-- A character inside a string: quotes, backslashes and control characters are escaped. -/
def escaped (c : Char) : List Char :=
  match c with
  | '"' => ['\\', '"']
  | '\\' => ['\\', '\\']
  | '\n' => ['\\', 'n']
  | '\r' => ['\\', 'r']
  | '\t' => ['\\', 't']
  | '\x08' => ['\\', 'b']
  | '\x0c' => ['\\', 'f']
  | c =>
    if c.toNat < 0x20 then
      ['\\', 'u', '0', '0', Nat.digitChar (c.toNat / 16), Nat.digitChar (c.toNat % 16)]
    else [c]

def quoted (text : String) : String :=
  String.ofList ('"' :: text.toList.flatMap escaped ++ ['"'])

mutual

def compact : Json → String
  | .null => "null"
  | .bool value => if value then "true" else "false"
  | .integer value => toString value
  | .decimal value => value.text numberLayout
  | .string text => quoted text
  | .array items => "[" ++ ",".intercalate (compactItems items) ++ "]"
  | .object members => "\x7b" ++ ",".intercalate (compactMembers members) ++ "\x7d"
  | .unreadable => "null"

def compactItems : List Json → List String
  | [] => []
  | item :: rest => compact item :: compactItems rest

def compactMembers : List (String × Json) → List String
  | [] => []
  | (key, value) :: rest => (quoted key ++ ":" ++ compact value) :: compactMembers rest

end

/-- The indentation of a line. -/
def indentation (depth : Nat) : String := String.ofList (List.replicate (2 * depth) ' ')

/-- Lines between two brackets, or the brackets alone if there are none. -/
def bracketed (opening closing : String) (depth : Nat) (lines : List String) : String :=
  if lines.isEmpty then opening ++ closing
  else
    let lineBreak := "\n" ++ indentation (depth + 1)
    opening ++ lineBreak ++ ("," ++ lineBreak).intercalate lines ++
      "\n" ++ indentation depth ++ closing

mutual

/-- A value whose own line is indented to `depth`. -/
def prettyAt (depth : Nat) : Json → String
  | .array items => bracketed "[" "]" depth (prettyItems (depth + 1) items)
  | .object members => bracketed "\x7b" "\x7d" depth (prettyMembers (depth + 1) members)
  | scalar => compact scalar

def prettyItems (depth : Nat) : List Json → List String
  | [] => []
  | item :: rest => prettyAt depth item :: prettyItems depth rest

def prettyMembers (depth : Nat) : List (String × Json) → List String
  | [] => []
  | (key, value) :: rest => (quoted key ++ ": " ++ prettyAt depth value) :: prettyMembers depth rest

end

def pretty (value : Json) : String := prettyAt 0 value

end TileFabric.Json
