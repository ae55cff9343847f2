import TileFabric.Digits
import TileFabric.Json

/-!
# Reading JSON

A recursive reader over the characters that are left. Each step gives what it read and the rest,
or nothing if the text is not JSON. The depth and the length of a text bound the recursion, so the
fuel that `parse?` hands out is never used up.
-/

set_option autoImplicit false

namespace TileFabric.Json

namespace Reader

def isBlank (c : Char) : Bool := c == ' ' || c == '\n' || c == '\t' || c == '\r'

def skipBlanks (cs : List Char) : List Char := cs.dropWhile isBlank

/-- The character of a one-letter escape. -/
def letterEscape? : Char → Option Char
  | '"' => some '"'
  | '\\' => some '\\'
  | '/' => some '/'
  | 'b' => some '\x08'
  | 'f' => some '\x0c'
  | 'n' => some '\n'
  | 'r' => some '\r'
  | 't' => some '\t'
  | _ => none

/-- One unit of a string's content: a character, or half of a surrogate pair. -/
inductive Unit16 where
  | char (c : Char)
  | high (code : Nat)
  | low (code : Nat)

def Unit16.ofCode (code : Nat) : Unit16 :=
  if 0xD800 ≤ code ∧ code < 0xDC00 then .high code
  else if 0xDC00 ≤ code ∧ code < 0xE000 then .low code
  else .char (Char.ofNat code)

/-- The units of a string up to its closing quote, last first. -/
def stringUnits (done : List Unit16) : List Char → Option (List Unit16 × List Char)
  | [] => none
  | '"' :: rest => some (done, rest)
  | '\\' :: 'u' :: a :: b :: c :: d :: rest =>
    match Digits.toNat? 16 [a, b, c, d] with
    | some code => stringUnits (Unit16.ofCode code :: done) rest
    | none => none
  | '\\' :: c :: rest =>
    match letterEscape? c with
    | some c => stringUnits (.char c :: done) rest
    | none => none
  | c :: rest => if c.toNat < 0x20 then none else stringUnits (.char c :: done) rest

/--
The text behind units given last first, in front of what is read already. Only a high half
followed by a low one is a character.
-/
def textOfUnits (tail : List Char) : List Unit16 → Option (List Char)
  | [] => some tail
  | .char c :: before => textOfUnits (c :: tail) before
  | .low low :: .high high :: before =>
    textOfUnits (Char.ofNat (0x10000 + (high - 0xD800) * 0x400 + (low - 0xDC00)) :: tail) before
  | _ :: _ => none

/-- A string behind its opening quote: its text, if it names one, and the rest. -/
def stringBody (cs : List Char) : Option (Option String × List Char) :=
  (stringUnits [] cs).map fun (units, rest) => ((textOfUnits [] units).map String.ofList, rest)

/-- One or more digits. -/
def digits? (cs : List Char) : Option (List Char × List Char) :=
  match cs.span Char.isDigit with
  | ([], _) => none
  | (digits, rest) => some (digits, rest)

/-- The digits before the point: a zero stands alone. -/
def integerDigits? : List Char → Option (List Char × List Char)
  | '0' :: rest => some (['0'], rest)
  | cs => digits? cs

/-- The digits behind a point, if there is one. -/
def fractionDigits? : List Char → Option (Option (List Char) × List Char)
  | '.' :: rest => (digits? rest).map fun (digits, rest) => (some digits, rest)
  | cs => some (none, cs)

/-- The digits of an exponent as a number with its sign. -/
def signedExponent? (negative : Bool) (cs : List Char) : Option (Option Int × List Char) :=
  (digits? cs).map fun (digits, rest) =>
    let magnitude := (Digits.toNat 10 digits : Int)
    (some (if negative then -magnitude else magnitude), rest)

/-- The exponent, if there is one. -/
def exponent? : List Char → Option (Option Int × List Char)
  | c :: rest =>
    if c = 'e' ∨ c = 'E' then
      match rest with
      | '-' :: rest => signedExponent? true rest
      | '+' :: rest => signedExponent? false rest
      | rest => signedExponent? false rest
    else some (none, c :: rest)
  | [] => some (none, [])

def unsignedNumber? (negative : Bool) (cs : List Char) : Option (Json × List Char) := do
  let (whole, rest) ← integerDigits? cs
  let (fraction, rest) ← fractionDigits? rest
  let (exponent, rest) ← exponent? rest
  let magnitude := Digits.toNat 10 whole
  if fraction.isNone ∧ exponent.isNone ∧ ¬(negative ∧ magnitude = 0) then
    some (.integer (if negative then -(magnitude : Int) else magnitude), rest)
  else
    let fraction := fraction.getD []
    some (.decimal ⟨negative, Digits.toNat 10 (whole ++ fraction),
      exponent.getD 0 - fraction.length⟩, rest)

def number? : List Char → Option (Json × List Char)
  | '-' :: rest => unsignedNumber? true rest
  | cs => unsignedNumber? false cs

/-- An object of its members, last first; a key without a text makes it unreadable. -/
def objectOf (members : List (Option String × Json)) : Json :=
  match members.reverse.mapM fun (key, value) => key.map fun key => (key, value) with
  | some members => .object members
  | none => .unreadable

mutual

def value : Nat → List Char → Option (Json × List Char)
  | 0, _ => none
  | fuel + 1, cs =>
    match cs with
    | 'n' :: 'u' :: 'l' :: 'l' :: rest => some (.null, rest)
    | 't' :: 'r' :: 'u' :: 'e' :: rest => some (.bool true, rest)
    | 'f' :: 'a' :: 'l' :: 's' :: 'e' :: rest => some (.bool false, rest)
    | '"' :: rest => (stringBody rest).map fun (text, rest) =>
        ((text.map Json.string).getD .unreadable, rest)
    | '[' :: rest =>
      match skipBlanks rest with
      | ']' :: rest => some (.array [], rest)
      | rest => items fuel [] rest
    | '\x7b' :: rest =>
      match skipBlanks rest with
      | '\x7d' :: rest => some (.object [], rest)
      | rest => members fuel [] rest
    | cs => number? cs

/-- Items up to the closing bracket, behind those already read, which are given last first. -/
def items : Nat → List Json → List Char → Option (Json × List Char)
  | 0, _, _ => none
  | fuel + 1, done, cs =>
    match value fuel (skipBlanks cs) with
    | none => none
    | some (item, rest) =>
      match skipBlanks rest with
      | ',' :: rest => items fuel (item :: done) rest
      | ']' :: rest => some (.array (item :: done).reverse, rest)
      | _ => none

/-- Members up to the closing brace, behind those already read, which are given last first. -/
def members : Nat → List (Option String × Json) → List Char → Option (Json × List Char)
  | 0, _, _ => none
  | fuel + 1, done, cs =>
    match skipBlanks cs with
    | '"' :: rest =>
      match stringBody rest with
      | none => none
      | some (key, rest) =>
        match skipBlanks rest with
        | ':' :: rest =>
          match value fuel (skipBlanks rest) with
          | none => none
          | some (item, rest) =>
            match skipBlanks rest with
            | ',' :: rest => members fuel ((key, item) :: done) rest
            | '\x7d' :: rest => some (objectOf ((key, item) :: done), rest)
            | _ => none
        | _ => none
    | _ => none

end

end Reader

/-- The tree of a text that is one JSON value, with blanks around it or not. -/
def parse? (text : String) : Option Json :=
  let cs := Reader.skipBlanks text.toList
  match Reader.value (2 * cs.length + 2) cs with
  | some (value, rest) => if (Reader.skipBlanks rest).isEmpty then some value else none
  | none => none

end TileFabric.Json
