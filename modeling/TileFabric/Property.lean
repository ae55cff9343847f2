/-!
# Parameter values

A cell parameter, attribute or setting is an integer or a string of bits, most significant first.
`asInt?` reads either as an integer.
-/

set_option autoImplicit false

namespace TileFabric

inductive Property where
  | int (value : Int64)
  | bits (text : String)
  deriving DecidableEq, Repr, Inhabited

namespace Property

def zeros (width : Nat) : Property := .bits (String.ofList (List.replicate width '0'))

def ones (width : Nat) : Property := .bits (String.ofList (List.replicate width '1'))

/-- The value of further binary digits behind those already read. -/
def binaryFrom (value : Nat) : List Char → Option Nat
  | [] => some value
  | '0' :: rest => binaryFrom (2 * value) rest
  | '1' :: rest => binaryFrom (2 * value + 1) rest
  | _ :: _ => none

/-- One or more binary digits, most significant first. -/
def binary? : List Char → Option Nat
  | [] => none
  | digits => binaryFrom 0 digits

/-- Binary digits, which a plus or a minus may precede. -/
def signedBinary? : List Char → Option Int
  | '+' :: digits => (binary? digits).map (fun value => (value : Int))
  | '-' :: digits => (binary? digits).map (fun value => -(value : Int))
  | digits => (binary? digits).map (fun value => (value : Int))

/--
The integer that a value stands for. Zeros in front of a bit string do not count, nothing but
zeros is zero, and what remains has to be binary and at most 63 characters long.
-/
def asInt? : Property → Option Int
  | .int value => some value.toInt
  | .bits text =>
    match text.toList.dropWhile (· == '0') with
    | [] => some 0
    | digits => if digits.length ≤ 63 then signedBinary? digits else none

/-- The value as it is shown: an integer in decimal, a bit string as it stands. -/
def text : Property → String
  | .int value => toString value.toInt
  | .bits text => text

end Property

end TileFabric
