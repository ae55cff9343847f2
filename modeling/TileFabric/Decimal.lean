/-!
# Decimal numbers and their written forms

A `Decimal` is a signed integer times a power of ten. `Layout` says how one is spelled: over which
exponents the point is placed positionally, and whether a whole number keeps a fraction digit.
-/

set_option autoImplicit false

namespace TileFabric

/-- The number `± digits * 10 ^ exponent`; zero keeps its sign. -/
structure Decimal where
  negative : Bool
  digits : Nat
  exponent : Int
  deriving DecidableEq, Repr

namespace Decimal

/-- A power of a base; a negative exponent counts as zero. -/
def power (base : Nat) (exponent : Int) : Nat := Nat.pow base exponent.toNat

/-- The decimal digits of a number, most significant first; zero is one digit. -/
def numerals (n : Nat) : List Char := Nat.toDigits 10 n

/-- Drops the zeros at the low end of the digits, at most `fuel` of them. -/
def trimZeros : Nat → Nat → Int → Nat × Int
  | 0, digits, exponent => (digits, exponent)
  | fuel + 1, digits, exponent =>
    if digits % 10 = 0 then trimZeros fuel (digits / 10) (exponent + 1) else (digits, exponent)

/-- The same number with no zero at the low end of its digits; zero has exponent 0. -/
def normalize (d : Decimal) : Decimal :=
  if d.digits = 0 then { d with exponent := 0 }
  else
    let (digits, exponent) := trimZeros (numerals d.digits).length d.digits d.exponent
    { d with digits, exponent }

/-- How numbers are spelled. -/
structure Layout where
  /-- Whether a number whose first digit stands for this power of ten is written positionally. -/
  positional : Int → Bool
  /-- Whether a positional whole number ends in `.0`. -/
  fractionKept : Bool

/-- Digits with the point placed, `exponent` being that of the last digit. -/
def positionalText (digits : List Char) (exponent : Int) (fractionKept : Bool) : List Char :=
  let leading := exponent + digits.length
  if 0 ≤ exponent then
    digits ++ List.replicate exponent.toNat '0' ++ (if fractionKept then ['.', '0'] else [])
  else if 0 < leading then
    digits.take leading.toNat ++ '.' :: digits.drop leading.toNat
  else
    '0' :: '.' :: List.replicate (-leading).toNat '0' ++ digits

/-- One digit before the point, the rest behind it, and a signed exponent. -/
def scientificText (digits : List Char) (leading : Int) : List Char :=
  let mantissa := match digits with
    | first :: second :: rest => first :: '.' :: second :: rest
    | short => short
  mantissa ++ 'e' :: (if leading < 0 then '-' else '+') :: numerals leading.natAbs

/-- The text of a number under a layout. -/
def text (layout : Layout) (d : Decimal) : String :=
  let n := d.normalize
  let digits := numerals n.digits
  let leading := n.exponent + digits.length - 1
  let unsigned := if layout.positional leading
    then positionalText digits n.exponent layout.fractionKept
    else scientificText digits leading
  String.ofList (if n.negative then '-' :: unsigned else unsigned)

end Decimal

end TileFabric
