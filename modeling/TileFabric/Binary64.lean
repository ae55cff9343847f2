import TileFabric.Decimal

/-!
# Binary64 numbers as words

A 64-bit float is its bit pattern. A finite word stands for `± significand * 2 ^ exponent`;
`ofDecimal` is the nearest word of a decimal and `shortest?` the decimal with the fewest digits
that the word is nearest to; which of two equally near ones that is, its caller says. All
arithmetic is exact, on natural numbers.
-/

set_option autoImplicit false

namespace TileFabric

structure Binary64 where
  bits : UInt64
  deriving DecidableEq, Repr

namespace Binary64

open Decimal (power)

instance : Inhabited Binary64 := ⟨⟨0⟩⟩

/-- The weight of the lowest exponent bit in a word. -/
def fractionLimit : Nat := power 2 52

def exponentField (x : Binary64) : Nat := x.bits.toNat / fractionLimit % 2048

def fraction (x : Binary64) : Nat := x.bits.toNat % fractionLimit

def signed (x : Binary64) : Bool := decide (power 2 63 ≤ x.bits.toNat)

def isFinite (x : Binary64) : Bool := x.exponentField != 2047

def isNaN (x : Binary64) : Bool := x.exponentField == 2047 && x.fraction != 0

def isZero (x : Binary64) : Bool := x.exponentField == 0 && x.fraction == 0

/-- Below zero in the numeric order: neither zero nor NaN is. -/
def isNegative (x : Binary64) : Bool := x.signed && !x.isZero && !x.isNaN

def significand (x : Binary64) : Nat :=
  if x.exponentField = 0 then x.fraction else fractionLimit + x.fraction

def exponent (x : Binary64) : Int := (max x.exponentField 1 : Nat) - 1075

/-- The word with this sign and these 63 low bits. -/
def ofMagnitude (negative : Bool) (magnitude : Nat) : Binary64 :=
  ⟨UInt64.ofNat (if negative then power 2 63 + magnitude else magnitude)⟩

def infinityMagnitude : Nat := 2047 * fractionLimit

def infinity (negative : Bool) : Binary64 := ofMagnitude negative infinityMagnitude

def nan (negative : Bool) : Binary64 := ofMagnitude negative (infinityMagnitude + power 2 51)

/-- The integer nearest to a quotient; a half goes to the even neighbour. -/
def nearestQuotient (numerator denominator : Nat) : Nat :=
  let q := numerator / denominator
  let r := numerator % denominator
  if 2 * r < denominator then q
  else if denominator < 2 * r then q + 1
  else q + q % 2

/-- The low 63 bits of the word nearest to a positive quotient. -/
def magnitudeOfQuotient (numerator denominator : Nat) : Nat :=
  let scaled (e : Int) : Nat × Nat :=
    (numerator * power 2 (-e), denominator * power 2 e)
  let guess : Int := max ((numerator.log2 : Int) - denominator.log2 - 53) (-1074)
  let (n, d) := scaled guess
  let e := if n / d < 2 * fractionLimit then guess else guess + 1
  let (n, d) := scaled e
  let m := nearestQuotient n d
  if m < fractionLimit then m
  else min infinityMagnitude ((e + 1075).toNat * fractionLimit + (m - fractionLimit))

/--
The word nearest to a decimal, ties to the even one. A decimal past the range becomes an
infinity or a zero without its power of ten being computed.
-/
def ofDecimal (d : Decimal) : Binary64 :=
  let leading := d.exponent + (Decimal.numerals d.digits).length
  if d.digits = 0 ∨ leading < -330 then ofMagnitude d.negative 0
  else if 330 < leading then infinity d.negative
  else ofMagnitude d.negative
    (magnitudeOfQuotient (d.digits * power 10 d.exponent) (power 10 (-d.exponent)))

/-- How `c * 10 ^ p` compares with `u * 2 ^ s`. -/
def compareScaled (c : Nat) (p : Int) (u : Nat) (s : Int) : Ordering :=
  compare (c * power 10 p * power 2 (-s)) (u * power 2 s * power 10 (-p))

/-- The power of ten of the first digit of `u * 2 ^ s`, for positive `u`. -/
def leadingExponent (u : Nat) (s : Int) : Int :=
  let numerator := u * power 2 s
  let denominator := power 2 (-s)
  let guess : Int := (Decimal.numerals numerator).length - (Decimal.numerals denominator).length
  if compareScaled 1 guess u s = .gt then guess - 1 else guess

/-- Which of two neighbours on a decimal grid stands for a number right between them. -/
inductive Tie where
  | toEven | awayFromZero
  deriving DecidableEq, Repr

/-- The choice between `below` and the candidate after it. -/
def Tie.choose (tie : Tie) (below : Nat) : Nat :=
  match tie with
  | .toEven => below + below % 2
  | .awayFromZero => below + 1

/--
The candidate `c * 10 ^ p` nearest to a positive finite number, if one of its two neighbours on
that decimal grid lies in the interval of reals that round to it. The interval is measured in
quarters of a unit in the last place; its ends belong to it when the significand is even.
-/
def gridHit? (tie : Tie) (x : Binary64) (p : Int) : Option Nat :=
  let m := x.significand
  let s := x.exponent - 2
  let low := if m = fractionLimit ∧ 1 < x.exponentField then 4 * m - 1 else 4 * m - 2
  let high := 4 * m + 2
  let ends := m % 2 == 0
  let hit (c : Nat) : Bool :=
    match compareScaled c p low s, compareScaled c p high s with
    | .gt, .lt => true
    | .eq, _ => ends
    | _, .eq => ends
    | _, _ => false
  let below := (4 * m) * power 2 s * power 10 (-p) / (power 10 p * power 2 (-s))
  match hit below, hit (below + 1) with
  | false, false => none
  | true, false => some below
  | false, true => some (below + 1)
  | true, true =>
    match compareScaled (2 * below + 1) p (8 * m) s with
    | .gt => some below
    | .lt => some (below + 1)
    | .eq => some (tie.choose below)

/-- The first grid that hits, from `count` digits on; `tries` grids are looked at. -/
def firstHit (tie : Tie) (x : Binary64) (leading : Int) : Nat → Nat → Nat × Int
  | 0, _ => (x.significand, x.exponent)
  | tries + 1, count =>
    let p := leading - count + 1
    match x.gridHit? tie p with
    | some c => (c, p)
    | none => firstHit tie x leading tries (count + 1)

/-- The decimal with the fewest digits that rounds to the word; `none` if it is not finite. -/
def shortest? (tie : Tie) (x : Binary64) : Option Decimal :=
  if !x.isFinite then none
  else if x.isZero then some ⟨x.signed, 0, 0⟩
  else
    let (digits, exponent) := x.firstHit tie (leadingExponent x.significand x.exponent) 17 1
    some ⟨x.signed, digits, exponent⟩

/-- The text of a number inside a message: positional, whole numbers without a point. -/
def messageLayout : Decimal.Layout := ⟨fun _ => true, false⟩

/-- A number inside a message; of two equally near decimals it is the one farther from zero. -/
def messageText (x : Binary64) : String :=
  match x.shortest? .awayFromZero with
  | some d => d.text messageLayout
  | none => if x.isNaN then "NaN" else if x.signed then "-inf" else "inf"

end Binary64

end TileFabric
