/-!
# Digits

Digits are read in any base up to sixteen, letters of either case standing for ten and more.
-/

set_option autoImplicit false

namespace TileFabric.Digits

/-- The value of a digit of a base. -/
def value? (base : Nat) (c : Char) : Option Nat :=
  let value? :=
    if '0' ≤ c ∧ c ≤ '9' then some (c.toNat - '0'.toNat)
    else if 'a' ≤ c ∧ c ≤ 'f' then some (c.toNat - 'a'.toNat + 10)
    else if 'A' ≤ c ∧ c ≤ 'F' then some (c.toNat - 'A'.toNat + 10)
    else none
  value?.filter (· < base)

def isDigit (base : Nat) (c : Char) : Bool := (value? base c).isSome

/-- The number that digits stand for; what is no digit counts as zero. -/
def toNat (base : Nat) (digits : List Char) : Nat :=
  digits.foldl (fun value c => base * value + (value? base c).getD 0) 0

/-- The number that digits stand for, if there is a digit and nothing else. -/
def toNat? (base : Nat) (digits : List Char) : Option Nat :=
  if !digits.isEmpty && digits.all (isDigit base) then some (toNat base digits) else none

end TileFabric.Digits
