import Mathlib.Data.List.TakeDrop
import TileFabric.Json.Printer
import TileFabric.Json.Reader
import TileFabric.Proofs.Numerals

/-!
# Reading scalars

The reader takes back what a number and a string are written as. A number has no end of its own,
so it is read as written only in front of what cannot go on with it; a string is read as written
wherever it stands, whatever characters are in it.
-/

set_option autoImplicit false

namespace TileFabric

theorem dropWhile_toDigits {n : Nat} {rest : List Char}
    (ends : ∀ c ∈ rest.head?, c.isDigit = false) :
    (Nat.toDigits 10 n ++ rest).dropWhile Char.isDigit = rest := by
  have whole := List.takeWhile_append_dropWhile (p := Char.isDigit) (l := Nat.toDigits 10 n ++ rest)
  rw [takeWhile_toDigits ends] at whole
  exact List.append_cancel_left whole

theorem isDigit_of_toDigits {n : Nat} {c : Char} {rest cs : List Char}
    (begins : Nat.toDigits 10 n ++ rest = c :: cs) : c.isDigit = true := by
  cases written : Nat.toDigits 10 n with
  | nil => exact absurd written Nat.toDigits_ne_nil
  | cons first others =>
    rw [written, List.cons_append] at begins
    cases begins
    exact Nat.isDigit_of_mem_toDigits (b := 10) (n := n) (by decide) (by decide) (by simp [written])

theorem toList_toString_ofNat (n : Nat) :
    (toString (Int.ofNat n)).toList = Nat.toDigits 10 n := by
  rw [Int.toString_eq_repr]
  simp [Int.repr]

theorem toList_toString_negSucc (n : Nat) :
    (toString (Int.negSucc n)).toList = '-' :: Nat.toDigits 10 (n + 1) := by
  rw [Int.toString_eq_repr]
  simp [Int.repr]

/-- No number but zero begins with a zero. -/
theorem head?_toDigits_ne_zero {n : Nat} (positive : n ≠ 0) :
    (Nat.toDigits 10 n).head? ≠ some '0' := by
  induction n using Nat.strongRecOn with
  | _ n ih =>
    by_cases small : n < 10
    · have single : ∀ d < 10, d ≠ 0 → [Nat.digitChar d].head? ≠ some '0' := by decide
      rw [Nat.toDigits_of_lt_base small]
      exact single n small positive
    · have shorter := ih (n / 10) (by omega) (by omega)
      rw [Nat.toDigits_of_base_le (by decide) (by omega), List.head?_append]
      cases first : (Nat.toDigits 10 (n / 10)).head? with
      | none => exact absurd (List.head?_eq_none_iff.mp first) Nat.toDigits_ne_nil
      | some c => simpa [first] using shorter

namespace Digits

theorem value?_of_isDigit {c : Char} (digit : c.isDigit = true) :
    value? 10 c = some (c.toNat - '0'.toNat) := by
  have bounds : '0' ≤ c ∧ c ≤ '9' := by simpa [Char.isDigit, Char.le_def] using digit
  have small : c.toNat - '0'.toNat < 10 := by
    have upper : c.toNat ≤ '9'.toNat := bounds.2
    have nine : '9'.toNat = 57 := rfl
    have zero : '0'.toNat = 48 := rfl
    omega
  simp only [value?, if_pos bounds, Option.filter_some]
  simpa using small

/-- Decimal digits stand for the number that they are written for. -/
theorem toNat_toDigits (n : Nat) : toNat 10 (Nat.toDigits 10 n) = n := by
  have digits : ∀ c ∈ Nat.toDigits 10 n, c.isDigit = true :=
    fun c member => Nat.isDigit_of_mem_toDigits (by decide) (by decide) member
  have read := Nat.ofDigitChars_toDigits (b := 10) (n := n) (by decide) (by decide)
  unfold Nat.ofDigitChars at read
  unfold toNat
  refine Eq.trans (List.foldl_ext _ _ _ fun value c member => ?_) read
  rw [value?_of_isDigit (digits c member), Option.getD_some]

end Digits

namespace Json.Reader

/-- What follows does not go on with a number. -/
def Ends (rest : List Char) : Prop :=
  ∀ c ∈ rest.head?, c.isDigit = false ∧ c ≠ '.' ∧ c ≠ 'e' ∧ c ≠ 'E'

section Numbers

variable {rest : List Char} (ends : Ends rest)

include ends

theorem integerDigits?_toDigits (n : Nat) :
    integerDigits? (Nat.toDigits 10 n ++ rest) = some (Nat.toDigits 10 n, rest) := by
  have noDigit : ∀ c ∈ rest.head?, c.isDigit = false := fun c first => (ends c first).1
  by_cases isZero : n = 0
  · subst isZero
    rw [Nat.toDigits_zero]
    rfl
  · have first := head?_toDigits_ne_zero isZero
    have span : (Nat.toDigits 10 n ++ rest).span Char.isDigit = (Nat.toDigits 10 n, rest) := by
      rw [List.span_eq_takeWhile_dropWhile, takeWhile_toDigits noDigit,
        dropWhile_toDigits noDigit]
    have several : digits? (Nat.toDigits 10 n ++ rest) = some (Nat.toDigits 10 n, rest) := by
      rw [digits?, span]
      cases written : Nat.toDigits 10 n with
      | nil => exact absurd written Nat.toDigits_ne_nil
      | cons c cs => rfl
    rw [← several]
    cases written : Nat.toDigits 10 n with
    | nil => exact absurd written Nat.toDigits_ne_nil
    | cons c cs =>
      rw [written] at first
      unfold integerDigits?
      split
      · rename_i isFirst
        cases isFirst
        exact absurd rfl first
      · rfl

theorem fractionDigits?_of_ends : fractionDigits? rest = some (none, rest) := by
  unfold fractionDigits?
  split
  · exact absurd rfl (ends '.' rfl).2.1
  · rfl

theorem exponent?_of_ends : exponent? rest = some (none, rest) := by
  unfold exponent?
  split
  · rename_i c rest
    have first := ends c rfl
    rw [if_neg (not_or.mpr ⟨first.2.2.1, first.2.2.2⟩)]
  · rfl

/-- The digits of a whole number are read as it, and as no decimal but for a negative zero. -/
theorem unsignedNumber?_toDigits (negative : Bool) (n : Nat) (nonzero : negative = true → n ≠ 0) :
    unsignedNumber? negative (Nat.toDigits 10 n ++ rest) =
      some (.integer (if negative then -(n : Int) else n), rest) := by
  have whole : ¬(negative = true ∧ n = 0) := fun both => nonzero both.1 both.2
  simp [unsignedNumber?, integerDigits?_toDigits ends, fractionDigits?_of_ends ends,
    exponent?_of_ends ends, Digits.toNat_toDigits, whole]

theorem number?_toString (z : Int) :
    number? ((toString z).toList ++ rest) = some (.integer z, rest) := by
  cases z with
  | ofNat n =>
    rw [toList_toString_ofNat]
    have unsigned := unsignedNumber?_toDigits ends false n (by simp)
    unfold number?
    split
    · rename_i behind isFirst
      cases isDigit_of_toDigits isFirst
    · exact unsigned
  | negSucc n =>
    rw [toList_toString_negSucc]
    exact unsignedNumber?_toDigits ends true (n + 1) (by simp)

end Numbers

section Strings

/-- A control character is written as its code in four hexadecimal digits. -/
theorem ofCode_escape {c : Char} (control : c.toNat < 0x20) :
    ∃ code, Digits.toNat? 16
        ['0', '0', Nat.digitChar (c.toNat / 16), Nat.digitChar (c.toNat % 16)] = some code ∧
      Unit16.ofCode code = .char c := by
  have codes : ∀ n < 0x20, Digits.toNat? 16
      ['0', '0', Nat.digitChar (n / 16), Nat.digitChar (n % 16)] = some n := by decide
  refine ⟨c.toNat, codes c.toNat control, ?_⟩
  rw [Unit16.ofCode, if_neg (by omega), if_neg (by omega), Char.ofNat_toNat]

/-- However a character is written, it is read as one unit. -/
theorem stringUnits_escaped (c : Char) (done : List Unit16) (cs : List Char) :
    stringUnits done (escaped c ++ cs) = stringUnits (.char c :: done) cs := by
  unfold escaped
  split
  case h_8 notQuote notBackslash _ _ _ _ _ =>
    split
    · rename_i control
      obtain ⟨code, digits, unit⟩ := ofCode_escape control
      simp only [List.cons_append, List.nil_append, stringUnits, digits, unit]
    · rename_i printable
      simp only [List.cons_append, List.nil_append]
      rw [stringUnits, if_neg printable]
      · exact notQuote
      · exact fun _ _ _ _ _ isBackslash _ => notBackslash isBackslash
      · exact fun _ _ isBackslash _ => notBackslash isBackslash
  all_goals simp [stringUnits, letterEscape?]

theorem stringUnits_flatMap (text : List Char) (done : List Unit16) (rest : List Char) :
    stringUnits done (text.flatMap escaped ++ '"' :: rest) =
      some ((text.map Unit16.char).reverse ++ done, rest) := by
  induction text generalizing done with
  | nil => simp [stringUnits]
  | cons c others ih =>
    rw [List.flatMap_cons, List.append_assoc, stringUnits_escaped, ih]
    simp

theorem textOfUnits_chars (units tail : List Char) :
    textOfUnits tail (units.map Unit16.char) = some (units.reverse ++ tail) := by
  induction units generalizing tail with
  | nil => rfl
  | cons c before ih =>
    rw [List.map_cons, textOfUnits, ih]
    simp

/-- A string that is written is read as its text. -/
theorem stringBody_escaped (text : String) (rest : List Char) :
    stringBody (text.toList.flatMap escaped ++ '"' :: rest) = some (some text, rest) := by
  have units := textOfUnits_chars text.toList.reverse []
  rw [List.map_reverse, List.reverse_reverse, List.append_nil] at units
  rw [stringBody, stringUnits_flatMap, List.append_nil]
  simp [units]

end Strings

end Json.Reader

end TileFabric
