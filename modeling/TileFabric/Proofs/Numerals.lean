import Mathlib.Data.List.Basic
import Std.Data.String.ToNat

/-!
# Numbers in names

A number in a name can be read back, and it ends where no digit follows.
-/

set_option autoImplicit false

namespace TileFabric

theorem toDigits_inj {m n : Nat} (same : Nat.toDigits 10 m = Nat.toDigits 10 n) : m = n := by
  have values := congrArg (Nat.ofDigitChars 10 · 0) same
  simpa using values

/-- Digits end where no digit follows. -/
theorem takeWhile_digits {digits rest : List Char} (all : ∀ c ∈ digits, c.isDigit = true)
    (ends : ∀ c ∈ rest.head?, c.isDigit = false) :
    (digits ++ rest).takeWhile Char.isDigit = digits := by
  rw [List.takeWhile_append_of_pos all]
  cases rest with
  | nil => simp
  | cons c rest => simp [ends c (by simp)]

theorem isDigit_of_mem_toDigits {n : Nat} {c : Char} (member : c ∈ Nat.toDigits 10 n) :
    c.isDigit = true :=
  Nat.isDigit_of_mem_toDigits (by decide) (by decide) member

theorem takeWhile_toDigits {n : Nat} {rest : List Char}
    (ends : ∀ c ∈ rest.head?, c.isDigit = false) :
    (Nat.toDigits 10 n ++ rest).takeWhile Char.isDigit = Nat.toDigits 10 n :=
  takeWhile_digits (fun _ => isDigit_of_mem_toDigits) ends

theorem number_append_inj {m n : Nat} {left right : List Char}
    (leftEnds : ∀ c ∈ left.head?, c.isDigit = false)
    (rightEnds : ∀ c ∈ right.head?, c.isDigit = false)
    (same : Nat.toDigits 10 m ++ left = Nat.toDigits 10 n ++ right) : m = n ∧ left = right := by
  have numbers : Nat.toDigits 10 m = Nat.toDigits 10 n := by
    rw [← takeWhile_toDigits leftEnds, same, takeWhile_toDigits rightEnds]
  exact ⟨toDigits_inj numbers, List.append_cancel_left (numbers ▸ same)⟩

/-- A number can also be read back from behind, where no digit stands in front of it. -/
theorem append_number_inj {m n : Nat} {left right : List Char}
    (leftEnds : ∀ c ∈ left.getLast?, c.isDigit = false)
    (rightEnds : ∀ c ∈ right.getLast?, c.isDigit = false)
    (same : left ++ Nat.toDigits 10 m = right ++ Nat.toDigits 10 n) : left = right ∧ m = n := by
  have read (text : List Char) (k : Nat) (ends : ∀ c ∈ text.getLast?, c.isDigit = false) :
      (text ++ Nat.toDigits 10 k).reverse.takeWhile Char.isDigit =
        (Nat.toDigits 10 k).reverse := by
    rw [List.reverse_append]
    refine takeWhile_digits (fun c member => ?_) (by rwa [List.head?_reverse])
    exact isDigit_of_mem_toDigits (List.mem_reverse.mp member)
  have numbers : Nat.toDigits 10 m = Nat.toDigits 10 n := by
    rw [← List.reverse_inj, ← read left m leftEnds, same, read right n rightEnds]
  exact ⟨List.append_cancel_right (numbers ▸ same), toDigits_inj numbers⟩

/-- Numbers in front of the same letter. -/
theorem number_cons_inj {m n : UInt32} {c : Char} {left right : List Char}
    (letter : c.isDigit = false)
    (same : Nat.toDigits 10 m.toNat ++ c :: left = Nat.toDigits 10 n.toNat ++ c :: right) :
    m = n ∧ left = right := by
  obtain ⟨numbers, rests⟩ := number_append_inj (by simpa) (by simpa) same
  exact ⟨UInt32.toNat_inj.mp numbers, (List.cons.inj rests).2⟩

end TileFabric
