import Mathlib.Data.List.TakeWhile
import Mathlib.Data.Nat.Digits.Lemmas
import TileFabric.Property

/-!
# The integer value of a bit string

A text of zeros and ones spells a number, most significant bit first, and stands for it if the
number fits in 63 bits, however many zeros are in front. `asInt?` reads every such text as that
number. Behind the zeros it takes a sign as well, with one to 62 bits behind the sign, so that the
texts that have a value are not the texts of bits alone.
-/

set_option autoImplicit false

namespace TileFabric.Property

def IsBit (c : Char) : Prop := c = '0' ∨ c = '1'

instance : DecidablePred IsBit := fun c => inferInstanceAs (Decidable (c = '0' ∨ c = '1'))

def bit (c : Char) : Nat := if c = '1' then 1 else 0

/-- The number that bits spell, most significant first. -/
def spelled (bits : List Char) : Nat := Nat.ofDigits 2 (bits.reverse.map bit)

/-- A text of bits alone, whose number fits in 63 bits, spells that number. -/
structure Spells (text : String) (v : Int) : Prop where
  bits : ∀ c ∈ text.toList, IsBit c
  fits : spelled text.toList < 2 ^ 63
  value : v = spelled text.toList

inductive Sign where
  | plus | minus
  deriving DecidableEq, Repr

namespace Sign

def symbol : Sign → Char
  | plus => '+'
  | minus => '-'

def apply : Sign → Nat → Int
  | plus, n => n
  | minus, n => -n

end Sign

/-- A text of zeros, a sign, and one to 62 bits. -/
def SpellsSigned (text : String) (v : Int) : Prop :=
  ∃ (zeros : Nat) (sign : Sign) (bits : List Char),
    text.toList = List.replicate zeros '0' ++ sign.symbol :: bits ∧
      (∀ c ∈ bits, IsBit c) ∧ (bits ≠ [] ∧ bits.length ≤ 62) ∧ v = sign.apply (spelled bits)

section Spelled

theorem spelled_cons (c : Char) (rest : List Char) :
    spelled (c :: rest) = 2 ^ rest.length * bit c + spelled rest := by
  simp [spelled, Nat.ofDigits_append, Nat.add_comm]

theorem spelled_zeros (zeros : Nat) (rest : List Char) :
    spelled (List.replicate zeros '0' ++ rest) = spelled rest := by
  induction zeros with
  | zero => rfl
  | succ zeros ih =>
    rw [List.replicate_succ, List.cons_append, spelled_cons, ih]
    simp [bit]

theorem spelled_lt (bits : List Char) : spelled bits < 2 ^ bits.length := by
  have digits : ∀ d ∈ bits.reverse.map bit, d < 2 := by
    intro d member
    obtain ⟨c, -, rfl⟩ := List.mem_map.mp member
    unfold bit
    split <;> omega
  simpa [spelled] using Nat.ofDigits_lt_base_pow_length (by omega) digits

/-- Behind the zeros in front, a number that fits in some width is no longer than it. -/
theorem spelled_lt_iff {bits : List Char} {width : Nat} (all : ∀ c ∈ bits, IsBit c)
    (trimmed : bits.head? ≠ some '0') : spelled bits < 2 ^ width ↔ bits.length ≤ width := by
  constructor
  · intro fits
    cases bits with
    | nil => exact Nat.zero_le _
    | cons c rest =>
      have one : c = '1' := (all c List.mem_cons_self).resolve_left fun zero => trimmed (by simp [zero])
      rw [spelled_cons, one] at fits
      have less : 2 ^ rest.length < 2 ^ width :=
        Nat.lt_of_le_of_lt (by simp [bit]) fits
      exact (Nat.pow_lt_pow_iff_right (by omega)).mp less
  · exact fun short => Nat.lt_of_lt_of_le (spelled_lt bits) (Nat.pow_le_pow_right (by omega) short)

end Spelled

section Reading

theorem binaryFrom_eq_some_iff {start n : Nat} {bits : List Char} :
    binaryFrom start bits = some n ↔
      (∀ c ∈ bits, IsBit c) ∧ n = 2 ^ bits.length * start + spelled bits := by
  induction bits generalizing start with
  | nil => simp [binaryFrom, spelled, eq_comm]
  | cons c rest ih =>
    by_cases isBit : IsBit c
    · have next : binaryFrom start (c :: rest) = binaryFrom (2 * start + bit c) rest := by
        rcases isBit with rfl | rfl <;> rfl
      have value : 2 ^ rest.length * (2 * start + bit c) + spelled rest =
          2 ^ (c :: rest).length * start + spelled (c :: rest) := by
        rw [spelled_cons, List.length_cons, Nat.pow_succ]
        ring
      rw [next, ih, value]
      simp [isBit]
    · have refused : binaryFrom start (c :: rest) = none := by
        unfold IsBit at isBit
        unfold binaryFrom
        split <;> simp_all
      simp [refused, isBit]

theorem binary?_eq_some_iff {n : Nat} {bits : List Char} :
    binary? bits = some n ↔ bits ≠ [] ∧ (∀ c ∈ bits, IsBit c) ∧ n = spelled bits := by
  cases bits with
  | nil => simp [binary?]
  | cons c rest =>
    rw [binary?, binaryFrom_eq_some_iff]
    · simp
    · simp

theorem map_binary?_eq_some_iff {f : Nat → Int} {v : Int} {bits : List Char} :
    (binary? bits).map f = some v ↔
      bits ≠ [] ∧ (∀ c ∈ bits, IsBit c) ∧ v = f (spelled bits) := by
  simp only [Option.map_eq_some_iff, binary?_eq_some_iff]
  constructor
  · rintro ⟨n, ⟨some, all, rfl⟩, rfl⟩
    exact ⟨some, all, rfl⟩
  · rintro ⟨some, all, rfl⟩
    exact ⟨_, ⟨some, all, rfl⟩, rfl⟩

/-- What is read behind the zeros in front: bits, or a sign and bits. -/
theorem signedBinary?_eq_some_iff {chars : List Char} {v : Int} : signedBinary? chars = some v ↔
    (chars ≠ [] ∧ (∀ c ∈ chars, IsBit c) ∧ v = spelled chars) ∨
      ∃ (sign : Sign) (bits : List Char), chars = sign.symbol :: bits ∧
        bits ≠ [] ∧ (∀ c ∈ bits, IsBit c) ∧ v = sign.apply (spelled bits) := by
  by_cases signed : ∃ (sign : Sign) (bits : List Char), chars = sign.symbol :: bits
  · obtain ⟨sign, bits, rfl⟩ := signed
    have read : signedBinary? (sign.symbol :: bits) = (binary? bits).map sign.apply := by
      cases read : binary? bits <;> cases sign <;>
        simp [signedBinary?, Sign.symbol, Sign.apply, read]
    have noBit : ¬ IsBit sign.symbol := by cases sign <;> decide
    have unsigned : ¬ ∀ c ∈ sign.symbol :: bits, IsBit c :=
      fun all => noBit (all _ List.mem_cons_self)
    rw [read, map_binary?_eq_some_iff]
    constructor
    · exact fun behind => .inr ⟨sign, bits, rfl, behind⟩
    · rintro (⟨-, all, -⟩ | ⟨other, behind, same, read⟩)
      · exact absurd all unsigned
      · obtain ⟨symbols, rfl⟩ := List.cons.inj same
        have signs : sign = other := by
          cases sign <;> cases other <;> first | rfl | exact absurd symbols (by decide)
        exact signs ▸ read
  · have read : signedBinary? chars = (binary? chars).map Int.ofNat := by
      unfold signedBinary?
      split
      · exact absurd ⟨.plus, _, rfl⟩ signed
      · exact absurd ⟨.minus, _, rfl⟩ signed
      · cases binary? chars <;> rfl
    rw [read, map_binary?_eq_some_iff]
    constructor
    · exact .inl
    · rintro (unsigned | ⟨sign, bits, split, -⟩)
      · exact unsigned
      · exact absurd ⟨sign, bits, split⟩ signed

end Reading

section Trimming

/-- A text without the zeros in front. -/
def trimmed (text : String) : List Char := text.toList.dropWhile (· == '0')

theorem head?_trimmed (text : String) : (trimmed text).head? ≠ some '0' := by
  intro zero
  have stops := List.head?_dropWhile_not (· == '0') text.toList
  rw [trimmed] at zero
  simp [zero] at stops

theorem exists_zeros (text : String) :
    ∃ zeros : Nat, text.toList = List.replicate zeros '0' ++ trimmed text := by
  have all : ∀ c ∈ text.toList.takeWhile (· == '0'), c = '0' :=
    fun c member => by simpa using List.mem_takeWhile_imp member
  refine ⟨(text.toList.takeWhile (· == '0')).length, ?_⟩
  rw [← List.eq_replicate_iff.mpr ⟨rfl, all⟩, trimmed, List.takeWhile_append_dropWhile]

theorem trimmed_of_zeros {text : String} {zeros : Nat} {rest : List Char}
    (split : text.toList = List.replicate zeros '0' ++ rest) (stops : rest.head? ≠ some '0') :
    trimmed text = rest := by
  rw [trimmed, split, List.dropWhile_append_of_pos (by simp)]
  cases rest with
  | nil => rfl
  | cons c rest =>
    have stopped : (c == '0') = false := by simpa using stops
    rw [List.dropWhile_cons, stopped]
    rfl

theorem spells_iff {text : String} {v : Int} : Spells text v ↔
    (∀ c ∈ trimmed text, IsBit c) ∧ (trimmed text).length ≤ 63 ∧ v = spelled (trimmed text) := by
  obtain ⟨zeros, split⟩ := exists_zeros text
  have bits : (∀ c ∈ text.toList, IsBit c) ↔ ∀ c ∈ trimmed text, IsBit c := by
    rw [split, List.forall_mem_append]
    exact and_iff_right fun c zero => .inl (List.eq_of_mem_replicate zero)
  have value : spelled text.toList = spelled (trimmed text) := by rw [split, spelled_zeros]
  constructor
  · rintro ⟨all, fits, rfl⟩
    rw [value] at fits ⊢
    rw [bits] at all
    exact ⟨all, (spelled_lt_iff all (head?_trimmed text)).mp fits, rfl⟩
  · rintro ⟨all, short, rfl⟩
    exact ⟨bits.mpr all, value ▸ (spelled_lt_iff all (head?_trimmed text)).mpr short, by rw [value]⟩

theorem spellsSigned_iff {text : String} {v : Int} : SpellsSigned text v ↔
    ∃ (sign : Sign) (bits : List Char), trimmed text = sign.symbol :: bits ∧
      (∀ c ∈ bits, IsBit c) ∧ (bits ≠ [] ∧ bits.length ≤ 62) ∧ v = sign.apply (spelled bits) := by
  constructor
  · rintro ⟨zeros, sign, bits, split, spelt⟩
    exact ⟨sign, bits, trimmed_of_zeros split (by cases sign <;> simp [Sign.symbol]), spelt⟩
  · rintro ⟨sign, bits, behind, spelt⟩
    obtain ⟨zeros, split⟩ := exists_zeros text
    exact ⟨zeros, sign, bits, behind ▸ split, spelt⟩

end Trimming

theorem asInt?_bits (text : String) : (bits text).asInt? =
    if trimmed text = [] then some 0
    else if (trimmed text).length ≤ 63 then signedBinary? (trimmed text) else none := by
  rw [trimmed]
  cases behind : text.toList.dropWhile (· == '0') with
  | nil => simp [asInt?, behind]
  | cons c rest => simp [asInt?, behind]

/-- A text has an integer value if it is one of bits that fit, or if a sign stands between its
zeros and its bits. -/
theorem asInt?_bits_eq_some_iff (text : String) (v : Int) :
    (bits text).asInt? = some v ↔ Spells text v ∨ SpellsSigned text v := by
  rw [asInt?_bits, spells_iff, spellsSigned_iff]
  split
  · rename_i empty
    rw [empty]
    constructor
    · rintro ⟨⟩
      exact .inl ⟨by simp, by simp, rfl⟩
    · rintro (⟨-, -, rfl⟩ | ⟨sign, bits, behind, -⟩)
      · rfl
      · cases behind
  · rename_i more
    split
    · rename_i short
      rw [signedBinary?_eq_some_iff]
      constructor
      · rintro (⟨-, all, value⟩ | ⟨sign, bits, behind, some, all, value⟩)
        · exact .inl ⟨all, short, value⟩
        · rw [behind, List.length_cons] at short
          exact .inr ⟨sign, bits, behind, all, ⟨some, by omega⟩, value⟩
      · rintro (⟨all, -, value⟩ | ⟨sign, bits, behind, all, ⟨some, -⟩, value⟩)
        · exact .inl ⟨more, all, value⟩
        · exact .inr ⟨sign, bits, behind, some, all, value⟩
    · rename_i long
      constructor
      · rintro ⟨⟩
      · rintro (⟨-, short, -⟩ | ⟨sign, bits, behind, -, ⟨-, short⟩, -⟩)
        · exact absurd short long
        · rw [behind, List.length_cons] at long
          omega

/-- A text of bits spells its number alone, and it has no sign. -/
theorem Spells.not_signed {text : String} {v w : Int} (spells : Spells text v) :
    ¬ SpellsSigned text w := by
  rintro ⟨zeros, sign, bits, split, -⟩
  have signIsBit : IsBit sign.symbol := spells.bits _ (by simp [split])
  cases sign <;> exact absurd signIsBit (by decide)

/-- The texts that have a value are those of bits that fit and those with a sign before their bits.
So a value is just what bits spell exactly for the texts that have no such sign. -/
theorem asInt?_bits_iff_spells_iff_unsigned (text : String) :
    (∀ v : Int, (bits text).asInt? = some v ↔ Spells text v ∨ SpellsSigned text v) ∧
      ((∀ v : Int, (bits text).asInt? = some v ↔ Spells text v) ↔
        ¬ ∃ v : Int, SpellsSigned text v) := by
  refine ⟨asInt?_bits_eq_some_iff text, ?_, ?_⟩
  · rintro same ⟨v, signed⟩
    have valued := (asInt?_bits_eq_some_iff text v).mpr (.inr signed)
    exact ((same v).mp valued).not_signed signed
  · intro unsigned v
    rw [asInt?_bits_eq_some_iff]
    exact or_iff_left fun signed => unsigned ⟨v, signed⟩

/-- A plus sign is taken for part of a bit string. -/
theorem signedBit_has_value :
    (bits "+1").asInt? = some 1 ∧ ¬ ∀ c ∈ "+1".toList, IsBit c := by
  have plus : '+' ∈ "+1".toList := by decide
  exact ⟨by decide, fun all => absurd (all '+' plus) (by decide)⟩

end TileFabric.Property
