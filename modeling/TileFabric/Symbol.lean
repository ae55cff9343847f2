import TileFabric.NameMap

/-!
# Symbols

Names of wires, pips, bels, pins and type tags are interned: a `SymbolTable` numbers its texts
from zero in the order in which they first came in, and a `Symbol` is such a number. The table
carries the proof that its two directions agree, so equal symbols have equal texts and back.

The keys of an interner are 32 bits wide and run out after `2 ^ 32` texts. That is left out: the
number of a symbol has no bound, and interning always succeeds. Whatever is said to succeed in
declaring something is said of runs that have keys enough.
-/

set_option autoImplicit false

namespace TileFabric

structure Symbol where
  index : Nat
  deriving DecidableEq, Repr, Inhabited

namespace Symbol

instance : Ord Symbol := ⟨compareOn Symbol.index⟩

instance : Std.TransOrd Symbol := inferInstanceAs (Std.TransCmp (compareOn Symbol.index))

instance : Std.LawfulEqOrd Symbol where
  eq_of_compare {a b} h := by
    have same : a.index = b.index := Std.LawfulEqOrd.eq_of_compare h
    cases a
    cases b
    simpa using same

end Symbol

abbrev SymbolMap (α : Type) := Std.ExtTreeMap Symbol α

structure SymbolTable where
  texts : Array String
  positions : NameMap Nat
  agree : ∀ (text : String) (i : Nat), positions[text]? = some i ↔ texts[i]? = some text

namespace SymbolTable

def empty : SymbolTable := ⟨#[], ∅, by simp⟩

instance : Inhabited SymbolTable := ⟨empty⟩

/-- The number of distinct texts. -/
def size (table : SymbolTable) : Nat := table.texts.size

/-- The symbol of a text that is already in the table. -/
def find? (table : SymbolTable) (text : String) : Option Symbol :=
  table.positions[text]?.map Symbol.mk

/-- The text of a symbol of this table. -/
def text? (table : SymbolTable) (s : Symbol) : Option String := table.texts[s.index]?

/-- The text of a symbol; a symbol from elsewhere reads as empty. -/
def text (table : SymbolTable) (s : Symbol) : String := (table.text? s).getD ""

private theorem agree_push {texts : Array String} {positions : NameMap Nat}
    (agree : ∀ (text : String) (i : Nat), positions[text]? = some i ↔ texts[i]? = some text)
    {fresh : String} (absent : positions[fresh]? = none) (text : String) (i : Nat) :
    (positions.insert fresh texts.size)[text]? = some i ↔ (texts.push fresh)[i]? = some text := by
  have unlisted : texts[i]? ≠ some fresh := fun listed => by
    simp [(agree fresh i).2 listed] at absent
  have inside : texts[i]? = some text → i < texts.size := fun listed =>
    (Array.getElem?_eq_some_iff.1 listed).1
  rw [Std.ExtTreeMap.getElem?_insert, Array.getElem?_push]
  by_cases same : fresh = text
  · subst same
    by_cases last : i = texts.size <;> simp_all [eq_comm]
  · have apart : compare fresh text ≠ .eq := by simpa using same
    by_cases last : i = texts.size
    · subst last
      simp [apart, same, agree]
    · simp [apart, last, agree]

/-- The symbol of a text, which joins the table at its end if it is new. -/
def intern (table : SymbolTable) (text : String) : Symbol × SymbolTable :=
  match absent : table.positions[text]? with
  | some i => (⟨i⟩, table)
  | none =>
    (⟨table.texts.size⟩,
      { texts := table.texts.push text
        positions := table.positions.insert text table.texts.size
        agree := agree_push table.agree absent })

end SymbolTable

end TileFabric
