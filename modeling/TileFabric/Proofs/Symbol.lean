import TileFabric.Symbol

/-!
# Symbols of a growing table

A table never forgets: `Within` says that a later table reads every symbol as the earlier one did.
Interning a text that the table knows changes nothing, and any other text joins it behind the
symbols that are there.
-/

set_option autoImplicit false

namespace TileFabric

namespace SymbolTable

theorem find?_eq_some_iff (table : SymbolTable) (text : String) (s : Symbol) :
    table.find? text = some s ↔ table.text? s = some text := by
  rw [find?, text?, Option.map_eq_some_iff, ← table.agree]
  constructor
  · rintro ⟨i, there, rfl⟩
    exact there
  · exact fun there => ⟨s.index, there, rfl⟩

/-- A text has one symbol. -/
theorem eq_of_text? {table : SymbolTable} {s t : Symbol} {text : String}
    (left : table.text? s = some text) (right : table.text? t = some text) : s = t := by
  rw [← find?_eq_some_iff] at left right
  exact Option.some.inj (left.symm.trans right)

theorem text_of_text? {table : SymbolTable} {s : Symbol} {text : String}
    (there : table.text? s = some text) : table.text s = text := by
  simp [SymbolTable.text, there]

/-- Every symbol of a table reads the same in a later one. -/
structure Within (table later : SymbolTable) : Prop where
  reads : ∀ {s : Symbol} {text : String}, table.text? s = some text → later.text? s = some text

theorem Within.refl (table : SymbolTable) : table.Within table := ⟨id⟩

theorem Within.trans {first second third : SymbolTable} (one : first.Within second)
    (two : second.Within third) : first.Within third := ⟨fun there => two.reads (one.reads there)⟩

theorem intern_of_text? {table : SymbolTable} {s : Symbol} {text : String}
    (there : table.text? s = some text) : table.intern text = (s, table) := by
  have position : table.positions[text]? = some s.index := (table.agree text s.index).mpr there
  unfold intern
  split
  · rename_i i found
    rw [position] at found
    cases found
    rfl
  · rename_i absent
    exact absurd (position.symm.trans absent) (by simp)

theorem within_intern (table : SymbolTable) (text : String) :
    table.Within (table.intern text).2 := by
  refine ⟨fun {s other} there => ?_⟩
  unfold intern
  split
  · exact there
  · have inside : s.index < table.texts.size := (Array.getElem?_eq_some_iff.mp there).1
    change (table.texts.push text)[s.index]? = some other
    rw [Array.getElem?_push_lt inside]
    exact (Array.getElem?_eq_getElem inside).symm.trans there

theorem text?_intern (table : SymbolTable) (text : String) :
    (table.intern text).2.text? (table.intern text).1 = some text := by
  unfold intern
  split
  · rename_i i found
    exact (table.agree text i).mp found
  · change (table.texts.push text)[table.texts.size]? = some text
    simp

end SymbolTable

end TileFabric
