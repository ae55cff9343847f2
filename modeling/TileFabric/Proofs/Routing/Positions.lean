import TileFabric.Proofs.NameMap

/-!
# Positions in a growing array

An index holds positions of an array in place of its elements. `Locates` says that a position is
that of the element a search finds, `Picks` that positions are, in order, those of all elements
that pass a test. Both stay true when an element joins the array at its end, if the index takes in
the new position where the element asks for it.
-/

set_option autoImplicit false

namespace TileFabric

theorem forall_mem_push {α : Type} {items : Array α} {new : α} {good : α → Prop} :
    (∀ x ∈ (items.push new).toList, good x) ↔ (∀ x ∈ items.toList, good x) ∧ good new := by
  rw [Array.toList_push, List.forall_mem_append, List.forall_mem_singleton]

namespace Positions

variable {α : Type} {items : Array α} {p : α → Bool}

/-- The position, if there is one, of the element that a search finds. -/
def Locates (items : Array α) (p : α → Bool) (position : Option Nat) : Prop :=
  position.map (items[·]?) = (items.toList.find? p).map some

/-- The positions, in order, of all elements that pass a test. -/
def Picks (items : Array α) (p : α → Bool) (positions : Array Nat) : Prop :=
  positions.toList.map (items[·]?) = (items.toList.filter p).map some

theorem Locates.find {position : Option Nat} (locates : Locates items p position) :
    position.bind (items[·]?) = items.toList.find? p := by
  unfold Locates at locates
  cases position with
  | none =>
    cases found : items.toList.find? p with
    | none => rfl
    | some x => simp [found] at locates
  | some i =>
    cases found : items.toList.find? p with
    | none => simp [found] at locates
    | some x => simpa [found] using locates

theorem Locates.isSome_iff {position : Option Nat} (locates : Locates items p position) :
    position.isSome ↔ ∃ x ∈ items.toList, p x = true := by
  have sides := congrArg Option.isSome locates
  rw [Option.isSome_map, Option.isSome_map] at sides
  rw [sides, List.find?_isSome]

theorem locates_empty (p : α → Bool) : Locates #[] p none := rfl

/-- A further element that fails the test leaves a search where it was. -/
theorem Locates.push {position : Option Nat} (locates : Locates items p position) {x : α}
    (fails : p x = false) : Locates (items.push x) p position := by
  have same : (items.push x).toList.find? p = items.toList.find? p := by
    simp [List.find?_append, fails]
  unfold Locates at locates ⊢
  rw [same, ← locates]
  cases position with
  | none => rfl
  | some i =>
    have inside : i < items.size := by
      cases found : items.toList.find? p with
      | none => simp [found] at locates
      | some y =>
        have there : items[i]? = some y := by simpa [found] using locates
        exact (Array.getElem?_eq_some_iff.mp there).1
    simp [Array.getElem?_push, Nat.ne_of_lt inside]

/-- A further element that passes the test is found if none was before. -/
theorem Locates.push_new {position : Option Nat} (locates : Locates items p position)
    (absent : position = none) {x : α} (passes : p x = true) :
    Locates (items.push x) p (some items.size) := by
  have none_before : items.toList.find? p = none := by
    rw [← locates.find, absent]
    rfl
  unfold Locates
  simp [List.find?_append, none_before, passes]

/-- An index by a key takes in an element whose key is new. -/
theorem Locates.extend {κ : Type} [DecidableEq κ] {key : α → κ} {old new : κ → Option Nat} {x : α}
    (locates : ∀ k, Locates items (key · = k) (old k)) (absent : old (key x) = none)
    (extended : ∀ k, new k = if key x = k then some items.size else old k) (k : κ) :
    Locates (items.push x) (key · = k) (new k) := by
  rw [extended]
  by_cases same : key x = k
  · rw [if_pos same]
    exact (locates k).push_new (same ▸ absent) (by simpa using same)
  · rw [if_neg same]
    exact (locates k).push (by simpa using same)

theorem Picks.filter {positions : Array Nat} (picks : Picks items p positions) :
    positions.toList.filterMap (items[·]?) = items.toList.filter p := by
  have joined := congrArg (List.filterMap id) picks
  rw [List.filterMap_map, List.filterMap_map] at joined
  simpa using joined

theorem Picks.inside {positions : Array Nat} (picks : Picks items p positions) {i : Nat}
    (member : i ∈ positions.toList) : i < items.size := by
  have read : items[i]? ∈ positions.toList.map (items[·]?) := List.mem_map_of_mem member
  rw [picks] at read
  obtain ⟨x, -, there⟩ := List.mem_map.mp read
  exact (Array.getElem?_eq_some_iff.mp there.symm).1

/-- No element passes the test yet. -/
theorem picks_nothing (none_passes : ∀ x ∈ items.toList, p x = false) : Picks items p #[] := by
  have nothing : items.toList.filter p = [] := by
    simpa [List.filter_eq_nil_iff] using none_passes
  simp [Picks, nothing]

/-- Positions read the same behind a further element. -/
private theorem Picks.map_push {positions : Array Nat} (picks : Picks items p positions) (x : α) :
    positions.toList.map ((items.push x)[·]?) = (items.toList.filter p).map some := by
  rw [← picks]
  apply List.map_congr_left
  intro i member
  simp [Array.getElem?_push, Nat.ne_of_lt (picks.inside member)]

theorem Picks.push {positions : Array Nat} (picks : Picks items p positions) {x : α}
    (fails : p x = false) : Picks (items.push x) p positions := by
  unfold Picks
  rw [picks.map_push]
  simp [List.filter_append, fails]

theorem Picks.push_new {positions : Array Nat} (picks : Picks items p positions) {x : α}
    (passes : p x = true) : Picks (items.push x) p (positions.push items.size) := by
  unfold Picks
  rw [Array.toList_push, List.map_append, picks.map_push]
  simp [List.filter_append, passes]

theorem Picks.push_if {positions : Array Nat} (picks : Picks items p positions) {x : α}
    {asks : Prop} [Decidable asks] (passes : p x = true ↔ asks) :
    Picks (items.push x) p (if asks then positions.push items.size else positions) := by
  split
  · rename_i holds
    exact picks.push_new (passes.mpr holds)
  · rename_i fails
    exact picks.push (Bool.eq_false_iff.mpr fun holds => fails (passes.mp holds))

end Positions

end TileFabric
