import Mathlib.Data.List.Forall2
import TileFabric.Proofs.Routing.Refinement

/-!
# Programs that only intern

Before anything of a box is declared, its pips are planned, and a plan takes no more from a
recorder than symbols for the texts in it. `Interns` says so of a program, wherever it starts: it
succeeds, and of the recorder nothing changes but the table, which keeps what it has.
-/

set_option autoImplicit false

namespace TileFabric

section Pairs

variable {α β γ : Type} {related : α → β → Prop} {as : List α} {bs : List β}

theorem exists_of_forall₂ (each : List.Forall₂ related as bs) {b : β} (member : b ∈ bs) :
    ∃ a ∈ as, related a b := by
  induction each with
  | nil => cases member
  | @cons a b' _ _ head _ ih =>
    rcases List.mem_cons.mp member with rfl | member
    · exact ⟨a, List.mem_cons_self, head⟩
    · obtain ⟨a', there, holds⟩ := ih member
      exact ⟨a', List.mem_cons_of_mem a there, holds⟩

theorem map_eq_of_forall₂ {f : α → γ} {g : β → γ}
    (each : List.Forall₂ (fun a b => g b = f a) as bs) : bs.map g = as.map f := by
  induction each with
  | nil => rfl
  | cons head _ ih => rw [List.map_cons, List.map_cons, head, ih]

/-- Entries that are made one for each key can be looked up. -/
theorem lookup_of_forall₂ [DecidableEq α] (related : α → β → Prop) {entries : List (α × β)}
    (each : List.Forall₂ (fun a e => e.1 = a ∧ related a e.2) as entries) {a : α}
    (member : a ∈ as) : ∃ b, entries.lookup a = some b ∧ related a b := by
  induction each with
  | nil => cases member
  | @cons first entry _ _ head _ ih =>
    obtain ⟨found, value⟩ := entry
    obtain ⟨rfl, holds⟩ := head
    by_cases same : a = found
    · subst same
      exact ⟨value, by simp, holds⟩
    · obtain ⟨b, there, holds⟩ := ih ((List.mem_cons.mp member).resolve_left same)
      exact ⟨b, by rwa [List.lookup_cons, beq_false_of_ne same], holds⟩

end Pairs

variable {α β ι : Type}

/-- From every recorder that reads the symbols of a table as it does, a program interns some texts
and has a result of some kind. -/
def Interns (base : SymbolTable) (program : Declare α) (result : α → SymbolTable → Prop) : Prop :=
  ∀ r : Recorder, base.Within r.symbols → ∃ a table,
    program.run r = (.ok a, { r with symbols := table }) ∧ r.symbols.Within table ∧ result a table

namespace Interns

variable {base : SymbolTable} {program : Declare α} {next : α → Declare β}
  {result : α → SymbolTable → Prop} {outcome : β → SymbolTable → Prop}

theorem pure {a : α} (holds : ∀ table, base.Within table → result a table) :
    Interns base (Pure.pure a) result := by
  intro r within
  exact ⟨a, r.symbols, rfl, .refl _, holds r.symbols within⟩

theorem bind (first : Interns base program result)
    (second : ∀ a table, base.Within table → result a table → Interns table (next a) outcome) :
    Interns base (program >>= next) outcome := by
  intro r within
  obtain ⟨a, between, ran, keeps, holds⟩ := first r within
  obtain ⟨b, table, done, keeps', holds'⟩ :=
    second a between (within.trans keeps) holds { r with symbols := between } (.refl _)
  exact ⟨b, table, (run_bind_of_ok ran).trans done, keeps.trans keeps', holds'⟩

/-- A program may go on to compute a value from its result. -/
theorem map {value : α → β} (interns : Interns base program result)
    (holds : ∀ a table, base.Within table → result a table → outcome (value a) table) :
    Interns base (program >>= fun a => Pure.pure (value a)) outcome := by
  intro r within
  obtain ⟨a, table, ran, keeps, held⟩ := interns r within
  exact ⟨value a, table, run_bind_of_ok ran, keeps, holds a table (within.trans keeps) held⟩

theorem imp {weaker : α → SymbolTable → Prop} (interns : Interns base program result)
    (implies : ∀ a table, base.Within table → result a table → weaker a table) :
    Interns base program weaker := by
  intro r within
  obtain ⟨a, table, ran, keeps, held⟩ := interns r within
  exact ⟨a, table, ran, keeps, implies a table (within.trans keeps) held⟩

theorem symbol (text : String) :
    Interns base (Declare.symbol text) fun s table => table.text? s = some text := by
  intro r _
  exact ⟨_, _, Declare.run_symbol text r, r.symbols.within_intern text,
    r.symbols.text?_intern text⟩

theorem mapM {items : List ι} {intern : ι → Declare α} (related : ι → α → SymbolTable → Prop)
    (persists : ∀ {i : ι} {a : α} {table later : SymbolTable}, table.Within later →
      related i a table → related i a later)
    (each : ∀ i ∈ items, ∀ table, base.Within table → Interns table (intern i) (related i)) :
    Interns base (items.mapM intern) fun values table =>
      List.Forall₂ (fun i a => related i a table) items values := by
  induction items generalizing base with
  | nil => exact pure fun _ _ => .nil
  | cons i rest ih =>
    rw [List.mapM_cons]
    refine (each i List.mem_cons_self base (.refl base)).bind fun a table within holds => ?_
    refine (ih fun j member later grown =>
      each j (List.mem_cons_of_mem i member) later (within.trans grown)).map ?_
    exact fun values later grown others => .cons (persists grown holds) others

end Interns

end TileFabric
