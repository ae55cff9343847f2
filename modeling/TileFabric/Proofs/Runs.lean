/-!
# Runs with a state and an error

Edits, moves and packing passes all run on a state that a failure leaves behind as it stands. A
sequence of two fails with the first or goes on from the state that the first has left. So what
each part of a program keeps of the state is kept by the whole, however it ends (`Keeps`).
-/

set_option autoImplicit false

namespace TileFabric

variable {ε σ α β : Type}

theorem run_bind_of_ok {first : ExceptT ε (StateM σ) α} {next : α → ExceptT ε (StateM σ) β}
    {s between : σ} {a : α} (done : first.run s = (.ok a, between)) :
    (first >>= next).run s = (next a).run between := by
  rw [ExceptT.run_bind]
  simp [bind, StateT.bind, done]

theorem run_bind_of_error {first : ExceptT ε (StateM σ) α} {next : α → ExceptT ε (StateM σ) β}
    {s after : σ} {e : ε} (failed : first.run s = (.error e, after)) :
    (first >>= next).run s = (.error e, after) := by
  rw [ExceptT.run_bind]
  simp only [bind, StateT.bind, failed]
  rfl

theorem run_liftExcept (result : Except ε α) (s : σ) :
    (liftExcept result : ExceptT ε (StateM σ) α).run s = (result, s) := by
  cases result <;> rfl

theorem run_get_bind (next : σ → ExceptT ε (StateM σ) β) (s : σ) :
    (get >>= next).run s = (next s).run s := by
  have got : (get : ExceptT ε (StateM σ) σ).run s = (.ok s, s) := rfl
  exact run_bind_of_ok got

/-- A sequence that goes well has gone well in both parts. -/
theorem run_bind_ok {first : ExceptT ε (StateM σ) α} {next : α → ExceptT ε (StateM σ) β}
    {s after : σ} {b : β} (done : (first >>= next).run s = (.ok b, after)) :
    ∃ a between, first.run s = (.ok a, between) ∧ (next a).run between = (.ok b, after) := by
  cases outcome : first.run s with
  | mk result between =>
    cases result with
    | error e =>
      rw [run_bind_of_error outcome] at done
      cases done
    | ok a =>
      rw [run_bind_of_ok outcome] at done
      exact ⟨a, between, rfl, done⟩

/-- A sequence that fails has failed in its first part or, behind it, in its second. -/
theorem run_bind_error {first : ExceptT ε (StateM σ) α} {next : α → ExceptT ε (StateM σ) β}
    {s after : σ} {e : ε} (failed : (first >>= next).run s = (.error e, after)) :
    first.run s = (.error e, after) ∨
      ∃ a between, first.run s = (.ok a, between) ∧ (next a).run between = (.error e, after) := by
  cases outcome : first.run s with
  | mk result between =>
    cases result with
    | error reason =>
      rw [run_bind_of_error outcome] at failed
      cases failed
      exact .inl rfl
    | ok a =>
      rw [run_bind_of_ok outcome] at failed
      exact .inr ⟨a, between, rfl, failed⟩

theorem run_tryCatch_of_ok {body : ExceptT ε (StateM σ) α} {handle : ε → ExceptT ε (StateM σ) α}
    {s after : σ} {a : α} (done : body.run s = (.ok a, after)) :
    (tryCatch body handle).run s = (.ok a, after) := by
  rw [ExceptT.run_tryCatch]
  simp only [bind, StateT.bind, done]
  rfl

theorem run_tryCatch_of_error {body : ExceptT ε (StateM σ) α}
    {handle : ε → ExceptT ε (StateM σ) α} {s after : σ} {e : ε}
    (failed : body.run s = (.error e, after)) :
    (tryCatch body handle).run s = (handle e).run after := by
  rw [ExceptT.run_tryCatch]
  simp [bind, StateT.bind, failed]

theorem run_forM_modify {ι : Type} (change : ι → σ → σ) (items : List ι) (s : σ) :
    (items.forM fun item => (modify (change item) : ExceptT ε (StateM σ) PUnit)).run s =
      (.ok (), items.foldl (fun s item => change item s) s) := by
  induction items generalizing s with
  | nil => rfl
  | cons item rest ih => exact (run_bind_of_ok rfl).trans (ih _)

/-- What holds of the state before a program holds of the one that it leaves, however it ends. -/
def Keeps (holds : σ → Prop) (program : ExceptT ε (StateM σ) α) : Prop :=
  ∀ s, holds s → holds (program.run s).2

namespace Keeps

variable {holds : σ → Prop} {program : ExceptT ε (StateM σ) α} {next : α → ExceptT ε (StateM σ) β}

theorem pure (a : α) : Keeps holds (Pure.pure a : ExceptT ε (StateM σ) α) := fun _ held => held

theorem throw (e : ε) : Keeps holds (MonadExcept.throw e : ExceptT ε (StateM σ) α) :=
  fun _ held => held

theorem lift (result : Except ε α) :
    Keeps holds (liftExcept result : ExceptT ε (StateM σ) α) := by
  intro s held
  rwa [run_liftExcept]

theorem get : Keeps holds (MonadState.get : ExceptT ε (StateM σ) σ) := fun _ held => held

theorem update {change : σ → σ} (step : ∀ s, holds s → holds (change s)) :
    Keeps holds (modify change : ExceptT ε (StateM σ) PUnit) := step

theorem bind (first : Keeps holds program) (rest : ∀ a, Keeps holds (next a)) :
    Keeps holds (program >>= next) := by
  intro s held
  have kept := first s held
  cases outcome : program.run s with
  | mk result between =>
    rw [outcome] at kept
    cases result with
    | error e => rwa [run_bind_of_error outcome]
    | ok a =>
      rw [run_bind_of_ok outcome]
      exact rest a between kept

theorem tryCatch {handle : ε → ExceptT ε (StateM σ) α} (body : Keeps holds program)
    (handled : ∀ e, Keeps holds (handle e)) : Keeps holds (MonadExcept.tryCatch program handle) := by
  intro s held
  have kept := body s held
  cases outcome : program.run s with
  | mk result between =>
    rw [outcome] at kept
    cases result with
    | error e =>
      rw [run_tryCatch_of_error outcome]
      exact handled e between kept
    | ok a => rwa [run_tryCatch_of_ok outcome]

theorem forM {ι : Type} {items : List ι} {body : ι → ExceptT ε (StateM σ) PUnit}
    (each : ∀ item ∈ items, Keeps holds (body item)) : Keeps holds (items.forM body) := by
  induction items with
  | nil => exact fun _ held => held
  | cons item rest ih =>
    exact (each item List.mem_cons_self).bind fun _ =>
      ih fun other member => each other (List.mem_cons_of_mem _ member)

end Keeps

end TileFabric
