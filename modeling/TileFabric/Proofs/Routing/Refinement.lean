import Mathlib.Tactic.SplitIfs
import TileFabric.Proofs.Routing.Indexes
import TileFabric.Proofs.Runs
import TileFabric.Proofs.Symbol

/-!
# Recorders answer like ledgers

Put to a recorder one after the other, requests are taken in or refused as a scan of its
declarations says, and every question is answered as a scan would answer it: `refines_ledger`.
One request keeps the indices right, whatever becomes of it, and so does a sequence.
-/

set_option autoImplicit false

namespace TileFabric

namespace Declare

theorem run_accept (error? : Recorder → Option RoutingError) (push : Recorder → Recorder)
    (r : Recorder) : (accept error? push).run r =
      match error? r with
      | some e => (.error e, r)
      | none => (.ok (), push r) := by
  unfold accept
  rw [run_get_bind]
  cases error? r <;> rfl

theorem run_symbol (text : String) (r : Recorder) : (symbol text).run r =
    (.ok (r.symbols.intern text).1, { r with symbols := (r.symbols.intern text).2 }) := rfl

end Declare

namespace Recorder

/-- A recorder does with a request what its ledger does, and its indices stay right. -/
structure Follows (r : Recorder) (request : Request) : Prop where
  result : (request.submit.run r).1 = (r.ledger.submit request).1
  ledger : (request.submit.run r).2.ledger = (r.ledger.submit request).2
  indexed : (request.submit.run r).2.Indexed
  unchanged : ∀ e, (r.ledger.submit request).1 = .error e → (request.submit.run r).2 = r

variable {r : Recorder}

/-- A declaration is followed if it is taken in where a scan finds nothing against it. -/
theorem Indexed.follows_of_accept (indexed : r.Indexed) {request : Request}
    {error? : Recorder → Option RoutingError} {push : Recorder → Recorder}
    (accepts : request.submit = do Declare.accept error? push; pure none)
    (answers : r.ledger.answer request = none)
    (scans : error? r = r.ledger.error? request)
    (writes : (push r).ledger = r.ledger.write request)
    (keeps : r.ledger.error? request = none → (push r).Indexed) : r.Follows request := by
  have ran := Declare.run_accept error? push r
  rw [scans] at ran
  cases found : r.ledger.error? request with
  | some e =>
    rw [found] at ran
    have run : request.submit.run r = (.error e, r) := by
      rw [accepts, run_bind_of_error ran]
    have scan : r.ledger.submit request = (.error e, r.ledger) := by simp [Ledger.submit, found]
    constructor <;> rw [run]
    · rw [scan]
    · rw [scan]
    · exact indexed
    · exact fun _ _ => rfl
  | none =>
    rw [found] at ran
    have run : request.submit.run r = (.ok none, push r) := by
      rw [accepts, run_bind_of_ok ran]
      rfl
    have scan : r.ledger.submit request = (.ok none, r.ledger.write request) := by
      simp [Ledger.submit, found, answers]
    constructor <;> rw [run]
    · rw [scan]
    · rw [scan]
      exact writes
    · exact keeps found
    · intro e refused
      rw [scan] at refused
      cases refused

theorem Indexed.follows (indexed : r.Indexed) (request : Request) : r.Follows request := by
  cases request with
  | symbol text =>
    exact ⟨rfl, rfl, indexed.withSymbols _, fun e refused => by cases refused⟩
  | wire w =>
    refine indexed.follows_of_accept rfl rfl (indexed.wireError?_eq w) ?_ fun passes => ?_
    · simp [ledger, pushWire, Ledger.write]
    · apply indexed_pushWire indexed
      intro taken
      simp [Ledger.error?, taken] at passes
  | pip p =>
    refine indexed.follows_of_accept rfl rfl (indexed.pipError?_eq p) ?_ fun passes => ?_
    · simp [ledger, pushPip, extendTo, Ledger.write]
    · simp only [Ledger.error?] at passes
      split_ifs at passes with taken source target
      exact indexed_pushPip indexed taken source target
  | bel b =>
    refine indexed.follows_of_accept rfl rfl (indexed.belError?_eq b) ?_ fun passes => ?_
    · simp [ledger, pushBel, extendTo, Ledger.write]
    · simp only [Ledger.error?] at passes
      split_ifs at passes with taken occupied
      exact indexed_pushBel indexed taken occupied
  | belPin p =>
    refine indexed.follows_of_accept rfl rfl (indexed.belPinError?_eq p) ?_ fun passes => ?_
    · simp [ledger, pushBelPin, Ledger.write]
    · simp only [Ledger.error?] at passes
      split_ifs at passes with bel wire taken
      exact indexed_pushBelPin indexed bel wire

theorem Indexed.after (indexed : r.Indexed) (requests : List Request) :
    (r.after requests).Indexed ∧ (r.after requests).ledger = r.ledger.after requests := by
  induction requests generalizing r with
  | nil => exact ⟨indexed, rfl⟩
  | cons request rest ih =>
    have step := indexed.follows request
    obtain ⟨keeps, ledger⟩ := ih step.indexed
    refine ⟨keeps, ?_⟩
    rw [step.ledger] at ledger
    exact ledger

/-- A recorder answers every question about its graph as a scan of a ledger does. -/
structure AnswersLike (r : Recorder) (l : Ledger) : Prop where
  wires : r.wires.toList = l.wires
  pips : r.pips.toList = l.pips
  bels : r.bels.toList = l.bels
  belPins : r.belPins.toList = l.belPins
  wireAt : ∀ name : Symbol, r.wireAt? name = l.wireAt? name
  pipAt : ∀ name : Symbol, r.pipAt? name = l.pipAt? name
  belAt : ∀ name : Symbol, r.belAt? name = l.belAt? name
  wire : ∀ name : String, r.wire? name = l.wire? name
  pip : ∀ name : String, r.pip? name = l.pip? name
  bel : ∀ name : String, r.bel? name = l.bel? name
  belAtLoc : ∀ loc : Loc, r.belAtLoc? loc = l.belAtLoc? loc
  downhill : ∀ wire : Symbol, r.downhill wire = l.downhill wire
  uphill : ∀ wire : Symbol, r.uphill wire = l.uphill wire
  pinsOn : ∀ wire : Symbol, r.pinsOn wire = l.pinsOn wire
  dimensions : (r.columns.toNat, r.rows.toNat) = l.dimensions

end Recorder

namespace SymbolTable

/-- Looking up a text among symbols is looking up its symbol. -/
theorem bind_find? {α : Type} (table : SymbolTable) (name : String) (symbol : α → Symbol)
    (items : List α) :
    ((table.find? name).bind fun s => items.find? (symbol · = s)) =
      items.find? (fun x => table.text? (symbol x) = some name) := by
  cases known : table.find? name with
  | none =>
    symm
    rw [Option.bind_none, List.find?_eq_none]
    intro x _ named
    have found := (table.find?_eq_some_iff name (symbol x)).mpr (of_decide_eq_true named)
    rw [known] at found
    cases found
  | some s =>
    rw [Option.bind_some]
    congr 1
    funext x
    rw [decide_eq_decide, ← find?_eq_some_iff, known, Option.some.injEq, eq_comm]

end SymbolTable

namespace Recorder

variable {r : Recorder}

theorem Indexed.answersLike (indexed : r.Indexed) : r.AnswersLike r.ledger where
  wires := rfl
  pips := rfl
  bels := rfl
  belPins := rfl
  wireAt := indexed.wireAt?_eq
  pipAt := indexed.pipAt?_eq
  belAt := indexed.belAt?_eq
  wire name := by
    rw [wire?, funext indexed.wireAt?_eq]
    exact r.symbols.bind_find? name (·.name) r.ledger.wires
  pip name := by
    rw [pip?, funext indexed.pipAt?_eq]
    exact r.symbols.bind_find? name (·.name) r.ledger.pips
  bel name := by
    rw [bel?, funext indexed.belAt?_eq]
    exact r.symbols.bind_find? name (·.name) r.ledger.bels
  belAtLoc := indexed.belAtLoc?_eq
  downhill wire := (indexed.touching_eq wire).1
  uphill wire := (indexed.touching_eq wire).2.1
  pinsOn wire := (indexed.touching_eq wire).2.2
  dimensions := indexed.extents

/-- Behind any sequence of requests a recorder takes in what its ledger has room for, keeps as it
is when it refuses a request, and answers every question by what a scan of its declarations finds. -/
theorem refines_ledger (requests : List Request) :
    let r := empty.after requests
    let l := Ledger.empty.after requests
    (∀ request : Request, (request.submit.run r).1 = (l.submit request).1 ∧
      ∀ e, (l.submit request).1 = .error e → (request.submit.run r).2 = r) ∧
      r.AnswersLike l := by
  intro r l
  obtain ⟨indexed, ledger⟩ := indexed_empty.after requests
  have same : r.ledger = l := ledger
  rw [← same]
  refine ⟨fun request => ?_, indexed.answersLike⟩
  have step := indexed.follows request
  exact ⟨step.result, step.unchanged⟩

end Recorder

end TileFabric
