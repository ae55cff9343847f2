import TileFabric.Proofs.Routing.Blueprint
import TileFabric.Proofs.Routing.BoxPlan

/-!
# Declaring a box on a recorder

A box is planned first and then declared pip by pip, so that a box that does not fit together
leaves no trace and a pip that is refused leaves those in front of it. Pips of different names do
not stand in each other's way: a pip changes no wire and takes one name. What stands against the
pips of a box can therefore all be read off the recorder that the plan was made on, and since every
wire of the box is the source of some pip, that is a missing wire or a name that is taken.
-/

set_option autoImplicit false

namespace TileFabric

/-- The symbols of a request are those of a table. -/
def Request.Known (table : SymbolTable) : Request → Prop
  | .symbol _ => True
  | .wire w => w.Known table
  | .pip p => p.Known table
  | .bel b => b.Known table
  | .belPin p => p.Known table

namespace Ledger

/-- The symbols of the declarations are in the table. -/
structure Closed (l : Ledger) : Prop where
  wires : ∀ w ∈ l.wires, w.Known l.symbols
  pips : ∀ p ∈ l.pips, p.Known l.symbols
  bels : ∀ b ∈ l.bels, b.Known l.symbols
  belPins : ∀ p ∈ l.belPins, p.Known l.symbols

theorem Closed.write {l : Ledger} (closed : l.Closed) {request : Request}
    (known : request.Known l.symbols) : (l.write request).Closed := by
  have more {α : Type} {p : α → Prop} {old : List α} {new : α} (holds : ∀ x ∈ old, p x)
      (last : p new) : ∀ x ∈ old ++ [new], p x := by
    simpa [or_imp, forall_and] using ⟨holds, last⟩
  cases request with
  | symbol text =>
    have within := l.symbols.within_intern text
    exact
      { wires := fun w member => ((closed.wires w member).within within).1
        pips := fun p member => ((closed.pips p member).within within).1
        bels := fun b member => ((closed.bels b member).within within).1
        belPins := fun p member => ((closed.belPins p member).within within).1 }
  | wire w => exact { closed with wires := more closed.wires known }
  | pip p => exact { closed with pips := more closed.pips known }
  | bel b => exact { closed with bels := more closed.bels known }
  | belPin p => exact { closed with belPins := more closed.belPins known }

theorem Closed.submit {l : Ledger} (closed : l.Closed) {request : Request}
    (known : request.Known l.symbols) : (l.submit request).2.Closed := by
  unfold Ledger.submit
  split
  · exact closed
  · exact closed.write known

end Ledger

namespace Recorder

/-- A recorder that requests lead to, each of them with symbols of the recorder it is put to. -/
inductive Reached : Recorder → Prop
  | empty : Reached .empty
  | submit {r : Recorder} {request : Request} (reached : Reached r)
      (known : request.Known r.symbols) : Reached (request.submit.run r).2

variable {r : Recorder}

theorem Indexed.sound (indexed : r.Indexed) (closed : r.ledger.Closed) : r.Sound :=
  { indexed with
    knownWires := closed.wires
    knownPips := closed.pips
    knownBels := closed.bels
    knownPins := closed.belPins }

theorem Sound.closed (sound : r.Sound) : r.ledger.Closed where
  wires := sound.knownWires
  pips := sound.knownPips
  bels := sound.knownBels
  belPins := sound.knownPins

theorem Sound.submit (sound : r.Sound) {request : Request} (known : request.Known r.symbols) :
    (request.submit.run r).2.Sound := by
  have step := sound.toIndexed.follows request
  apply step.indexed.sound
  rw [step.ledger]
  exact sound.closed.submit known

theorem Reached.sound (reached : Reached r) : r.Sound := by
  induction reached with
  | empty => exact sound_empty
  | submit _ known ih => exact ih.submit known

/-- The recorder with more pips, whatever stands against them. -/
def withPips (pips : List Pip) (r : Recorder) : Recorder := pips.foldl (fun r p => r.pushPip p) r

theorem withPips_cons (p : Pip) (pips : List Pip) (r : Recorder) :
    r.withPips (p :: pips) = (r.pushPip p).withPips pips := rfl

theorem ledger_withPips (pips : List Pip) (r : Recorder) :
    (r.withPips pips).ledger = { r.ledger with pips := r.ledger.pips ++ pips } := by
  induction pips generalizing r with
  | nil => simp [withPips]
  | cons p rest ih =>
    rw [withPips_cons, ih]
    simp [ledger, pushPip, extendTo]

theorem pipError?_pushPip {p q : Pip} (apart : q.name ≠ p.name) (r : Recorder) :
    (r.pushPip q).pipError? p = r.pipError? p := by
  have names : (r.pushPip q).pipIndex.contains p.name = r.pipIndex.contains p.name := by
    rw [Std.ExtTreeMap.contains_eq_isSome_getElem?, Std.ExtTreeMap.contains_eq_isSome_getElem?]
    refine congrArg Option.isSome ((lookup_insert_key ..).trans (if_neg apart))
  have wires (name : Symbol) :
      (r.pushPip q).wireIndex.contains name = r.wireIndex.contains name := by
    rw [Std.ExtTreeMap.contains_eq_isSome_getElem?, Std.ExtTreeMap.contains_eq_isSome_getElem?,
      lookup_wireIndex_pushPip, Option.isSome_map]
  unfold pipError?
  rw [names, wires, wires]
  rfl

theorem ne_of_mem_rest {p q : Pip} {rest : List Pip} (unlisted : p.name ∉ rest.map (·.name))
    (member : q ∈ rest) : p.name ≠ q.name := fun isName =>
  unlisted (isName ▸ List.mem_map_of_mem (f := (·.name)) member)

/-- What ends a row of pips with different names, and where: all of them are taken in, or those in
front of the first against which something stands. -/
theorem run_pips {pips : List Pip} (distinct : (pips.map (·.name)).Nodup) (r : Recorder) :
    ((∀ p ∈ pips, r.pipError? p = none) ∧
        (pips.forM Declare.pip).run r = (.ok (), r.withPips pips)) ∨
      ∃ before p rest e, pips = before ++ p :: rest ∧ (∀ q ∈ before, r.pipError? q = none) ∧
        r.pipError? p = some e ∧ (r.withPips before).pipError? p = some e ∧
        (before.forM Declare.pip).run r = (.ok (), r.withPips before) ∧
        (pips.forM Declare.pip).run r = (.error e, r.withPips before) := by
  induction pips generalizing r with
  | nil => exact .inl ⟨by simp, rfl⟩
  | cons p rest ih =>
    obtain ⟨unlisted, distinct⟩ := List.nodup_cons.mp distinct
    have same {q : Pip} (member : q ∈ rest) : (r.pushPip p).pipError? q = r.pipError? q :=
      pipError?_pushPip (ne_of_mem_rest unlisted member) r
    have first := Declare.run_accept (fun r => r.pipError? p) (pushPip p) r
    cases against : r.pipError? p with
    | some e =>
      rw [against] at first
      exact .inr ⟨[], p, rest, e, rfl, by simp, against, against, rfl, run_bind_of_error first⟩
    | none =>
      rw [against] at first
      have later (others : List Pip) : ((p :: others).forM Declare.pip).run r =
          (others.forM Declare.pip).run (r.pushPip p) := run_bind_of_ok first
      rcases ih distinct (r.pushPip p) with ⟨admitted, run⟩ |
        ⟨before, q, behind, e, rfl, admitted, refused, refusedThere, ran, run⟩
      · refine .inl ⟨List.forall_mem_cons.mpr ⟨against, fun q member => ?_⟩, ?_⟩
        · exact (same member).symm.trans (admitted q member)
        · rw [later, run, withPips_cons]
      · refine .inr ⟨p :: before, q, behind, e, rfl, ?_, ?_, refusedThere, ?_, ?_⟩
        · refine List.forall_mem_cons.mpr ⟨against, fun other member => ?_⟩
          exact (same (List.mem_append_left _ member)).symm.trans (admitted other member)
        · exact (same (by simp)).symm.trans refused
        · rw [later, ran, withPips_cons]
        · rw [later, run, withPips_cons]

theorem Sound.pushPip (sound : r.Sound) {p : Pip} (admitted : r.pipError? p = none)
    (known : p.Known r.symbols) : (r.pushPip p).Sound := by
  have run : ((Request.pip p).submit.run r).2 = r.pushPip p := by
    have ran := Declare.run_accept (fun r => r.pipError? p) (Recorder.pushPip p) r
    rw [admitted] at ran
    exact congrArg Prod.snd (run_bind_of_ok ran)
  rw [← run]
  exact sound.submit known

theorem Sound.withPips {pips : List Pip} (sound : r.Sound) (distinct : (pips.map (·.name)).Nodup)
    (admitted : ∀ p ∈ pips, r.pipError? p = none) (known : ∀ p ∈ pips, p.Known r.symbols) :
    (r.withPips pips).Sound := by
  induction pips generalizing r with
  | nil => exact sound
  | cons p rest ih =>
    obtain ⟨unlisted, distinct⟩ := List.nodup_cons.mp distinct
    obtain ⟨first, others⟩ := List.forall_mem_cons.mp admitted
    obtain ⟨knownFirst, knownOthers⟩ := List.forall_mem_cons.mp known
    refine ih (sound.pushPip first knownFirst) distinct (fun q member => ?_) knownOthers
    rw [pipError?_pushPip (ne_of_mem_rest unlisted member)]
    exact others q member

/-- Nothing stands against a pip if its name is free and its wires are declared. -/
theorem Indexed.pipError?_eq_none_iff (indexed : r.Indexed) (p : Pip) : r.pipError? p = none ↔
    (¬ ∃ q ∈ r.ledger.pips, q.name = p.name) ∧ r.ledger.HasWire p.source ∧
      r.ledger.HasWire p.target := by
  rw [indexed.pipError?_eq, Ledger.error?]
  split_ifs with taken source target <;> simp_all

/-- A name is free in a later table if the recorder finds no pip of that name. -/
theorem Sound.pip?_eq_none_iff (sound : r.Sound) {table : SymbolTable}
    (within : r.symbols.Within table) {s : Symbol} {name : String}
    (named : table.text? s = some name) :
    r.pip? name = none ↔ ¬ ∃ q ∈ r.ledger.pips, q.name = s := by
  rw [sound.answersLike.pip, Ledger.pip?, List.find?_eq_none, not_exists]
  refine forall_congr' fun q => ?_
  rw [not_and, decide_eq_true_iff]
  refine forall_congr' fun member => not_congr ⟨fun read => ?_, ?_⟩
  · exact SymbolTable.eq_of_text? (within.reads read) named
  · rintro rfl
    have known : r.symbols.text? q.name = some (r.symbols.text q.name) :=
      (sound.knownPips q member).1.1
    exact known.trans ((within.reads known).symm.trans named)

end Recorder

namespace SwitchBox

open Recorder

variable {box : SwitchBox} {n : Nat} {e : RoutingError}

/-- Four sides with as many wires each, in the shape that has a pattern of pips. -/
def Fits (box : SwitchBox) : Prop :=
  box.shape = .square ∧ ∃ n, ∀ side : Side, (box.side side).length = n

theorem tracks_eq_ok_iff : box.tracks = .ok n ↔
    box.shape = .square ∧ ∀ side : Side, (box.side side).length = n := by
  refine ⟨fun fits => ?_, fun ⟨square, sides⟩ => tracks_eq_ok square sides⟩
  simp only [tracks] at fits
  split at fits
  · rename_i square
    split at fits
    · rename_i even
      cases fits
      refine ⟨square, fun side => ?_⟩
      cases side
      case north => rfl
      case east => exact even.1
      case south => exact even.2.1
      case west => exact even.2.2
    · cases fits
  · split at fits <;> cases fits

/-- A box that does not fit together is refused for its sides or for its shape. -/
theorem tracks_eq_error (unfit : box.tracks = .error e) : ¬ box.Fits ∧
    (e = box.mismatch ∨ e = .notImplemented s!"rectangular switch box {box.name}") := by
  constructor
  · rintro ⟨square, n, sides⟩
    rw [tracks_eq_ok square sides] at unfit
    cases unfit
  · simp only [tracks] at unfit
    split at unfit
    · split at unfit <;> cases unfit
      exact .inl rfl
    · split at unfit <;> cases unfit
      · exact .inr rfl
      · exact .inl rfl

section Planned

variable {r : Recorder} {delay : Delay} {table : SymbolTable} {pips : List Pip}
  (planned : List.Forall₂ (fun c p => box.PipOf delay c p table) (Coupling.ofTracks n) pips)

include planned

theorem nodup_names_of_planned : (pips.map (·.name)).Nodup := by
  have texts := names_of_planned planned
  rw [← Function.comp_def table.text? Pip.name, ← List.map_map] at texts
  exact texts.of_map

/-- Every wire of a box is the source of a pip, and pips have no other wires. -/
theorem wires_of_planned (sides : ∀ side : Side, (box.side side).length = n) (P : Symbol → Prop) :
    (∀ p ∈ pips, P p.source ∧ P p.target) ↔
      ∀ side : Side, ∀ wire ∈ box.side side, P wire := by
  constructor
  · intro ends side wire member
    obtain ⟨track, there⟩ := List.mem_iff_getElem?.mp member
    have inside : track < n := by
      rw [← sides side]
      exact (List.getElem?_eq_some_iff.mp there).1
    obtain ⟨target, apart⟩ : ∃ target, side ≠ target := by
      cases side
      case north => exact ⟨.south, by decide⟩
      all_goals exact ⟨.north, by decide⟩
    have coupled := Coupling.mem_ofTracks_iff_between.mpr ⟨side, track, target, apart, inside, rfl⟩
    obtain ⟨p, listed, of⟩ := exists_of_forall₂ planned.flip coupled
    have same : wire = p.source := Option.some.inj (there.symm.trans of.source)
    exact same ▸ (ends p listed).1
  · intro wires p member
    obtain ⟨c, -, of⟩ := exists_of_forall₂ planned member
    exact ⟨wires _ _ (List.mem_of_getElem? of.source), wires _ _ (List.mem_of_getElem? of.target)⟩

variable (sound : r.Sound) (within : r.symbols.Within table)

include sound within

/-- The names of the pips are free if the recorder finds no pip of these names. -/
theorem names_free_iff : (∀ p ∈ pips, ¬ ∃ q ∈ r.ledger.pips, q.name = p.name) ↔
    ∀ c ∈ Coupling.ofTracks n, r.pip? (box.pipName c) = none := by
  constructor
  · intro free c coupled
    obtain ⟨p, listed, of⟩ := exists_of_forall₂ planned.flip coupled
    exact (sound.pip?_eq_none_iff within of.name).mpr (free p listed)
  · intro free p listed
    obtain ⟨c, coupled, of⟩ := exists_of_forall₂ planned listed
    exact (sound.pip?_eq_none_iff within of.name).mp (free c coupled)

/-- Nothing stands against the pips of a plan if their names are free and the wires are declared. -/
theorem admitted_iff (sides : ∀ side : Side, (box.side side).length = n) :
    (∀ p ∈ pips, ({ r with symbols := table } : Recorder).pipError? p = none) ↔
      (∀ side : Side, ∀ wire ∈ box.side side, r.ledger.HasWire wire) ∧
        ∀ c ∈ Coupling.ofTracks n, r.pip? (box.pipName c) = none := by
  have admits (p : Pip) : ({ r with symbols := table } : Recorder).pipError? p = none ↔
      (¬ ∃ q ∈ r.ledger.pips, q.name = p.name) ∧ r.ledger.HasWire p.source ∧
        r.ledger.HasWire p.target :=
    (sound.toIndexed.withSymbols table).pipError?_eq_none_iff p
  rw [← names_free_iff planned sound within, ← wires_of_planned planned sides r.ledger.HasWire]
  simp only [admits]
  grind

/-- The symbols of a pip that is taken in are all in the table. -/
theorem known_of_planned {p : Pip} (listed : p ∈ pips)
    (admitted : ({ r with symbols := table } : Recorder).pipError? p = none) : p.Known table := by
  obtain ⟨c, -, of⟩ := exists_of_forall₂ planned listed
  have later := (sound.withSymbols within).1
  have declared {s : Symbol} (has : r.ledger.HasWire s) : table.Knows s := by
    obtain ⟨w, member, rfl⟩ := has
    exact (later.knownWires w member).1
  obtain ⟨-, source, target⟩ := (later.toIndexed.pipError?_eq_none_iff p).mp admitted
  exact ⟨⟨SymbolTable.knows_of_text? of.name, SymbolTable.knows_of_text? of.pipType⟩,
    declared source, declared target⟩

end Planned

/-- A box is planned on a recorder, and then its pips are declared one by one until one of them is
refused. -/
structure Declared (box : SwitchBox) (delay : Delay) (r : Recorder) (pips : List Pip)
    (start : Recorder) : Prop where
  plan : (box.plan delay).run r = (.ok pips, start)
  interns : ∃ table, start = { r with symbols := table } ∧ r.symbols.Within table
  done : ∀ count later, (box.declare delay).run r = (.ok count, later) →
    count = pips.length ∧ later.Sound ∧
      later.ledger = { start.ledger with pips := r.ledger.pips ++ pips }
  stopped : ∀ e later, (box.declare delay).run r = (.error e, later) →
    ∃ before p rest, pips = before ++ p :: rest ∧ later.Sound ∧
      (before.forM Declare.pip).run start = (.ok (), later) ∧
      later.ledger = { start.ledger with pips := r.ledger.pips ++ before } ∧
      (Declare.pip p).run later = (.error e, later)

section Declare

variable {r : Recorder} {delay : Delay} {pips : List Pip} {start : Recorder}

theorem run_declare_of_plan (ran : (box.plan delay).run r = (.ok pips, start)) :
    (box.declare delay).run r =
      (pips.forM Declare.pip >>= fun _ => pure pips.length).run start :=
  run_bind_of_ok ran

/-- A box succeeds on a recorder if nothing stands against its pips once they are planned. -/
theorem declare_succeeds_iff (ran : (box.plan delay).run r = (.ok pips, start))
    (distinct : (pips.map (·.name)).Nodup) :
    (∃ count, ((box.declare delay).run r).1 = .ok count) ↔
      ∀ p ∈ pips, start.pipError? p = none := by
  rw [run_declare_of_plan ran]
  rcases run_pips distinct start with
    ⟨admitted, run⟩ | ⟨before, p, rest, e, rfl, -, refused, -, -, run⟩
  · rw [run_bind_of_ok run]
    exact iff_of_true ⟨_, rfl⟩ admitted
  · rw [run_bind_of_error run]
    refine iff_of_false ?_ fun admitted => ?_
    · rintro ⟨_, isOk⟩
      cases isOk
    · cases (admitted p (by simp)).symm.trans refused

theorem declared_of_plan (ran : (box.plan delay).run r = (.ok pips, start))
    (interns : ∃ table, start = { r with symbols := table } ∧ r.symbols.Within table)
    (distinct : (pips.map (·.name)).Nodup) (sound : start.Sound)
    (known : ∀ p ∈ pips, start.pipError? p = none → p.Known start.symbols) :
    box.Declared delay r pips start := by
  have pipsOf : start.ledger.pips = r.ledger.pips := by
    obtain ⟨table, rfl, -⟩ := interns
    rfl
  have kept {some : List Pip} (listed : some.Sublist pips)
      (admitted : ∀ p ∈ some, start.pipError? p = none) : (start.withPips some).Sound :=
    sound.withPips (distinct.sublist (listed.map _)) admitted fun p member =>
      known p (listed.subset member) (admitted p member)
  refine ⟨ran, interns, ?_, ?_⟩ <;> rw [run_declare_of_plan ran]
  · intro count later done
    rcases run_pips distinct start with ⟨admitted, run⟩ | ⟨_, _, _, _, -, -, -, -, -, run⟩
    · rw [run_bind_of_ok run] at done
      cases done
      exact ⟨rfl, kept (.refl _) admitted, by rw [ledger_withPips, pipsOf]⟩
    · rw [run_bind_of_error run] at done
      cases done
  · intro e later failed
    rcases run_pips distinct start with
      ⟨-, run⟩ | ⟨before, p, rest, reason, whole, admitted, -, refused, taken, run⟩
    · rw [run_bind_of_ok run] at failed
      cases failed
    · rw [run_bind_of_error run] at failed
      cases failed
      have listed : before.Sublist pips := whole ▸ List.sublist_append_left before (p :: rest)
      refine ⟨before, p, rest, whole, kept listed admitted, taken, ?_, ?_⟩
      · rw [ledger_withPips, pipsOf]
      · refine (Declare.run_accept ..).trans ?_
        rw [refused]

end Declare

/-- On every recorder that requests lead to, a box is declared if and only if it fits together, its
wires are declared and the names of its pips are free. A box that does not fit together leaves the
recorder as it is, and a pip that is refused leaves those in front of it. -/
theorem declare_ends {r : Recorder} (reached : r.Reached) (box : SwitchBox) (delay : Delay) :
    ((∃ count, ((box.declare delay).run r).1 = .ok count) ↔
      box.Fits ∧ (∀ side : Side, ∀ wire ∈ box.side side, r.ledger.HasWire wire) ∧
        ∀ c ∈ Coupling.ofTracks box.north.length, r.pip? (box.pipName c) = none) ∧
    (∀ e, box.tracks = .error e →
      (e = box.mismatch ∨ e = .notImplemented s!"rectangular switch box {box.name}") ∧
        (box.declare delay).run r = (.error e, r)) ∧
    (∀ n, box.tracks = .ok n → ∃ pips start, box.Declared delay r pips start) := by
  have sound := reached.sound
  have refused {e : RoutingError} (unfit : box.tracks = .error e) :
      (box.declare delay).run r = (.error e, r) := by
    have stop : (liftExcept box.tracks : Declare Nat).run r = (.error e, r) := by
      rw [run_liftExcept, unfit]
    exact run_bind_of_error (run_bind_of_error stop)
  cases fits : box.tracks with
  | error e =>
    refine ⟨?_, ?_, ?_⟩
    · rw [refused fits]
      refine iff_of_false ?_ fun holds => (tracks_eq_error fits).1 holds.1
      rintro ⟨_, isOk⟩
      cases isOk
    · intro e' same
      cases same
      exact ⟨(tracks_eq_error fits).2, refused fits⟩
    · intro n isOk
      cases isOk
  | ok n =>
    obtain ⟨square, sides⟩ := tracks_eq_ok_iff.mp fits
    obtain ⟨pips, table, ran, within, planned⟩ := interns_plan delay square sides r (.refl _)
    have distinct := nodup_names_of_planned planned
    refine ⟨?_, ?_, ?_⟩
    · rw [declare_succeeds_iff ran distinct, admitted_iff planned sound within sides,
        show box.north.length = n from sides .north]
      exact (and_iff_right ⟨square, n, sides⟩).symm
    · intro e isError
      cases isError
    · intro _ _
      exact ⟨pips, _, declared_of_plan ran ⟨table, rfl, within⟩ distinct
        (sound.withSymbols within).1 fun p => known_of_planned planned sound within⟩

/-- A recorder with a wire, and with a symbol that no wire has. -/
def oneWire : Recorder := Recorder.empty.after [.symbol "a", .symbol "b", .wire ⟨⟨0⟩, ⟨0⟩, 0, 0⟩]

/-- A box with the wire on three of its sides. -/
def threeSides (west : Symbol) : SwitchBox := ⟨3, 5, .square, [⟨0⟩], [⟨0⟩], [⟨0⟩], [west]⟩

theorem oneWire_declare_ends :
    oneWire.Reached ∧
      (∃ count, (((threeSides ⟨0⟩).declare default).run oneWire).1 = .ok count) ∧
      ∃ later, ((threeSides ⟨1⟩).declare default).run oneWire =
          (.error (.unknownWire "b"), later) ∧ later.Sound ∧ later.pips.size = 2 ∧
        ∃ p, (Declare.pip p).run later = (.error (.unknownWire "b"), later) := by
  have reached : oneWire.Reached := by
    refine .submit (.submit (.submit .empty trivial) trivial) ⟨?_, ?_⟩
    all_goals
      refine SymbolTable.knows_of_text? (?_ : _ = some "a")
      decide +kernel
  refine ⟨reached, ?_, ?_⟩
  · refine (declare_ends reached (threeSides ⟨0⟩) default).1.mpr ⟨⟨rfl, 1, ?_⟩, ?_, ?_⟩
    · intro side
      cases side <;> rfl
    · intro side
      cases side <;> decide +kernel
    · decide +kernel
  · have failed : (((threeSides ⟨1⟩).declare default).run oneWire).1 =
        .error (.unknownWire "b") := by decide +kernel
    have two : (((threeSides ⟨1⟩).declare default).run oneWire).2.pips.size = 2 := by
      decide +kernel
    obtain ⟨later, run, two⟩ : ∃ later, ((threeSides ⟨1⟩).declare default).run oneWire =
        (.error (.unknownWire "b"), later) ∧ later.pips.size = 2 := by
      generalize ((threeSides ⟨1⟩).declare default).run oneWire = outcome at failed two
      exact ⟨outcome.2, Prod.ext failed rfl, two⟩
    obtain ⟨pips, start, declared⟩ :=
      (declare_ends reached (threeSides ⟨1⟩) default).2.2 1 (by decide +kernel)
    obtain ⟨before, p, rest, -, sound, -, -, refused⟩ := declared.stopped _ _ run
    exact ⟨later, run, sound, two, p, refused⟩

end SwitchBox

end TileFabric
