import TileFabric.Proofs.Routing.Blueprint
import TileFabric.Proofs.Routing.Interning

/-!
# Programs that add a blueprint

`Declares` says of a program that it adds just the declarations of a blueprint, from every recorder
in which they do not clash with what is there. Programs that declare compose as their blueprints
do, so that nothing about the recorder's indices is needed behind this module.
-/

set_option autoImplicit false

namespace TileFabric

variable {α β ι : Type}

/-- From every recorder that has grown from a base and in which nothing clashes, a program adds a
blueprint and has a result of some kind. -/
def Declares (base : Recorder) (program : Declare α) (b : Blueprint)
    (result : α → Recorder → Prop) : Prop :=
  ∀ r : Recorder, r.Sound → base.Grows r → (r.blueprint ++ b).Distinct →
    ∃ a later, program.run r = (.ok a, later) ∧ later.Sound ∧ r.symbols.Within later.symbols ∧
      later.blueprint = r.blueprint ++ b ∧ result a later

namespace Declares

variable {base : Recorder}

section Rules

variable {program : Declare α} {next : α → Declare β} {b b' : Blueprint}
  {result : α → Recorder → Prop} {outcome : β → Recorder → Prop}

theorem pure {a : α} (holds : ∀ later, base.Grows later → result a later) :
    Declares base (Pure.pure a) {} result := by
  intro r sound grown _
  exact ⟨a, r, rfl, sound, .refl _, by simp, holds r grown⟩

theorem bind (first : Declares base program b result)
    (second : ∀ a later, base.Grows later → result a later → Declares later (next a) b' outcome) :
    Declares base (program >>= next) (b ++ b') outcome := by
  intro r sound grown distinct
  rw [← Blueprint.append_assoc] at distinct
  obtain ⟨a, between, ran, between_sound, within, added, holds⟩ :=
    first r sound grown distinct.left
  have grows : r.Grows between := ⟨within, b, added⟩
  rw [← added] at distinct
  obtain ⟨c, later, done, later_sound, within', added', holds'⟩ :=
    second a between (grown.trans grows) holds between between_sound (.refl _) distinct
  refine ⟨c, later, ?_, later_sound, within.trans within', ?_, holds'⟩
  · rw [run_bind_of_ok ran, done]
  · rw [added', added, Blueprint.append_assoc]

/-- A program may go on to compute a value from its result. -/
theorem map {value : α → β} (program_declares : Declares base program b result)
    (holds : ∀ a later, base.Grows later → result a later → outcome (value a) later) :
    Declares base (program >>= fun a => Pure.pure (value a)) b outcome := by
  intro r sound grown distinct
  obtain ⟨a, later, ran, later_sound, within, added, held⟩ :=
    program_declares r sound grown distinct
  refine ⟨value a, later, ?_, later_sound, within, added,
    holds a later (grown.trans ⟨within, b, added⟩) held⟩
  rw [run_bind_of_ok ran]
  rfl

/-- A program may begin by what declares nothing. -/
theorem bindSilent (first : Declares base program {} result)
    (second : ∀ a later, base.Grows later → result a later → Declares later (next a) b' outcome) :
    Declares base (program >>= next) b' outcome := by
  rw [← Blueprint.empty_append b']
  exact first.bind second

theorem imp {weaker : α → Recorder → Prop} (strong : Declares base program b result)
    (implies : ∀ a later, base.Grows later → result a later → weaker a later) :
    Declares base program b weaker := by
  intro r sound grown distinct
  obtain ⟨a, later, ran, later_sound, within, added, holds⟩ := strong r sound grown distinct
  exact ⟨a, later, ran, later_sound, within, added,
    implies a later (grown.trans ⟨within, b, added⟩) holds⟩

end Rules

section Loops

variable {items : List ι} {part : ι → Blueprint}

theorem mapM {declare : ι → Declare α} (result : ι → α → Recorder → Prop)
    (persists : ∀ {i : ι} {a : α} {r later : Recorder}, r.Grows later → result i a r →
      result i a later)
    (each : ∀ i ∈ items, ∀ later, base.Grows later →
      Declares later (declare i) (part i) (result i)) :
    Declares base (items.mapM declare) (.join (items.map part)) fun values later =>
      List.Forall₂ (fun i a => result i a later) items values := by
  induction items generalizing base with
  | nil => exact pure fun _ _ => .nil
  | cons i rest ih =>
    rw [List.mapM_cons, List.map_cons, Blueprint.join_cons]
    refine (each i List.mem_cons_self base (.refl base)).bind fun a later grown holds => ?_
    refine (ih fun j member last grows =>
      each j (List.mem_cons_of_mem i member) last (grown.trans grows)).map ?_
    exact fun values last grows others => .cons (persists grows holds) others

theorem forM {declare : ι → Declare Unit}
    (each : ∀ i ∈ items, ∀ later, base.Grows later →
      Declares later (declare i) (part i) fun _ _ => True) :
    Declares base (items.forM declare) (.join (items.map part)) fun _ _ => True := by
  induction items generalizing base with
  | nil => exact pure fun _ _ => trivial
  | cons i rest ih =>
    rw [List.map_cons, Blueprint.join_cons]
    refine (each i List.mem_cons_self base (.refl base)).bind fun _ later grown _ => ?_
    exact ih fun j member last grows =>
      each j (List.mem_cons_of_mem i member) last (grown.trans grows)

/-- What is counted is the size of the blueprint, in whatever way sizes add up. -/
theorem countEach {declare : ι → Declare Nat} (size : Blueprint → Nat) (nothing : size {} = 0)
    (adds : ∀ first second, size (first ++ second) = size first + size second)
    (each : ∀ i ∈ items, ∀ later, base.Grows later →
      Declares later (declare i) (part i) fun n _ => n = size (part i)) :
    Declares base (Declare.countEach declare items) (.join (items.map part)) fun n _ =>
      n = size (.join (items.map part)) := by
  induction items generalizing base with
  | nil => exact pure fun _ _ => nothing.symm
  | cons i rest ih =>
    rw [List.map_cons, Blueprint.join_cons, adds]
    refine (each i List.mem_cons_self base (.refl base)).bind fun n later grown counted => ?_
    refine (ih fun j member last grows =>
      each j (List.mem_cons_of_mem i member) last (grown.trans grows)).map ?_
    exact fun others last _ counted_others => by rw [counted, counted_others]

end Loops

section Requests

/-- What only interns declares nothing. -/
theorem ofInterns {program : Declare α} {result : α → SymbolTable → Prop}
    (interns : Interns base.symbols program result) :
    Declares base program {} fun a later => result a later.symbols := by
  intro r sound grown _
  obtain ⟨a, table, ran, within, holds⟩ := interns r grown.symbols
  obtain ⟨later_sound, same⟩ := sound.withSymbols within
  exact ⟨a, _, ran, later_sound, within, by rw [same]; simp, holds⟩

theorem symbol (text : String) : Declares base (Declare.symbol text) {} fun s later =>
    later.symbols.text? s = some text := ofInterns (Interns.symbol text)

/-- Something new among things that differ is none of the old ones. -/
private theorem ne_of_nodup {old : List α} {key : α → β} {new : β}
    (distinct : (old.map key ++ [new]).Nodup) : ∀ x ∈ old, key x ≠ new := by
  intro x member
  exact (List.nodup_append.mp distinct).2.2 (key x) (List.mem_map_of_mem member) new (by simp)

theorem wire {w : Wire} {name wireType : String}
    (named : base.symbols.text? w.name = some name)
    (typed : base.symbols.text? w.wireType = some wireType) :
    Declares base (Declare.wire w) { wires := [⟨name, wireType, w.x, w.y⟩] } fun _ later =>
      later.HasWireNamed name := by
  intro r sound grown distinct
  replace named := grown.symbols.reads named
  replace typed := grown.symbols.reads typed
  have plan : w.plan r.symbols = ⟨name, wireType, w.x, w.y⟩ := by
    simp [Wire.plan, SymbolTable.text_of_text? named, SymbolTable.text_of_text? typed]
  have new : ¬ r.ledger.HasWire w.name := by
    rintro ⟨v, declared, same⟩
    have names := distinct.wires
    rw [Blueprint.wires_append, List.map_append, Recorder.blueprint, List.map_map] at names
    exact ne_of_nodup names v declared (by simp [Wire.plan, same, SymbolTable.text_of_text? named])
  have ran : (Declare.wire w).run r = (.ok (), r.pushWire w) := by
    refine (Declare.run_accept ..).trans ?_
    rw [sound.wireError?_eq]
    simp [Ledger.error?, new]
  have added : (r.pushWire w).blueprint = r.blueprint ++ { wires := [w.plan r.symbols] } := by
    ext1 <;> simp [Recorder.blueprint, Recorder.pushWire]
  refine ⟨(), r.pushWire w, ran, ?_, .refl _, plan ▸ added, ?_⟩
  · refine { sound with toIndexed := Recorder.indexed_pushWire sound.toIndexed new, knownWires := ?_ }
    exact forall_mem_push.mpr ⟨sound.knownWires,
      SymbolTable.knows_of_text? named, SymbolTable.knows_of_text? typed⟩
  · exact ⟨w.plan r.symbols, by simp [added], by simp [plan]⟩

theorem pip {p : Pip} {name pipType source target : String}
    (named : base.symbols.text? p.name = some name)
    (typed : base.symbols.text? p.pipType = some pipType)
    (leaves : base.symbols.text? p.source = some source) (sourced : base.HasWireNamed source)
    (arrives : base.symbols.text? p.target = some target) (targeted : base.HasWireNamed target) :
    Declares base (Declare.pip p) { pips := [⟨name, pipType, source, target, p.delay, p.loc⟩] }
      fun _ _ => True := by
  intro r sound grown distinct
  replace named := grown.symbols.reads named
  replace typed := grown.symbols.reads typed
  replace leaves := grown.symbols.reads leaves
  replace arrives := grown.symbols.reads arrives
  have plan : p.plan r.symbols = ⟨name, pipType, source, target, p.delay, p.loc⟩ := by
    simp [Pip.plan, SymbolTable.text_of_text? named, SymbolTable.text_of_text? typed,
      SymbolTable.text_of_text? leaves, SymbolTable.text_of_text? arrives]
  have new : ¬ ∃ q ∈ r.ledger.pips, q.name = p.name := by
    rintro ⟨q, declared, same⟩
    have names := distinct.pips
    rw [Blueprint.pips_append, List.map_append, Recorder.blueprint, List.map_map] at names
    exact ne_of_nodup names q declared (by simp [Pip.plan, same, SymbolTable.text_of_text? named])
  have hasSource : r.ledger.HasWire p.source := sound.hasWire leaves (grown.hasWireNamed sourced)
  have hasTarget : r.ledger.HasWire p.target := sound.hasWire arrives (grown.hasWireNamed targeted)
  have ran : (Declare.pip p).run r = (.ok (), r.pushPip p) := by
    refine (Declare.run_accept ..).trans ?_
    rw [sound.pipError?_eq, Ledger.error?, if_neg new, if_neg (not_not_intro hasSource),
      if_neg (not_not_intro hasTarget)]
  have added : (r.pushPip p).blueprint = r.blueprint ++ { pips := [p.plan r.symbols] } := by
    ext1 <;> simp [Recorder.blueprint, Recorder.pushPip, Recorder.extendTo]
  refine ⟨(), r.pushPip p, ran, ?_, .refl _, plan ▸ added, trivial⟩
  refine { sound with
    toIndexed := Recorder.indexed_pushPip sound.toIndexed new hasSource hasTarget, knownPips := ?_ }
  exact forall_mem_push.mpr ⟨sound.knownPips,
    ⟨SymbolTable.knows_of_text? named, SymbolTable.knows_of_text? typed⟩,
    SymbolTable.knows_of_text? leaves, SymbolTable.knows_of_text? arrives⟩

theorem bel {d : Bel} {name belType : String} (named : base.symbols.text? d.name = some name)
    (typed : base.symbols.text? d.belType = some belType) :
    Declares base (Declare.bel d) { bels := [⟨name, belType, d.loc, d.globalBuffer⟩] }
      fun _ later => later.HasBelNamed name := by
  intro r sound grown distinct
  replace named := grown.symbols.reads named
  replace typed := grown.symbols.reads typed
  have plan : d.plan r.symbols = ⟨name, belType, d.loc, d.globalBuffer⟩ := by
    simp [Bel.plan, SymbolTable.text_of_text? named, SymbolTable.text_of_text? typed]
  have new : ¬ ∃ c ∈ r.ledger.bels, c.name = d.name := by
    rintro ⟨c, declared, same⟩
    have names := distinct.bels
    rw [Blueprint.bels_append, List.map_append, Recorder.blueprint, List.map_map] at names
    exact ne_of_nodup names c declared (by simp [Bel.plan, same, SymbolTable.text_of_text? named])
  have free : ¬ ∃ c ∈ r.ledger.bels, c.loc = d.loc := by
    rintro ⟨c, declared, same⟩
    have places := distinct.places
    rw [Blueprint.bels_append, List.map_append, Recorder.blueprint, List.map_map] at places
    exact ne_of_nodup places c declared (by simp [Bel.plan, same])
  have ran : (Declare.bel d).run r = (.ok (), r.pushBel d) := by
    refine (Declare.run_accept ..).trans ?_
    rw [sound.belError?_eq, Ledger.error?, if_neg new, if_neg free]
  have added : (r.pushBel d).blueprint = r.blueprint ++ { bels := [d.plan r.symbols] } := by
    ext1 <;> simp [Recorder.blueprint, Recorder.pushBel, Recorder.extendTo]
  refine ⟨(), r.pushBel d, ran, ?_, .refl _, plan ▸ added, ?_⟩
  · refine { sound with
      toIndexed := Recorder.indexed_pushBel sound.toIndexed new free, knownBels := ?_ }
    exact forall_mem_push.mpr ⟨sound.knownBels,
      SymbolTable.knows_of_text? named, SymbolTable.knows_of_text? typed⟩
  · exact ⟨d.plan r.symbols, by simp [added], by simp [plan]⟩

theorem belPin {p : BelPin} {bel pin wire : String}
    (owned : base.symbols.text? p.bel = some bel) (owner : base.HasBelNamed bel)
    (named : base.symbols.text? p.pin = some pin)
    (wired : base.symbols.text? p.wire = some wire) (attached : base.HasWireNamed wire) :
    Declares base (Declare.belPin p) { pins := [⟨bel, pin, wire, p.direction⟩] }
      fun _ _ => True := by
  intro r sound grown distinct
  replace owned := grown.symbols.reads owned
  replace named := grown.symbols.reads named
  replace wired := grown.symbols.reads wired
  have plan : p.plan r.symbols = ⟨bel, pin, wire, p.direction⟩ := by
    simp [BelPin.plan, SymbolTable.text_of_text? owned, SymbolTable.text_of_text? named,
      SymbolTable.text_of_text? wired]
  have hasBel : ∃ b ∈ r.ledger.bels, b.name = p.bel := sound.hasBel owned (grown.hasBelNamed owner)
  have hasWire : r.ledger.HasWire p.wire := sound.hasWire wired (grown.hasWireNamed attached)
  have new : ¬ ∃ q ∈ r.ledger.belPins, q.bel = p.bel ∧ q.pin = p.pin := by
    rintro ⟨q, declared, sameBel, samePin⟩
    have names := distinct.pins
    rw [Blueprint.pins_append, List.map_append, Recorder.blueprint, List.map_map] at names
    refine ne_of_nodup names q declared ?_
    simp [BelPin.plan, sameBel, samePin, SymbolTable.text_of_text? owned,
      SymbolTable.text_of_text? named]
  have ran : (Declare.belPin p).run r = (.ok (), r.pushBelPin p) := by
    refine (Declare.run_accept ..).trans ?_
    rw [sound.belPinError?_eq, Ledger.error?, if_neg (not_not_intro hasBel),
      if_neg (not_not_intro hasWire), if_neg new]
  have added : (r.pushBelPin p).blueprint = r.blueprint ++ { pins := [p.plan r.symbols] } := by
    ext1 <;> simp [Recorder.blueprint, Recorder.pushBelPin]
  refine ⟨(), r.pushBelPin p, ran, ?_, .refl _, plan ▸ added, trivial⟩
  refine { sound with
    toIndexed := Recorder.indexed_pushBelPin sound.toIndexed hasBel hasWire, knownPins := ?_ }
  exact forall_mem_push.mpr ⟨sound.knownPins, SymbolTable.knows_of_text? owned,
    SymbolTable.knows_of_text? named, SymbolTable.knows_of_text? wired⟩

end Requests

end Declares

end TileFabric
