import TileFabric.Proofs.Routing.GridDeclares

/-!
# Tiles in any order

Tiles that differ are declared one after the other in whatever order they come, since no name of
one is a name of another. What they have declared can be read back: just the slots of the tiles
hold bels, a bel has the pins of its kind, and every pin has a wire to itself on the tile of its
bel. A tile that is there already is refused at its first bel, before it has declared anything.
-/

set_option autoImplicit false

namespace TileFabric

section Keys

variable {α κ : Type} [DecidableEq κ] {items : List α} {key : α → κ}

/-- Where keys are given once, what has the key of an item is the item. -/
theorem filter_eq_singleton_of_key (keys : (items.map key).Nodup) {a : α} (member : a ∈ items) :
    items.filter (fun b => key b = key a) = [a] := by
  have shows : ∀ b ∈ items, ∀ c ∈ [b], decide (key c = key a) = true ↔ b = a := by
    intro b there c same
    rw [List.mem_singleton.mp same, decide_eq_true_iff]
    exact ⟨fun same => List.inj_on_of_nodup_map keys there member same, congrArg key⟩
  simpa using filter_flatMap_of_key (.of_map key keys) member shows

theorem find?_key_eq_some_iff (keys : (items.map key).Nodup) {k : κ} {a : α} :
    items.find? (fun b => key b = k) = some a ↔ a ∈ items ∧ key a = k := by
  constructor
  · intro found
    exact ⟨List.mem_of_find?_eq_some found, by simpa using List.find?_some found⟩
  · rintro ⟨member, rfl⟩
    rw [← List.head?_filter, filter_eq_singleton_of_key keys member, List.head?_cons]

end Keys

namespace Tile

variable {tiles : List (UInt32 × UInt32)}

section Blueprints

theorem exists_kind_of_mem_bels {b : BelPlan} (member : b ∈ (blueprints tiles).bels) :
    ∃ kind, (b.loc, kind) ∈ slotsOf tiles ∧ b.name = belName b.loc kind ∧
      b.belType = kind.typeName := by
  rw [blueprints_eq] at member
  obtain ⟨slot, there, rfl⟩ := List.mem_map.mp member
  exact ⟨slot.2, there, rfl, rfl⟩

theorem exists_place_of_mem_wires {w : WirePlan} (member : w ∈ (blueprints tiles).wires) :
    ∃ loc pin, w.name = pinWireName loc pin ∧ w.x = loc.x ∧ w.y = loc.y := by
  rw [blueprints_eq] at member
  obtain ⟨slot, -, wired⟩ := List.mem_flatMap.mp member
  obtain ⟨p, -, rfl⟩ := List.mem_map.mp wired
  exact ⟨slot.1, p.1, rfl, rfl, rfl⟩

theorem exists_slot_of_mem_pins {p : PinPlan} (member : p ∈ (blueprints tiles).pins) :
    ∃ loc kind, p.bel = belName loc kind ∧ p.wire = pinWireName loc p.pin := by
  rw [blueprints_eq] at member
  obtain ⟨slot, -, pinned⟩ := List.mem_flatMap.mp member
  obtain ⟨q, -, rfl⟩ := List.mem_map.mp pinned
  exact ⟨slot.1, slot.2, rfl, rfl⟩

theorem map_loc_bels : (blueprints tiles).bels.map (·.loc) = (slotsOf tiles).map (·.1) := by
  simp [blueprints_eq, Function.comp_def]

/-- Pin for pin, every pin has a wire. -/
theorem map_wire_pins : (blueprints tiles).pins.map (·.wire) =
    (blueprints tiles).wires.map (·.name) := by
  simp [blueprints_eq, slotBlueprint, List.map_flatMap, Function.comp_def]

/-- The pins with the name of a bel are those of its slot. -/
theorem filter_pins (distinct : tiles.Nodup) {loc : Loc} {kind : BelKind}
    (slot : (loc, kind) ∈ slotsOf tiles) :
    (blueprints tiles).pins.filter (·.bel = belName loc kind) = (slotBlueprint loc kind).pins := by
  have slots : (slotsOf tiles).Nodup := .of_map (·.1) (nodup_slotsOf distinct)
  have shows : ∀ other ∈ slotsOf tiles, ∀ p ∈ (slotBlueprint other.1 other.2).pins,
      decide (p.bel = belName loc kind) = true ↔ other = (loc, kind) := by
    intro other there p pinned
    obtain ⟨⟨pin, direction⟩, -, rfl⟩ := List.mem_map.mp pinned
    rw [decide_eq_true_iff]
    constructor
    · intro same
      exact List.inj_on_of_nodup_map (nodup_slotsOf distinct) there slot (belName_inj same)
    · rintro rfl
      rfl
  rw [blueprints_eq]
  have found := filter_flatMap_of_key slots slot shows
  exact found

theorem slotBlueprint_subset {slot : Loc × BelKind} (there : slot ∈ slotsOf tiles) :
    (slotBlueprint slot.1 slot.2).wires ⊆ (blueprints tiles).wires ∧
      (slotBlueprint slot.1 slot.2).bels ⊆ (blueprints tiles).bels := by
  rw [blueprints_eq]
  constructor
  · exact fun w member => List.mem_flatMap.mpr ⟨slot, there, member⟩
  · intro b member
    rw [slotBlueprint, List.mem_singleton] at member
    exact List.mem_map.mpr ⟨slot, there, member.symm⟩

end Blueprints

end Tile

namespace Recorder

variable {r : Recorder}

/-- The pins of a bel with their directions, in the order of declaration. -/
def pinsOf (r : Recorder) (bel : Symbol) : List (String × PinDirection) :=
  (r.belPins.toList.filter (·.bel = bel)).map fun p => (r.symbols.text p.pin, p.direction)

theorem Sound.pinsOf_eq (sound : r.Sound) {bel : Symbol} (known : r.symbols.Knows bel) :
    r.pinsOf bel = (r.blueprint.pins.filter (·.bel = r.symbols.text bel)).map
      fun p => (p.pin, p.direction) := by
  rw [pinsOf, known.filter_eq fun p member => (sound.knownPins p member).1, blueprint,
    List.filter_map, List.map_map]
  rfl

section Lookups

variable (indexed : r.Indexed) (distinct : r.blueprint.Distinct)

include indexed distinct

theorem Indexed.wireAt?_eq_some_iff {name : Symbol} {w : Wire} :
    r.wireAt? name = some w ↔ w ∈ r.wires.toList ∧ w.name = name := by
  have texts := distinct.wires
  rw [blueprint, List.map_map] at texts
  have names : (r.wires.toList.map (·.name)).Nodup := SymbolTable.nodup_of_texts texts
  rw [indexed.wireAt?_eq]
  exact find?_key_eq_some_iff names

theorem Indexed.belAt?_eq_some_iff {name : Symbol} {b : Bel} :
    r.belAt? name = some b ↔ b ∈ r.bels.toList ∧ b.name = name := by
  have texts := distinct.bels
  rw [blueprint, List.map_map] at texts
  have names : (r.bels.toList.map (·.name)).Nodup := SymbolTable.nodup_of_texts texts
  rw [indexed.belAt?_eq]
  exact find?_key_eq_some_iff names

theorem Indexed.belAtLoc?_eq_some_iff {loc : Loc} {b : Bel} :
    r.belAtLoc? loc = some b ↔ b ∈ r.bels.toList ∧ b.loc = loc := by
  have places := distinct.places
  rw [blueprint, List.map_map] at places
  rw [indexed.belAtLoc?_eq]
  exact find?_key_eq_some_iff places

end Lookups

end Recorder

namespace Declare

variable {r : Recorder}

theorem run_symbol_of_text? {s : Symbol} {text : String} (known : r.symbols.text? s = some text) :
    (symbol text).run r = (.ok s, r) := by
  rw [run_symbol, SymbolTable.intern_of_text? known]

theorem run_bel_of_taken (sound : r.Sound) {b : Bel}
    (taken : ∃ c ∈ r.bels.toList, c.name = b.name) :
    (bel b).run r = (.error (.duplicateBel (r.symbols.text b.name)), r) := by
  refine (run_accept ..).trans ?_
  rw [sound.belError?_eq, Ledger.error?]
  simp only [show ∃ c ∈ r.ledger.bels, c.name = b.name from taken, if_true]
  rfl

end Declare

namespace Tile

/-- Just the slots of some tiles hold bels. A bel is of the kind of its slot and has the pins of
that kind, and a pin has a wire to itself on the tile of its bel. There are no other wires. -/
structure Filled (tiles : List (UInt32 × UInt32)) (r : Recorder) : Prop where
  places : ∀ loc : Loc, (∃ b, r.belAtLoc? loc = some b) ↔ (loc.x, loc.y) ∈ tiles ∧ loc.z < 20
  placed : ∀ (loc : Loc) (b : Bel), r.belAtLoc? loc = some b ↔ b ∈ r.bels.toList ∧ b.loc = loc
  bels : ∀ b ∈ r.bels.toList, ∃ kind, BelKind.ofSlot? b.loc.z = some kind ∧
    r.symbols.text b.belType = kind.typeName ∧
    r.pinsOf b.name = kind.inputs.map (fun pin => (pin, .input)) ++
      kind.outputs.map (fun pin => (pin, .output))
  pins : ∀ p ∈ r.belPins.toList, r.pinsOn p.wire = [p] ∧
    ∃ w b, r.wireAt? p.wire = some w ∧ r.belAt? p.bel = some b ∧ w.x = b.loc.x ∧ w.y = b.loc.y
  wires : ∀ w ∈ r.wires.toList, ∃ p ∈ r.belPins.toList, p.wire = w.name

section Held

variable {tiles : List (UInt32 × UInt32)} {r : Recorder} (held : r.blueprint = blueprints tiles)

include held

theorem exists_kind_of_mem {b : Bel} (member : b ∈ r.bels.toList) :
    ∃ kind, (b.loc, kind) ∈ slotsOf tiles ∧ r.symbols.text b.name = belName b.loc kind ∧
      r.symbols.text b.belType = kind.typeName := by
  have planned : b.plan r.symbols ∈ (blueprints tiles).bels := held ▸ List.mem_map_of_mem member
  exact exists_kind_of_mem_bels planned

theorem exists_belAtLoc?_iff (sound : r.Sound) (distinct : r.blueprint.Distinct) (loc : Loc) :
    (∃ b, r.belAtLoc? loc = some b) ↔ (loc.x, loc.y) ∈ tiles ∧ loc.z < 20 := by
  have locs : r.bels.toList.map (·.loc) = (slotsOf tiles).map (·.1) := by
    rw [← map_loc_bels, ← held, Recorder.blueprint, List.map_map]
    rfl
  have there : (∃ b, r.belAtLoc? loc = some b) ↔ loc ∈ r.bels.toList.map (·.loc) := by
    simp only [sound.toIndexed.belAtLoc?_eq_some_iff distinct, List.mem_map]
  rw [there, locs, ← exists_kind_iff]
  simp [mem_slotsOf_iff]

/-- Pin for pin, the wires of the pins are the wires there are. -/
theorem map_wire_belPins : r.belPins.toList.map (fun p => r.symbols.text p.wire) =
    r.wires.toList.map fun w => r.symbols.text w.name := by
  have texts : (blueprints tiles).pins.map (·.wire) = (blueprints tiles).wires.map (·.name) :=
    map_wire_pins
  rw [← held, Recorder.blueprint, List.map_map, List.map_map] at texts
  exact texts

theorem pinsOn_of_mem (sound : r.Sound) (distinct : r.blueprint.Distinct) {p : BelPin}
    (member : p ∈ r.belPins.toList) : r.pinsOn p.wire = [p] := by
  have texts := distinct.wires
  rw [Recorder.blueprint, List.map_map] at texts
  have wires : (r.belPins.toList.map (·.wire)).Nodup :=
    SymbolTable.nodup_of_texts (map_wire_belPins held ▸ texts)
  rw [(sound.toIndexed.touching_eq p.wire).2.2]
  exact filter_eq_singleton_of_key wires member

theorem exists_pin_of_mem (sound : r.Sound) {w : Wire} (member : w ∈ r.wires.toList) :
    ∃ p ∈ r.belPins.toList, p.wire = w.name := by
  have text : r.symbols.text w.name ∈ r.belPins.toList.map fun p => r.symbols.text p.wire :=
    map_wire_belPins held ▸ List.mem_map_of_mem member
  obtain ⟨p, pinned, same⟩ := List.mem_map.mp text
  have known : r.symbols.Knows p.wire := (sound.knownPins p pinned).2.2
  exact ⟨p, pinned, known.eq_of_text (sound.knownWires w member).1 same⟩

/-- The wire and the bel of a pin lie on one tile: both names show the place that the pin has in
its own names. -/
theorem ends_on_tile {p : BelPin} (pinned : p ∈ r.belPins.toList) {w : Wire}
    (wired : w ∈ r.wires.toList) (sameWire : w.name = p.wire) {b : Bel}
    (there : b ∈ r.bels.toList) (sameBel : b.name = p.bel) : w.x = b.loc.x ∧ w.y = b.loc.y := by
  have pinPlanned : p.plan r.symbols ∈ (blueprints tiles).pins :=
    held ▸ List.mem_map_of_mem pinned
  have wirePlanned : w.plan r.symbols ∈ (blueprints tiles).wires :=
    held ▸ List.mem_map_of_mem wired
  obtain ⟨loc, kind, onBel, onWire⟩ := exists_slot_of_mem_pins pinPlanned
  obtain ⟨wireLoc, pin, wireName, column, row⟩ := exists_place_of_mem_wires wirePlanned
  obtain ⟨belKind, -, name, -⟩ := exists_kind_of_mem held there
  have wireText : r.symbols.text w.name = r.symbols.text p.wire := congrArg _ sameWire
  have belText : r.symbols.text b.name = r.symbols.text p.bel := congrArg _ sameBel
  have wirePlace : wireLoc = loc :=
    (pinWireName_inj (wireName.symm.trans (wireText.trans onWire))).1
  have belPlace : b.loc = loc := belName_inj (name.symm.trans (belText.trans onBel))
  rw [belPlace, ← wirePlace]
  exact ⟨column, row⟩

theorem filled_of_blueprint (sound : r.Sound) (distinct : tiles.Nodup) : Filled tiles r := by
  have apart : r.blueprint.Distinct := held ▸ distinct_blueprints distinct
  have indexed := sound.toIndexed
  constructor
  case places => exact exists_belAtLoc?_iff held sound apart
  case placed => exact fun loc b => indexed.belAtLoc?_eq_some_iff apart
  case bels =>
    intro b member
    obtain ⟨kind, slot, name, belType⟩ := exists_kind_of_mem held member
    refine ⟨kind, (mem_slotsOf_iff.mp slot).2, belType, ?_⟩
    rw [sound.pinsOf_eq (sound.knownBels b member).1, held, name, filter_pins distinct slot,
      slotBlueprint, List.map_map]
    exact List.map_id _
  case pins =>
    intro p member
    obtain ⟨w, wired, sameWire⟩ := indexed.wire p member
    obtain ⟨b, there, sameBel⟩ := indexed.bel p member
    refine ⟨pinsOn_of_mem held sound apart member, w, b, ?_, ?_, ?_⟩
    · exact (indexed.wireAt?_eq_some_iff apart).mpr ⟨wired, sameWire⟩
    · exact (indexed.belAt?_eq_some_iff apart).mpr ⟨there, sameBel⟩
    · exact ends_on_tile held member wired sameWire there sameBel
  case wires => exact fun w member => exists_pin_of_mem held sound member

end Held

section Again

variable {r : Recorder}

/-- The first slot of a tile is a lookup table. -/
theorem slots_cons (x y : UInt32) : ∃ rest, slots x y = (⟨x, y, 0⟩, .lut4) :: rest := ⟨_, rfl⟩

theorem run_declareSlot_of_taken (sound : r.Sound) (wireType : PinDirection → Symbol) {loc : Loc}
    {kind : BelKind} (bels : (slotBlueprint loc kind).bels ⊆ r.blueprint.bels) :
    (declareSlot wireType loc kind).run r = (.error (.duplicateBel (belName loc kind)), r) := by
  obtain ⟨b, declared, planned⟩ := List.mem_map.mp (bels List.mem_cons_self)
  obtain ⟨knownName, knownType⟩ := sound.knownBels b declared
  have name : r.symbols.text b.name = belName loc kind := congrArg BelPlan.name planned
  have belType : r.symbols.text b.belType = kind.typeName := congrArg BelPlan.belType planned
  rw [SymbolTable.Knows, name] at knownName
  rw [SymbolTable.Knows, belType] at knownType
  have refused := Declare.run_bel_of_taken sound (b := ⟨b.name, b.belType, loc, false⟩)
    ⟨b, declared, rfl⟩
  rw [declareSlot, run_bind_of_ok (Declare.run_symbol_of_text? knownName),
    run_bind_of_ok (Declare.run_symbol_of_text? knownType), run_bind_of_error refused, name]

/-- A tile whose first slot is declared is refused there, and the recorder stays as it is. -/
theorem run_declare_of_taken (sound : r.Sound) {x y : UInt32}
    (wires : (slotBlueprint ⟨x, y, 0⟩ .lut4).wires ⊆ r.blueprint.wires)
    (bels : (slotBlueprint ⟨x, y, 0⟩ .lut4).bels ⊆ r.blueprint.bels) :
    (declare x y).run r = (.error (.duplicateBel (belName ⟨x, y, 0⟩ .lut4)), r) := by
  have typed : ∀ w ∈ (slotBlueprint ⟨x, y, 0⟩ .lut4).wires,
      ∃ s, r.symbols.text? s = some w.wireType := by
    intro w member
    obtain ⟨v, declared, rfl⟩ := List.mem_map.mp (wires member)
    exact ⟨v.wireType, (sound.knownWires v declared).2⟩
  obtain ⟨input, inputs⟩ := typed ⟨pinWireName ⟨x, y, 0⟩ "I0", "BEL_INPUT", x, y⟩
    (by simp [slotBlueprint, BelKind.pins, BelKind.inputs, wireTypeText])
  obtain ⟨output, outputs⟩ := typed ⟨pinWireName ⟨x, y, 0⟩ "O", "BEL_OUTPUT", x, y⟩
    (by simp [slotBlueprint, BelKind.pins, BelKind.outputs, wireTypeText])
  obtain ⟨rest, slots⟩ := slots_cons x y
  rw [declare, run_bind_of_ok (Declare.run_symbol_of_text? inputs),
    run_bind_of_ok (Declare.run_symbol_of_text? outputs), slots]
  apply run_bind_of_error
  exact run_bind_of_error (run_declareSlot_of_taken sound _ bels)

end Again

/-- Tiles that differ are declared one after the other in any order, twenty bels and a hundred and
six wires each, and fill just their slots. A tile of them declared again is refused for its first
bel, and nothing of it is declared. -/
theorem declare_fills {tiles : List (UInt32 × UInt32)} (distinct : tiles.Nodup) :
    ∃ r : Recorder, (tiles.mapM fun t => declare t.1 t.2).run .empty =
        (.ok (tiles.map fun _ => ⟨20, 106⟩), r) ∧
      Filled tiles r ∧
      ∀ t ∈ tiles, (declare t.1 t.2).run r =
        (.error (.duplicateBel (belName ⟨t.1, t.2, 0⟩ .lut4)), r) := by
  have each : ∀ t ∈ tiles, ∀ later, Recorder.empty.Grows later →
      Declares later (declare t.1 t.2) (blueprint t.1 t.2) fun counts _ => counts = ⟨20, 106⟩ := by
    intro t _ later _
    refine (declares t.1 t.2).imp fun counts _ _ counted => ?_
    rw [counted, length_pins]
    rfl
  have apart : (Recorder.empty.blueprint ++ blueprints tiles).Distinct := by
    rw [show Recorder.empty.blueprint = {} from rfl, Blueprint.empty_append]
    exact distinct_blueprints distinct
  obtain ⟨counts, r, run, sound, -, held, counted⟩ :=
    Declares.mapM _ (fun _ same => same) each .empty Recorder.sound_empty (.refl _) apart
  have held : r.blueprint = blueprints tiles := held.trans (Blueprint.empty_append _)
  have counts_eq : counts = tiles.map fun _ => ⟨20, 106⟩ := by
    rw [← List.map_id counts]
    exact map_eq_of_forall₂ counted
  subst counts_eq
  refine ⟨r, run, filled_of_blueprint held sound distinct, fun t tile => ?_⟩
  have slot : ((⟨t.1, t.2, 0⟩ : Loc), BelKind.lut4) ∈ slotsOf tiles :=
    mem_slotsOf_iff.mpr ⟨tile, rfl⟩
  obtain ⟨wires, bels⟩ := slotBlueprint_subset slot
  rw [← held] at wires bels
  exact run_declare_of_taken sound wires bels

/-- Coordinates that read alike when run together, and the greatest ones. -/
def farTiles : List (UInt32 × UInt32) := [(1, 11), (11, 1), (0xFFFFFFFF, 0)]

theorem farTiles_fill : farTiles.Nodup ∧ ∃ r : Recorder,
    (farTiles.mapM fun t => declare t.1 t.2).run .empty =
      (.ok [⟨20, 106⟩, ⟨20, 106⟩, ⟨20, 106⟩], r) ∧
    (∃ b, r.belAtLoc? ⟨0xFFFFFFFF, 0, 8⟩ = some b ∧ r.pinsOf b.name =
      [("D", .input), ("CLK", .input), ("CE", .input), ("RST", .input), ("Q", .output)]) ∧
    (¬ ∃ b, r.belAtLoc? ⟨1, 1, 0⟩ = some b) ∧
    (declare 11 1).run r = (.error (.duplicateBel "X11Y1Z0_LUT4_BEL"), r) := by
  have distinct : farTiles.Nodup := by decide
  obtain ⟨r, run, filled, again⟩ := declare_fills distinct
  refine ⟨distinct, r, run, ?_, ?_, ?_⟩
  · obtain ⟨b, found⟩ := (filled.places ⟨0xFFFFFFFF, 0, 8⟩).mpr (by decide)
    obtain ⟨member, here⟩ := (filled.placed _ b).mp found
    obtain ⟨kind, slot, -, pins⟩ := filled.bels b member
    rw [here, show BelKind.ofSlot? 8 = some .dffer by decide] at slot
    cases slot
    exact ⟨b, found, pins⟩
  · rw [filled.places]
    decide
  · exact again (11, 1) (by decide)

end Tile

end TileFabric
