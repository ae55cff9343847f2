import TileFabric.Proofs.Routing.Blueprint
import TileFabric.Proofs.Routing.BoxPlan

/-!
# The layout of a grid

What a grid is to declare, written down as a blueprint: a bel with its pins and their wires for
every slot of every tile, the wires of the channels, and the pips of the boxes. Nothing in it
clashes, since every name shows what it is the name of.
-/

set_option autoImplicit false

namespace TileFabric

section Coordinates

variable {n x : UInt32}

theorem toNat_ofNat_of_le {i : Nat} (small : i ≤ n.toNat) : (UInt32.ofNat i).toNat = i :=
  UInt32.toNat_ofNat_of_lt' (Nat.lt_of_le_of_lt small n.toNat_lt)

theorem toNat_next (small : x < n) : (x + 1).toNat = x.toNat + 1 := by
  have bound := n.toNat_lt
  rw [UInt32.lt_iff_toNat_lt] at small
  rw [UInt32.toNat_add, UInt32.toNat_one, Nat.mod_eq_of_lt (by omega)]

theorem next_le (small : x < n) : x + 1 ≤ n := by
  rw [UInt32.le_iff_toNat_le, toNat_next small]
  exact UInt32.lt_iff_toNat_lt.mp small

theorem mem_below_iff : x ∈ below n ↔ x < n := by
  rw [below, List.mem_map, UInt32.lt_iff_toNat_lt]
  constructor
  · rintro ⟨i, member, rfl⟩
    rw [List.mem_range] at member
    rwa [toNat_ofNat_of_le (Nat.le_of_lt member)]
  · exact fun small => ⟨x.toNat, List.mem_range.mpr small, UInt32.ofNat_toNat⟩

theorem mem_upTo_iff : x ∈ upTo n ↔ x ≤ n := by
  rw [upTo, List.mem_map, UInt32.le_iff_toNat_le]
  constructor
  · rintro ⟨i, member, rfl⟩
    have small : i ≤ n.toNat := Nat.lt_succ_iff.mp (List.mem_range.mp member)
    rwa [toNat_ofNat_of_le small]
  · exact fun small => ⟨x.toNat, List.mem_range.mpr (by omega), UInt32.ofNat_toNat⟩

theorem nodup_upTo : (upTo n).Nodup := by
  refine List.Nodup.map_on ?_ List.nodup_range
  intro i left j right same
  have nats := congrArg UInt32.toNat same
  rwa [toNat_ofNat_of_le (n := n) (Nat.lt_succ_iff.mp (List.mem_range.mp left)),
    toNat_ofNat_of_le (n := n) (Nat.lt_succ_iff.mp (List.mem_range.mp right))] at nats

theorem upTo_eq_below_append : upTo n = below n ++ [n] := by
  rw [upTo, List.range_succ, List.map_append, List.map_singleton, UInt32.ofNat_toNat, below]

theorem nodup_below : (below n).Nodup := by
  have nodup : (upTo n).Nodup := nodup_upTo
  rw [upTo_eq_below_append] at nodup
  exact (List.nodup_append.mp nodup).1

@[simp] theorem length_below : (below n).length = n.toNat := by simp [below]

@[simp] theorem length_upTo : (upTo n).length = n.toNat + 1 := by simp [upTo]

end Coordinates

namespace Tile

/-- The name of the wire type behind pins of a direction. -/
def wireTypeText (direction : PinDirection) : String :=
  if direction = .input then "BEL_INPUT" else "BEL_OUTPUT"

/-- The bel of a slot with a wire for every pin. -/
def slotBlueprint (loc : Loc) (kind : BelKind) : Blueprint where
  wires := kind.pins.map fun (pin, direction) =>
    ⟨pinWireName loc pin, wireTypeText direction, loc.x, loc.y⟩
  bels := [⟨belName loc kind, kind.typeName, loc, false⟩]
  pins := kind.pins.map fun (pin, direction) =>
    ⟨belName loc kind, pin, pinWireName loc pin, direction⟩

def blueprint (x y : UInt32) : Blueprint :=
  .join ((slots x y).map fun (loc, kind) => slotBlueprint loc kind)

/-- One tile behind the other. -/
def blueprints (tiles : List (UInt32 × UInt32)) : Blueprint :=
  .join (tiles.map fun (x, y) => blueprint x y)

end Tile

namespace SwitchBox

/-- The names of the wires around the box of a tile. -/
def sideName (x y : UInt32) : Side → UInt32 → String
  | .north => Channel.verticalName x (y + 1)
  | .east => Channel.horizontalName (x + 1) y
  | .south => Channel.verticalName x y
  | .west => Channel.horizontalName x y

/-- The pip of a coupling. -/
def pipPlan (box : SwitchBox) (delay : Delay) (c : Coupling) : PipPlan where
  name := box.pipName c
  pipType := box.turnTag c.turn
  source := sideName box.x box.y c.source (.ofNat c.sourceTrack)
  target := sideName box.x box.y c.target (.ofNat c.targetTrack)
  delay
  loc := ⟨box.x, box.y, 0⟩

end SwitchBox

namespace GridSpec

variable (spec : GridSpec)

def tilesBlueprint : Blueprint := .join (spec.tiles.map fun (x, y) => Tile.blueprint x y)

def verticalWires : List WirePlan :=
  spec.verticalTracks.map fun (x, y, i) =>
    ⟨Channel.verticalName x y i, Channel.routing, x, min y (spec.height - 1)⟩

def horizontalWires : List WirePlan :=
  spec.horizontalTracks.map fun (x, y, i) =>
    ⟨Channel.horizontalName x y i, Channel.routing, min x (spec.width - 1), y⟩

def channelsBlueprint : Blueprint := { wires := spec.verticalWires ++ spec.horizontalWires }

/-- The box of a tile without its wires. Nothing in its names needs them. -/
def unwiredBox (x y : UInt32) : SwitchBox :=
  { x, y, shape := spec.shape, north := [], east := [], south := [], west := [] }

/-- The pips of the box of a tile, if every side has as many wires as a vertical channel. -/
def boxBlueprint (x y : UInt32) : Blueprint where
  pips := (Coupling.ofTracks spec.vertical.toNat).map
    ((spec.unwiredBox x y).pipPlan spec.delay)

def boxesBlueprint : Blueprint := .join (spec.tiles.map fun (x, y) => spec.boxBlueprint x y)

/-- All that a grid with square boxes declares. -/
def blueprint : Blueprint := spec.tilesBlueprint ++ (spec.channelsBlueprint ++ spec.boxesBlueprint)

section Places

variable {spec}

theorem mem_tiles_iff {x y : UInt32} : (x, y) ∈ spec.tiles ↔ x < spec.width ∧ y < spec.height := by
  simp [tiles, mem_below_iff]

theorem nodup_tiles : spec.tiles.Nodup := by
  refine nodup_flatMap_of_key id (by simpa using nodup_below) (fun x _ => ?_) ?_
  · exact nodup_below.map fun y y' same => (Prod.mk.inj same).2
  · rintro x x' ⟨x'', y⟩ left right
    simp only [List.mem_map, Prod.mk.injEq] at left right
    obtain ⟨_, _, rfl, _⟩ := left
    obtain ⟨_, _, rfl, _⟩ := right
    rfl

theorem length_tiles : spec.tiles.length = spec.width.toNat * spec.height.toNat := by
  rw [tiles, length_flatMap_of_const fun x _ => List.length_map _, length_below, length_below]

theorem mem_verticalTracks_iff {x y i : UInt32} :
    (x, y, i) ∈ spec.verticalTracks ↔ x < spec.width ∧ y ≤ spec.height ∧ i < spec.vertical := by
  simp [verticalTracks, mem_below_iff, mem_upTo_iff]

theorem mem_horizontalTracks_iff {x y i : UInt32} :
    (x, y, i) ∈ spec.horizontalTracks ↔
      y < spec.height ∧ x ≤ spec.width ∧ i < spec.horizontal := by
  simp [horizontalTracks, mem_below_iff, mem_upTo_iff]

theorem length_verticalTracks : spec.verticalTracks.length =
    spec.width.toNat * ((spec.height.toNat + 1) * spec.vertical.toNat) := by
  rw [verticalTracks, length_flatMap_of_const fun x _ =>
    length_flatMap_of_const fun y _ => List.length_map _]
  simp

theorem length_horizontalTracks : spec.horizontalTracks.length =
    spec.height.toNat * ((spec.width.toNat + 1) * spec.horizontal.toNat) := by
  rw [horizontalTracks, length_flatMap_of_const fun y _ =>
    length_flatMap_of_const fun x _ => List.length_map _]
  simp

end Places

end GridSpec

/-! ### Nothing clashes -/

/-- Three nested loops that make things from which their counters can be read make nothing twice. -/
private theorem nodup_nested {α : Type} {outer middle inner : List UInt32}
    {f : UInt32 → UInt32 → UInt32 → α} (o : outer.Nodup) (m : middle.Nodup) (i : inner.Nodup)
    (reads : ∀ {a b c a' b' c' : UInt32}, f a b c = f a' b' c' → a = a' ∧ b = b' ∧ c = c') :
    (outer.flatMap fun a => middle.flatMap fun b => inner.map (f a b)).Nodup := by
  refine nodup_flatMap_of_key id (by simpa using o) (fun a _ => ?_) ?_
  · refine nodup_flatMap_of_key id (by simpa using m) (fun b _ => i.map ?_) ?_
    · exact fun c c' same => (reads same).2.2
    · intro b b' made left right
      obtain ⟨_, _, rfl⟩ := List.mem_map.mp left
      obtain ⟨_, _, same⟩ := List.mem_map.mp right
      exact (reads same).2.1.symm
  · intro a a' made left right
    obtain ⟨_, _, left⟩ := List.mem_flatMap.mp left
    obtain ⟨_, _, right⟩ := List.mem_flatMap.mp right
    obtain ⟨_, _, rfl⟩ := List.mem_map.mp left
    obtain ⟨_, _, same⟩ := List.mem_map.mp right
    exact (reads same).1.symm

namespace Tile

theorem exists_kind_iff {z : UInt32} : (∃ kind, BelKind.ofSlot? z = some kind) ↔ z < 20 := by
  rw [← Option.isSome_iff_exists]
  simp only [BelKind.ofSlot?, UInt32.lt_iff_toNat_lt, UInt32.reduceToNat]
  grind

theorem mem_slots_iff {x y : UInt32} {loc : Loc} {kind : BelKind} : (loc, kind) ∈ slots x y ↔
    (loc.x = x ∧ loc.y = y) ∧ BelKind.ofSlot? loc.z = some kind := by
  simp only [slots, List.mem_filterMap, List.mem_range, Option.map_eq_some_iff, Prod.mk.injEq]
  constructor
  · rintro ⟨z, -, kind, slot, rfl, rfl⟩
    exact ⟨⟨rfl, rfl⟩, slot⟩
  · rintro ⟨⟨rfl, rfl⟩, slot⟩
    have small : loc.z < 20 := exists_kind_iff.mp ⟨kind, slot⟩
    rw [UInt32.lt_iff_toNat_lt] at small
    exact ⟨loc.z.toNat, small, kind, by rwa [UInt32.ofNat_toNat], by rw [UInt32.ofNat_toNat], rfl⟩

theorem slots_eq (x y : UInt32) : slots x y =
    (slots 0 0).map fun (loc, kind) => ({ loc with x, y }, kind) := by
  simp [slots, List.map_filterMap, Function.comp_def]

theorem place_of_mem_slots {x y : UInt32} {loc : Loc} (member : loc ∈ (slots x y).map (·.1)) :
    loc.x = x ∧ loc.y = y := by
  obtain ⟨slot, there, rfl⟩ := List.mem_map.mp member
  exact (mem_slots_iff.mp there).1

theorem nodup_places (x y : UInt32) : ((slots x y).map (·.1)).Nodup := by
  have slots : ((slots 0 0).map (·.1.z)).Nodup := by decide +kernel
  refine .of_map (·.z) ?_
  rw [slots_eq]
  simpa [Function.comp_def] using slots

theorem nodup_pins (kind : BelKind) : (kind.pins.map (·.1)).Nodup := by cases kind <;> decide

/-- The places of the bels of some tiles with their kinds. -/
def slotsOf (tiles : List (UInt32 × UInt32)) : List (Loc × BelKind) :=
  tiles.flatMap fun (x, y) => slots x y

theorem mem_slotsOf_iff {tiles : List (UInt32 × UInt32)} {loc : Loc} {kind : BelKind} :
    (loc, kind) ∈ slotsOf tiles ↔ (loc.x, loc.y) ∈ tiles ∧ BelKind.ofSlot? loc.z = some kind := by
  simp only [slotsOf, List.mem_flatMap, Prod.exists, mem_slots_iff]
  constructor
  · rintro ⟨x, y, tile, ⟨rfl, rfl⟩, slot⟩
    exact ⟨tile, slot⟩
  · rintro ⟨tile, slot⟩
    exact ⟨loc.x, loc.y, tile, ⟨rfl, rfl⟩, slot⟩

theorem blueprints_eq (tiles : List (UInt32 × UInt32)) : blueprints tiles =
    { wires := (slotsOf tiles).flatMap fun slot => (slotBlueprint slot.1 slot.2).wires
      bels := (slotsOf tiles).map fun slot =>
        ⟨belName slot.1 slot.2, slot.2.typeName, slot.1, false⟩
      pins := (slotsOf tiles).flatMap fun slot => (slotBlueprint slot.1 slot.2).pins } := by
  ext1 <;> simp [blueprints, blueprint, slotsOf, Blueprint.join, List.flatMap_assoc,
    slotBlueprint, List.map_eq_flatMap]

section Distinct

variable {tiles : List (UInt32 × UInt32)}

theorem nodup_slotsOf (distinct : tiles.Nodup) : ((slotsOf tiles).map (·.1)).Nodup := by
  rw [slotsOf, List.map_flatMap]
  refine nodup_flatMap_of_key id (by simpa using distinct) (fun t _ => nodup_places ..) ?_
  rintro ⟨x, y⟩ ⟨x', y'⟩ loc left right
  obtain ⟨rfl, rfl⟩ := place_of_mem_slots left
  obtain ⟨rfl, rfl⟩ := place_of_mem_slots right
  rfl

/-- Names that show the place of a bel and its pin are given once. -/
private theorem nodup_pinNames (distinct : tiles.Nodup) {α : Type} {f : Loc → BelKind → String → α}
    (reads : ∀ {loc loc' : Loc} {kind kind' : BelKind} {pin pin' : String},
      f loc kind pin = f loc' kind' pin' → loc = loc' ∧ pin = pin') :
    ((slotsOf tiles).flatMap fun slot => slot.2.pins.map fun p => f slot.1 slot.2 p.1).Nodup := by
  refine nodup_flatMap_of_key (·.1) (nodup_slotsOf distinct) (fun slot _ => ?_) ?_
  · have pins := (nodup_pins slot.2).map (f := f slot.1 slot.2) fun _ _ same => (reads same).2
    simpa [Function.comp_def] using pins
  · rintro ⟨loc, kind⟩ ⟨loc', kind'⟩ made left right
    obtain ⟨_, _, rfl⟩ := List.mem_map.mp left
    obtain ⟨_, _, same⟩ := List.mem_map.mp right
    exact (reads same).1.symm

/-- Nothing clashes between tiles that differ. -/
theorem distinct_blueprints (distinct : tiles.Nodup) : (blueprints tiles).Distinct := by
  rw [blueprints_eq]
  constructor
  case wires =>
    have names := nodup_pinNames distinct (f := fun loc _ pin => pinWireName loc pin)
      fun same => pinWireName_inj same
    simpa [slotBlueprint, List.map_flatMap, Function.comp_def] using names
  case pips => exact .nil
  case bels =>
    rw [List.map_map]
    refine List.pairwise_map.mpr ((List.pairwise_map.mp (nodup_slotsOf distinct)).imp ?_)
    exact fun apart same => apart (belName_inj same)
  case places =>
    rw [List.map_map]
    exact nodup_slotsOf distinct
  case pins =>
    have names := nodup_pinNames distinct (f := fun loc kind pin => (belName loc kind, pin)) <| by
      intro _ _ _ _ _ _ same
      obtain ⟨bels, pins⟩ := Prod.mk.inj same
      exact ⟨belName_inj bels, pins⟩
    simpa [slotBlueprint, List.map_flatMap, Function.comp_def] using names

end Distinct

end Tile

namespace GridSpec

variable (spec : GridSpec)

/-- The places of all bels with their kinds. -/
def slots : List (Loc × BelKind) := spec.tiles.flatMap fun (x, y) => Tile.slots x y

theorem tilesBlueprint_eq : spec.tilesBlueprint =
    { wires := spec.slots.flatMap fun slot => (Tile.slotBlueprint slot.1 slot.2).wires
      bels := spec.slots.map fun slot =>
        ⟨Tile.belName slot.1 slot.2, slot.2.typeName, slot.1, false⟩
      pins := spec.slots.flatMap fun slot => (Tile.slotBlueprint slot.1 slot.2).pins } :=
  Tile.blueprints_eq spec.tiles

theorem distinct_tilesBlueprint : spec.tilesBlueprint.Distinct :=
  Tile.distinct_blueprints nodup_tiles

theorem verticalNames_eq : spec.verticalWires.map (·.name) =
    (below spec.width).flatMap fun x => (upTo spec.height).flatMap fun y =>
      (below spec.vertical).map (Channel.verticalName x y) := by
  simp [verticalWires, verticalTracks, List.map_flatMap, Function.comp_def]

theorem horizontalNames_eq : spec.horizontalWires.map (·.name) =
    (below spec.height).flatMap fun y => (upTo spec.width).flatMap fun x =>
      (below spec.horizontal).map (Channel.horizontalName x y) := by
  simp [horizontalWires, horizontalTracks, List.map_flatMap, Function.comp_def]

theorem nodup_channelNames : (spec.channelsBlueprint.wires.map (·.name)).Nodup := by
  rw [channelsBlueprint, List.map_append, List.nodup_append]
  refine ⟨?_, ?_, ?_⟩
  case refine_1 =>
    rw [verticalNames_eq]
    exact nodup_nested nodup_below nodup_upTo nodup_below Channel.verticalName_inj
  case refine_2 =>
    rw [horizontalNames_eq]
    refine nodup_nested (f := fun y x => Channel.horizontalName x y) nodup_below nodup_upTo
      nodup_below fun same => ?_
    obtain ⟨columns, rows, tracks⟩ := Channel.horizontalName_inj same
    exact ⟨rows, columns, tracks⟩
  case refine_3 =>
    rintro _ vertical _ horizontal rfl
    obtain ⟨v, memberV, rfl⟩ := List.mem_map.mp vertical
    obtain ⟨_, memberH, same⟩ := List.mem_map.mp horizontal
    obtain ⟨⟨x, y, i⟩, _, rfl⟩ := List.mem_map.mp memberV
    obtain ⟨⟨x', y', i'⟩, _, rfl⟩ := List.mem_map.mp memberH
    exact Channel.verticalName_ne_horizontalName x y i x' y' i' same.symm

theorem boxesBlueprint_eq : spec.boxesBlueprint =
    { pips := spec.tiles.flatMap fun t => (spec.boxBlueprint t.1 t.2).pips } := by
  ext1 <;> simp [boxesBlueprint, Blueprint.join, boxBlueprint, List.flatMap_map]

theorem pips_blueprint : spec.blueprint.pips =
    spec.tiles.flatMap fun t => (spec.boxBlueprint t.1 t.2).pips := by
  rw [blueprint, boxesBlueprint_eq, tilesBlueprint_eq]
  rfl

theorem pipNames_eq : spec.boxesBlueprint.pips.map (·.name) =
    spec.tiles.flatMap fun t =>
      (Coupling.ofTracks spec.vertical.toNat).map (spec.unwiredBox t.1 t.2).pipName := by
  simp [boxesBlueprint_eq, boxBlueprint, List.map_flatMap, Function.comp_def, SwitchBox.pipPlan]

theorem nodup_pipNames : (spec.boxesBlueprint.pips.map (·.name)).Nodup := by
  rw [pipNames_eq]
  refine nodup_flatMap_of_key id (by simpa using nodup_tiles) (fun t _ => ?_) ?_
  · exact SwitchBox.nodup_pipNames ..
  · rintro ⟨x, y⟩ ⟨x', y'⟩ name left right
    obtain ⟨c, _, rfl⟩ := List.mem_map.mp left
    obtain ⟨c', _, same⟩ := List.mem_map.mp right
    obtain ⟨⟨columns, rows⟩, -⟩ := SwitchBox.pipName_inj (by rfl) same
    exact Prod.ext columns.symm rows.symm

/-- The wire of a bel pin is not one of a channel. -/
theorem tileWire_ne_channelWire {w v : WirePlan} (tile : w ∈ spec.tilesBlueprint.wires)
    (channel : v ∈ spec.channelsBlueprint.wires) : w.name ≠ v.name := by
  rw [tilesBlueprint_eq] at tile
  obtain ⟨⟨loc, kind⟩, -, tile⟩ := List.mem_flatMap.mp tile
  obtain ⟨⟨pin, direction⟩, -, rfl⟩ := List.mem_map.mp tile
  rcases List.mem_append.mp channel with vertical | horizontal
  · obtain ⟨⟨x, y, i⟩, -, rfl⟩ := List.mem_map.mp vertical
    exact Tile.pinWireName_ne_verticalName loc pin x y i
  · obtain ⟨⟨x, y, i⟩, -, rfl⟩ := List.mem_map.mp horizontal
    exact Tile.pinWireName_ne_horizontalName loc pin x y i

/-- Nothing in the blueprint of a grid clashes. -/
theorem distinct_blueprint : spec.blueprint.Distinct := by
  have tiles := spec.distinct_tilesBlueprint
  have tilesPips : spec.tilesBlueprint.pips = [] := by rw [tilesBlueprint_eq]
  have pips := spec.nodup_pipNames
  rw [blueprint]
  rw [boxesBlueprint_eq] at pips ⊢
  constructor
  case wires =>
    simp only [Blueprint.wires_append, List.append_nil, List.map_append, List.nodup_append]
    refine ⟨tiles.wires, spec.nodup_channelNames, ?_⟩
    rintro _ tile _ channel rfl
    obtain ⟨w, tile, named⟩ := List.mem_map.mp tile
    obtain ⟨v, channel, same⟩ := List.mem_map.mp channel
    exact spec.tileWire_ne_channelWire tile channel (named.trans same.symm)
  case pips => simpa [tilesPips, channelsBlueprint] using pips
  case bels => simpa [channelsBlueprint] using tiles.bels
  case places => simpa [channelsBlueprint] using tiles.places
  case pins => simpa [channelsBlueprint] using tiles.pins

end GridSpec

end TileFabric
