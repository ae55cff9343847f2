import TileFabric.Proofs.Routing.Indexes
import TileFabric.Proofs.Routing.Layout

/-!
# The size of a grid

How much of everything the blueprint of a grid holds, and where: its wires belong to its tiles,
and the places of its bels and pips span just the columns and rows of the grid.
-/

set_option autoImplicit false

namespace TileFabric

namespace Tile

theorem length_slots (x y : UInt32) : (slots x y).length = slotCount := by
  rw [slots_eq, List.length_map]
  decide +kernel

theorem length_wires (x y : UInt32) : (blueprint x y).wires.length = 106 := by
  rfl

theorem length_pins (x y : UInt32) : (blueprint x y).pins.length = 106 := by
  rfl

end Tile

namespace GridSpec

variable (spec : GridSpec)

theorem length_tileBels : spec.tilesBlueprint.bels.length =
    spec.width.toNat * spec.height.toNat * Tile.slotCount := by
  rw [tilesBlueprint_eq, List.length_map, slots,
    length_flatMap_of_const fun t _ => Tile.length_slots t.1 t.2, length_tiles]

theorem length_tileWires : spec.tilesBlueprint.wires.length =
    spec.width.toNat * spec.height.toNat * 106 := by
  have flat : spec.tilesBlueprint.wires =
      spec.tiles.flatMap fun t => (Tile.blueprint t.1 t.2).wires := List.flatMap_map ..
  rw [flat, length_flatMap_of_const fun t _ => Tile.length_wires t.1 t.2, length_tiles]

theorem length_tilePins : spec.tilesBlueprint.pins.length =
    spec.width.toNat * spec.height.toNat * 106 := by
  have flat : spec.tilesBlueprint.pins =
      spec.tiles.flatMap fun t => (Tile.blueprint t.1 t.2).pins := List.flatMap_map ..
  rw [flat, length_flatMap_of_const fun t _ => Tile.length_pins t.1 t.2, length_tiles]

theorem length_channelWires : spec.channelsBlueprint.wires.length =
    spec.width.toNat * (spec.height.toNat + 1) * spec.vertical.toNat +
      spec.height.toNat * (spec.width.toNat + 1) * spec.horizontal.toNat := by
  rw [channelsBlueprint, List.length_append, verticalWires, horizontalWires, List.length_map,
    List.length_map, length_verticalTracks, length_horizontalTracks, Nat.mul_assoc, Nat.mul_assoc]

theorem length_boxPips : spec.boxesBlueprint.pips.length =
    spec.width.toNat * spec.height.toNat * SwitchBox.pipCount spec.vertical.toNat := by
  have each : ∀ t ∈ spec.tiles, (spec.boxBlueprint t.1 t.2).pips.length =
      SwitchBox.pipCount spec.vertical.toNat := fun t _ => by
    rw [boxBlueprint, List.length_map, Coupling.length_ofTracks]
  rw [boxesBlueprint_eq, length_flatMap_of_const each, length_tiles]

end GridSpec

namespace GridSpec

variable {spec : GridSpec}

theorem last_lt {n : UInt32} (positive : 0 < n) : n - 1 < n ∧ (n - 1).toNat + 1 = n.toNat := by
  have one : (1 : UInt32) ≤ n := UInt32.le_iff_toNat_le.mpr (UInt32.lt_iff_toNat_lt.mp positive)
  have pred : (n - 1).toNat = n.toNat - 1 := UInt32.toNat_sub_of_le n 1 one
  rw [UInt32.lt_iff_toNat_lt] at positive ⊢
  rw [UInt32.toNat_zero] at positive
  omega

theorem min_last_lt {n c : UInt32} (positive : 0 < n) : min c (n - 1) < n := by
  by_cases small : c ≤ n - 1
  · rw [show min c (n - 1) = c from if_pos small]
    exact UInt32.lt_of_le_of_lt small (last_lt positive).1
  · rw [show min c (n - 1) = n - 1 from if_neg small]
    exact (last_lt positive).1

/-- The slots of a tile lie on it. -/
theorem mem_tiles_of_mem_slots {slot : Loc × BelKind} (member : slot ∈ spec.slots) :
    (slot.1.x, slot.1.y) ∈ spec.tiles :=
  (Tile.mem_slotsOf_iff.mp member).1

/-- Every wire belongs to a tile. -/
theorem inside_of_mem_wires (wide : 0 < spec.width) (high : 0 < spec.height) {w : WirePlan}
    (member : w ∈ spec.blueprint.wires) : w.x < spec.width ∧ w.y < spec.height := by
  rw [blueprint, boxesBlueprint_eq] at member
  simp only [Blueprint.wires_append, List.append_nil, List.mem_append] at member
  rcases member with tile | channel
  · rw [tilesBlueprint_eq] at tile
    obtain ⟨slot, there, tile⟩ := List.mem_flatMap.mp tile
    obtain ⟨⟨pin, direction⟩, -, rfl⟩ := List.mem_map.mp tile
    exact mem_tiles_iff.mp (mem_tiles_of_mem_slots there)
  · rcases List.mem_append.mp channel with vertical | horizontal
    · obtain ⟨⟨x, y, i⟩, track, rfl⟩ := List.mem_map.mp vertical
      exact ⟨(mem_verticalTracks_iff.mp track).1, min_last_lt high⟩
    · obtain ⟨⟨x, y, i⟩, track, rfl⟩ := List.mem_map.mp horizontal
      exact ⟨min_last_lt wide, (mem_horizontalTracks_iff.mp track).1⟩

end GridSpec

namespace Blueprint

/-- The places of all bels and pips. -/
def places (b : Blueprint) : List Loc := b.bels.map (·.loc) ++ b.pips.map (·.loc)

end Blueprint

namespace GridSpec

variable {spec : GridSpec}

theorem mem_tiles_of_mem_places {loc : Loc} (member : loc ∈ spec.blueprint.places) :
    (loc.x, loc.y) ∈ spec.tiles := by
  rw [Blueprint.places, blueprint, boxesBlueprint_eq, tilesBlueprint_eq] at member
  simp only [Blueprint.bels_append, Blueprint.pips_append, channelsBlueprint, List.append_nil,
    List.nil_append, List.mem_append, List.mem_map] at member
  rcases member with ⟨_, ⟨slot, there, rfl⟩, rfl⟩ | ⟨p, boxed, rfl⟩
  · exact mem_tiles_of_mem_slots there
  · obtain ⟨⟨x, y⟩, tile, coupled⟩ := List.mem_flatMap.mp boxed
    obtain ⟨c, -, rfl⟩ := List.mem_map.mp coupled
    exact tile

/-- Every tile has its place among those of the bels. -/
theorem exists_place_of_mem_tiles {x y : UInt32} (tile : (x, y) ∈ spec.tiles) :
    ∃ loc ∈ spec.blueprint.places, loc.x = x ∧ loc.y = y := by
  refine ⟨⟨x, y, 0⟩, List.mem_append_left _ ?_, rfl, rfl⟩
  have slot : ((⟨x, y, 0⟩ : Loc), BelKind.lut4) ∈ spec.slots :=
    Tile.mem_slotsOf_iff.mpr ⟨tile, rfl⟩
  rw [blueprint, tilesBlueprint_eq]
  simp only [Blueprint.bels_append, List.map_append, List.map_map]
  exact List.mem_append_left _ (List.mem_map_of_mem slot)

end GridSpec

namespace Ledger

theorem extent_le_of_forall {coordinates : List UInt32} {n : UInt32}
    (bounded : ∀ c ∈ coordinates, c < n) : extent coordinates ≤ n.toNat := by
  induction coordinates with
  | nil => exact Nat.zero_le _
  | cons c rest ih =>
    have below : c.toNat < n.toNat := UInt32.lt_iff_toNat_lt.mp (bounded c List.mem_cons_self)
    have others := ih fun d member => bounded d (List.mem_cons_of_mem c member)
    rw [extent_cons]
    omega

theorem le_extent_of_mem {coordinates : List UInt32} {c : UInt32} (member : c ∈ coordinates) :
    min (c.toNat + 1) (UInt32.size - 1) ≤ extent coordinates := by
  induction member with
  | head rest =>
    rw [extent_cons]
    exact Nat.le_max_left ..
  | tail d member ih =>
    rw [extent_cons]
    exact Nat.le_trans ih (Nat.le_max_right ..)

/-- Coordinates below a bound that reach it span as many as it says. -/
theorem extent_eq {coordinates : List UInt32} {n : UInt32} (bounded : ∀ c ∈ coordinates, c < n)
    {last : UInt32} (reached : last ∈ coordinates) (next : last.toNat + 1 = n.toNat) :
    extent coordinates = n.toNat := by
  have atMost := extent_le_of_forall bounded
  have atLeast := le_extent_of_mem reached
  have size := n.toNat_lt
  rw [next] at atLeast
  have : UInt32.size = 2 ^ 32 := rfl
  omega

end Ledger

end TileFabric
