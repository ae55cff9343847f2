import Mathlib.Logic.Relation
import TileFabric.Proofs.Routing.GridBuild

/-!
# Where the tracks of a grid lead

In a grid that was built, channel wires can be routed to each other just if their tracks are of
one pair. A box leads from any side to any other, and between the two tracks of a pair; boxes
next to each other share the wires between them. No pip leaves a pair.
-/

set_option autoImplicit false

namespace TileFabric

/-- A wire of a channel: column, row and track. -/
inductive Track where
  | vertical (x y i : UInt32)
  | horizontal (x y i : UInt32)
  deriving DecidableEq, Repr

namespace Track

def name : Track → String
  | vertical x y i => Channel.verticalName x y i
  | horizontal x y i => Channel.horizontalName x y i

/-- The number of a wire in its channel. -/
def index : Track → UInt32
  | vertical _ _ i => i
  | horizontal _ _ i => i

theorem name_inj {a b : Track} (same : a.name = b.name) : a = b := by
  cases a with
  | vertical x y i =>
    cases b with
    | vertical x' y' i' =>
      obtain ⟨rfl, rfl, rfl⟩ := Channel.verticalName_inj same
      rfl
    | horizontal x' y' i' => exact absurd same (Channel.verticalName_ne_horizontalName _ _ _ _ _ _)
  | horizontal x y i =>
    cases b with
    | vertical x' y' i' =>
      exact absurd same.symm (Channel.verticalName_ne_horizontalName _ _ _ _ _ _)
    | horizontal x' y' i' =>
      obtain ⟨rfl, rfl, rfl⟩ := Channel.horizontalName_inj same
      rfl

/-- A wire on a side of the box of a tile. -/
def ofSide (x y : UInt32) : Side → UInt32 → Track
  | .north => vertical x (y + 1)
  | .east => horizontal (x + 1) y
  | .south => vertical x y
  | .west => horizontal x y

@[simp] theorem name_ofSide (x y : UInt32) (side : Side) (i : UInt32) :
    (ofSide x y side i).name = SwitchBox.sideName x y side i := by cases side <;> rfl

@[simp] theorem index_ofSide (x y : UInt32) (side : Side) (i : UInt32) :
    (ofSide x y side i).index = i := by cases side <;> rfl

end Track

namespace Blueprint

/-- A pip leads from one wire to the other. -/
def Hop (b : Blueprint) (source target : String) : Prop :=
  ∃ p ∈ b.pips, p.source = source ∧ p.target = target

/-- Pips lead from one wire to the other. -/
def Routes (b : Blueprint) : String → String → Prop := Relation.ReflTransGen b.Hop

/-- Pips lead from one wire to the other and back. -/
def Linked (b : Blueprint) (s t : String) : Prop := b.Routes s t ∧ b.Routes t s

section Linked

variable {b : Blueprint} {s t u : String}

theorem Linked.refl (s : String) : b.Linked s s := ⟨.refl, .refl⟩

theorem Linked.symm (linked : b.Linked s t) : b.Linked t s := ⟨linked.2, linked.1⟩

theorem Linked.trans (first : b.Linked s t) (second : b.Linked t u) : b.Linked s u :=
  ⟨first.1.trans second.1, second.2.trans first.2⟩

end Linked

end Blueprint

namespace Recorder

/-- A pip leads from one wire to the other. -/
def Hop (r : Recorder) (source target : Symbol) : Prop :=
  ∃ p ∈ r.pips, p.source = source ∧ p.target = target

/-- Pips lead from one wire to the other. -/
def Routes (r : Recorder) : Symbol → Symbol → Prop := Relation.ReflTransGen r.Hop

variable {r : Recorder}

theorem Routes.texts {source target : Symbol} (routes : r.Routes source target) :
    r.blueprint.Routes (r.symbols.text source) (r.symbols.text target) := by
  refine Relation.ReflTransGen.lift r.symbols.text ?_ _ _ routes
  rintro a b ⟨p, member, rfl, rfl⟩
  exact ⟨p.plan r.symbols, List.mem_map_of_mem (Array.mem_toList_iff.mpr member), rfl, rfl⟩

/-- A route between texts is one between their symbols. -/
theorem Sound.routes_iff (sound : r.Sound) {source target : Symbol}
    (leaves : r.symbols.Knows source) (arrives : r.symbols.Knows target) :
    r.Routes source target ↔
      r.blueprint.Routes (r.symbols.text source) (r.symbols.text target) := by
  refine ⟨Routes.texts, fun routes => ?_⟩
  have reached : ∀ text, r.blueprint.Routes (r.symbols.text source) text →
      ∃ s, r.symbols.Knows s ∧ r.symbols.text s = text ∧ r.Routes source s := by
    intro text routes
    induction routes with
    | refl => exact ⟨source, leaves, rfl, .refl⟩
    | tail _ hop ih =>
      obtain ⟨s, known, reads, there⟩ := ih
      obtain ⟨plan, planned, from', to'⟩ := hop
      obtain ⟨p, member, rfl⟩ := List.mem_map.mp planned
      obtain ⟨-, sourceKnown, targetKnown⟩ := sound.knownPips p member
      have same : p.source = s := sourceKnown.eq_of_text known (from'.trans reads.symm)
      exact ⟨p.target, targetKnown, to', there.tail ⟨p, Array.mem_toList_iff.mp member, same, rfl⟩⟩
  obtain ⟨s, known, reads, there⟩ := reached _ routes
  rwa [known.eq_of_text arrives reads] at there

/-- A wire that is declared is found by its name. -/
theorem Sound.wire?_of_hasWireNamed (sound : r.Sound) {name : String} (has : r.HasWireNamed name) :
    ∃ w, r.wire? name = some w ∧ r.symbols.text? w.name = some name := by
  rw [sound.toIndexed.answersLike.wire, Ledger.wire?]
  cases found : r.ledger.wires.find? fun w => r.ledger.symbols.text? w.name = some name with
  | some w =>
    have named := List.find?_some found
    exact ⟨w, rfl, of_decide_eq_true named⟩
  | none =>
    obtain ⟨plan, planned, named⟩ := has
    obtain ⟨w, member, rfl⟩ := List.mem_map.mp planned
    have absent := List.find?_eq_none.mp found w member
    have known : r.symbols.text? w.name = some (r.symbols.text w.name) :=
      (sound.knownWires w member).1
    have reads : r.symbols.text w.name = name := named
    rw [reads] at known
    exact absurd (decide_eq_true known) absent

end Recorder

namespace GridSpec

variable {spec : GridSpec}

/-- The track belongs to a channel of the grid. -/
def HasTrack (spec : GridSpec) : Track → Prop
  | .vertical x y i => x < spec.width ∧ y ≤ spec.height ∧ i < spec.vertical
  | .horizontal x y i => x ≤ spec.width ∧ y < spec.height ∧ i < spec.horizontal

instance : DecidablePred spec.HasTrack
  | .vertical x y i => inferInstanceAs (Decidable (x < _ ∧ y ≤ _ ∧ i < _))
  | .horizontal x y i => inferInstanceAs (Decidable (x ≤ _ ∧ y < _ ∧ i < _))

/-- Every pip of a grid is a coupling of some tile's box. -/
theorem hop_iff {source target : String} : spec.blueprint.Hop source target ↔
    ∃ x y : UInt32, (x, y) ∈ spec.tiles ∧ ∃ c ∈ Coupling.ofTracks spec.vertical.toNat,
      source = SwitchBox.sideName x y c.source (.ofNat c.sourceTrack) ∧
      target = SwitchBox.sideName x y c.target (.ofNat c.targetTrack) := by
  rw [Blueprint.Hop, pips_blueprint]
  constructor
  · rintro ⟨p, boxed, rfl, rfl⟩
    obtain ⟨⟨x, y⟩, tile, coupled⟩ := List.mem_flatMap.mp boxed
    obtain ⟨c, member, rfl⟩ := List.mem_map.mp coupled
    exact ⟨x, y, tile, c, member, rfl, rfl⟩
  · rintro ⟨x, y, tile, c, member, rfl, rfl⟩
    exact ⟨_, List.mem_flatMap.mpr ⟨(x, y), tile, List.mem_map_of_mem member⟩, rfl, rfl⟩

/-- A hop stays among the tracks of one pair. -/
theorem pair_of_hop {source target : String} (hop : spec.blueprint.Hop source target) {a : Track}
    (named : a.name = source) :
    ∃ b : Track, b.name = target ∧ b.index.toNat / 2 = a.index.toNat / 2 := by
  obtain ⟨x, y, -, c, member, rfl, rfl⟩ := hop_iff.mp hop
  obtain ⟨pair, sourceInside, targetInside⟩ := Coupling.tracks_of_mem member
  rw [← Track.name_ofSide] at named
  obtain rfl := Track.name_inj named
  refine ⟨.ofSide x y c.target (.ofNat c.targetTrack), Track.name_ofSide .., ?_⟩
  rw [Track.index_ofSide, Track.index_ofSide, toNat_ofNat_of_le (Nat.le_of_lt sourceInside),
    toNat_ofNat_of_le (Nat.le_of_lt targetInside), pair]

theorem pair_of_routes {a b : Track} (routes : spec.blueprint.Routes a.name b.name) :
    a.index.toNat / 2 = b.index.toNat / 2 := by
  have reached : ∀ text, spec.blueprint.Routes a.name text →
      ∃ c : Track, c.name = text ∧ c.index.toNat / 2 = a.index.toNat / 2 := by
    intro text routes
    induction routes with
    | refl => exact ⟨a, rfl, rfl⟩
    | tail _ hop ih =>
      obtain ⟨c, named, pair⟩ := ih
      obtain ⟨d, there, pair'⟩ := pair_of_hop hop named
      exact ⟨d, there, pair'.trans pair⟩
  obtain ⟨c, named, pair⟩ := reached _ routes
  rw [← Track.name_inj named, pair]

section Boxes

/-- The wire on a track of a side of the box of a tile. -/
def wireName (x y : UInt32) (side : Side) (track : Nat) : String :=
  SwitchBox.sideName x y side (.ofNat track)

variable {x y : UInt32} {i j : Nat}

theorem linked_of_turn (tile : (x, y) ∈ spec.tiles) (turn : Turn) (inside : i < spec.vertical.toNat) :
    spec.blueprint.Linked (wireName x y turn.first i)
      (wireName x y turn.second (Coupling.partner spec.vertical.toNat turn i)) := by
  constructor
  · refine .single (hop_iff.mpr ⟨x, y, tile, ?_⟩)
    exact ⟨_, Coupling.mem_ofTracks_iff.mpr ⟨turn, i, inside, List.mem_cons_self⟩, rfl, rfl⟩
  · refine .single (hop_iff.mpr ⟨x, y, tile, ?_⟩)
    exact ⟨_, Coupling.mem_ofTracks_iff.mpr
      ⟨turn, i, inside, List.mem_cons_of_mem _ List.mem_cons_self⟩, rfl, rfl⟩

/-- A turn that is not crossed keeps the track. -/
theorem linked_of_plain (tile : (x, y) ∈ spec.tiles) (turn : Turn) (plain : turn.crossed = false)
    (inside : i < spec.vertical.toNat) :
    spec.blueprint.Linked (wireName x y turn.first i) (wireName x y turn.second i) := by
  have linked := linked_of_turn tile turn inside
  rwa [Coupling.partner_of_plain plain] at linked

theorem linked_north (tile : (x, y) ∈ spec.tiles) (side : Side) (inside : i < spec.vertical.toNat) :
    spec.blueprint.Linked (wireName x y .north i) (wireName x y side i) := by
  have south := linked_of_plain tile .straightV rfl inside
  cases side with
  | north => exact .refl _
  | east => exact south.trans (linked_of_plain tile .southEast rfl inside)
  | south => exact south
  | west => exact linked_of_plain tile .northWest rfl inside

/-- The turn from north to east and the way back without a crossing lead to the other track. -/
theorem linked_mate (tile : (x, y) ∈ spec.tiles) (inside : i < spec.vertical.toNat)
    (paired : i / 2 < spec.vertical.toNat / 2) :
    spec.blueprint.Linked (wireName x y .north i) (wireName x y .north (Coupling.mate i)) := by
  have crossed := linked_of_turn tile .northEast inside
  have partner : Coupling.partner spec.vertical.toNat .northEast i = Coupling.mate i :=
    if_pos ⟨rfl, paired⟩
  have mateInside := Coupling.partner_lt (n := spec.vertical.toNat) .northEast inside
  rw [partner] at crossed mateInside
  exact crossed.trans (linked_north tile .east mateInside).symm

theorem linked_pair (tile : (x, y) ∈ spec.tiles) (insideI : i < spec.vertical.toNat)
    (insideJ : j < spec.vertical.toNat) (pair : i / 2 = j / 2) :
    spec.blueprint.Linked (wireName x y .north i) (wireName x y .north j) := by
  by_cases same : i = j
  · rw [same]
    exact .refl _
  · have mate : Coupling.mate i = j := by
      unfold Coupling.mate
      split <;> omega
    exact mate ▸ linked_mate tile insideI (by omega)

/-- Boxes in a row share the wires between them. -/
theorem linked_row {k : Nat} (column : k < spec.width.toNat) (row : y < spec.height)
    (inside : i < spec.vertical.toNat) :
    spec.blueprint.Linked (wireName (.ofNat k) y .north i) (wireName 0 y .north i) := by
  have tile : ∀ {k : Nat}, k < spec.width.toNat → (UInt32.ofNat k, y) ∈ spec.tiles := fun small =>
    mem_tiles_iff.mpr ⟨by rwa [UInt32.lt_iff_toNat_lt, toNat_ofNat_of_le (Nat.le_of_lt small)], row⟩
  induction k with
  | zero => exact .refl _
  | succ k ih =>
    have next : UInt32.ofNat (k + 1) = UInt32.ofNat k + 1 := UInt32.ofNat_add k 1
    have here := linked_north (tile column) .west inside
    have before := linked_north (tile (Nat.lt_of_succ_lt column)) .east inside
    rw [next] at here ⊢
    exact (here.trans before.symm).trans (ih (Nat.lt_of_succ_lt column))

/-- Boxes in a column share the wires between them. -/
theorem linked_column {k : Nat} (row : k < spec.height.toNat) (column : x < spec.width)
    (inside : i < spec.vertical.toNat) :
    spec.blueprint.Linked (wireName x (.ofNat k) .north i) (wireName x 0 .north i) := by
  have tile : ∀ {k : Nat}, k < spec.height.toNat → (x, UInt32.ofNat k) ∈ spec.tiles := fun small =>
    mem_tiles_iff.mpr ⟨column, by rwa [UInt32.lt_iff_toNat_lt, toNat_ofNat_of_le (Nat.le_of_lt small)]⟩
  induction k with
  | zero => exact .refl _
  | succ k ih =>
    have next : UInt32.ofNat (k + 1) = UInt32.ofNat k + 1 := UInt32.ofNat_add k 1
    have here := linked_north (tile row) .south inside
    have before := linked_north (tile (Nat.lt_of_succ_lt row)) .north inside
    rw [next] at here ⊢
    exact (here.trans before.symm).trans (ih (Nat.lt_of_succ_lt row))

theorem linked_corner (tile : (x, y) ∈ spec.tiles) (inside : i < spec.vertical.toNat) :
    spec.blueprint.Linked (wireName x y .north i) (wireName 0 0 .north i) := by
  obtain ⟨column, row⟩ := mem_tiles_iff.mp tile
  have along := linked_row (UInt32.lt_iff_toNat_lt.mp column) row inside
  have down := linked_column (UInt32.lt_iff_toNat_lt.mp row)
    (UInt32.lt_of_le_of_lt (UInt32.zero_le) column) inside
  rw [UInt32.ofNat_toNat] at along down
  exact along.trans down

end Boxes

/-- Every track is on a side of some box. -/
theorem exists_side (wide : 0 < spec.width) (high : 0 < spec.height)
    (even : spec.vertical = spec.horizontal) {a : Track} (has : spec.HasTrack a) :
    ∃ x y side, (x, y) ∈ spec.tiles ∧ a = Track.ofSide x y side a.index ∧
      a.index < spec.vertical := by
  cases a with
  | vertical x y i =>
    obtain ⟨column, row, inside⟩ := has
    by_cases last : y = spec.height
    · refine ⟨x, y - 1, .north, mem_tiles_iff.mpr ⟨column, last ▸ (last_lt high).1⟩, ?_, inside⟩
      rw [Track.ofSide, UInt32.sub_add_cancel, Track.index]
    · have below : y < spec.height := UInt32.lt_of_le_of_ne row last
      exact ⟨x, y, .south, mem_tiles_iff.mpr ⟨column, below⟩, rfl, inside⟩
  | horizontal x y i =>
    obtain ⟨column, row, inside⟩ := has
    by_cases last : x = spec.width
    · refine ⟨x - 1, y, .east, mem_tiles_iff.mpr ⟨last ▸ (last_lt wide).1, row⟩, ?_, even ▸ inside⟩
      rw [Track.ofSide, UInt32.sub_add_cancel, Track.index]
    · have below : x < spec.width := UInt32.lt_of_le_of_ne column last
      exact ⟨x, y, .west, mem_tiles_iff.mpr ⟨below, row⟩, rfl, even ▸ inside⟩

theorem linked_track (wide : 0 < spec.width) (high : 0 < spec.height)
    (even : spec.vertical = spec.horizontal) {a : Track} (has : spec.HasTrack a) :
    a.index.toNat < spec.vertical.toNat ∧
      spec.blueprint.Linked a.name (wireName 0 0 .north a.index.toNat) := by
  obtain ⟨x, y, side, tile, located, inside⟩ := exists_side wide high even has
  have small : a.index.toNat < spec.vertical.toNat := UInt32.lt_iff_toNat_lt.mp inside
  have name : a.name = wireName x y side a.index.toNat := by
    rw [wireName, UInt32.ofNat_toNat, ← Track.name_ofSide, ← located]
  refine ⟨small, ?_⟩
  rw [name]
  exact (linked_north tile side small).symm.trans (linked_corner tile small)

/-- Tracks can be routed to each other just if they are of one pair. -/
theorem routes_iff_pair (wide : 0 < spec.width) (high : 0 < spec.height)
    (even : spec.vertical = spec.horizontal) {a b : Track} (hasA : spec.HasTrack a)
    (hasB : spec.HasTrack b) :
    spec.blueprint.Routes a.name b.name ↔ a.index.toNat / 2 = b.index.toNat / 2 := by
  refine ⟨pair_of_routes, fun pair => ?_⟩
  obtain ⟨insideA, linkedA⟩ := linked_track wide high even hasA
  obtain ⟨insideB, linkedB⟩ := linked_track wide high even hasB
  have corner : (0, 0) ∈ spec.tiles := mem_tiles_iff.mpr ⟨wide, high⟩
  exact ((linkedA.trans (linked_pair corner insideA insideB pair)).trans linkedB.symm).1

theorem hasWireNamed_of_hasTrack {r : Recorder} (held : r.blueprint = spec.blueprint) {a : Track}
    (has : spec.HasTrack a) : r.HasWireNamed a.name := by
  have channel : ∃ w ∈ spec.channelsBlueprint.wires, w.name = a.name := by
    cases a with
    | vertical x y i =>
      exact ⟨_, List.mem_append_left _ (List.mem_map_of_mem (mem_verticalTracks_iff.mpr has)), rfl⟩
    | horizontal x y i =>
      obtain ⟨column, row, inside⟩ := has
      exact ⟨_, List.mem_append_right _
        (List.mem_map_of_mem (mem_horizontalTracks_iff.mpr ⟨row, column, inside⟩)), rfl⟩
  obtain ⟨w, member, named⟩ := channel
  refine ⟨w, ?_, named⟩
  rw [held, blueprint]
  exact List.mem_append_right _ (List.mem_append_left _ member)

/-- The wires of channels are those of tracks. -/
theorem exists_track_of_routing {r : Recorder} (held : r.blueprint = spec.blueprint) {w : Wire}
    (member : w ∈ r.wiresOfType Channel.routing) :
    ∃ a : Track, spec.HasTrack a ∧ r.symbols.text w.name = a.name := by
  obtain ⟨declared, typed⟩ := List.mem_filter.mp member
  have planned : w.plan r.symbols ∈ spec.blueprint.wires := held ▸ List.mem_map_of_mem declared
  have routing : (w.plan r.symbols).wireType = Channel.routing := of_decide_eq_true typed
  have name : (w.plan r.symbols).name = r.symbols.text w.name := rfl
  rw [← name]
  rw [blueprint, boxesBlueprint_eq] at planned
  simp only [Blueprint.wires_append, List.append_nil, List.mem_append] at planned
  rcases planned with tile | channel
  · exact absurd routing (spec.wireType_of_tileWire tile)
  · rcases List.mem_append.mp channel with vertical | horizontal
    · obtain ⟨⟨x, y, i⟩, track, same⟩ := List.mem_map.mp vertical
      exact ⟨.vertical x y i, mem_verticalTracks_iff.mp track, by rw [← same]; rfl⟩
    · obtain ⟨⟨x, y, i⟩, track, same⟩ := List.mem_map.mp horizontal
      obtain ⟨row, column, inside⟩ := mem_horizontalTracks_iff.mp track
      exact ⟨.horizontal x y i, ⟨column, row, inside⟩, by rw [← same]; rfl⟩

/-- A square grid with as many wires in every channel is built. Its channel wires are those of
its tracks, and pips lead from one to another just if their tracks are of one pair. -/
theorem tracks_route_iff_pair {spec : GridSpec} (square : spec.shape = .square)
    (even : spec.vertical = spec.horizontal) (wide : 0 < spec.width) (high : 0 < spec.height)
    (log : Log) :
    ∃ (summary : GridSummary) (site : BuildSite),
      (Build.grid spec).run ⟨.empty, log⟩ = (.ok summary, site) ∧
      (∀ w ∈ site.recorder.wiresOfType Channel.routing,
        ∃ a : Track, spec.HasTrack a ∧ site.recorder.symbols.text w.name = a.name) ∧
      ∀ a b : Track, spec.HasTrack a → spec.HasTrack b →
        ∃ A B : Wire, site.recorder.wire? a.name = some A ∧ site.recorder.wire? b.name = some B ∧
          (site.recorder.Routes A.name B.name ↔ a.index.toNat / 2 = b.index.toNat / 2) := by
  obtain ⟨r, message, run, sound, held⟩ := spec.run_grid_of_fits (.inr (.inr ⟨square, even⟩)) log
  refine ⟨_, _, run, fun w member => exists_track_of_routing held member, fun a b hasA hasB => ?_⟩
  obtain ⟨A, foundA, readsA⟩ := sound.wire?_of_hasWireNamed (hasWireNamed_of_hasTrack held hasA)
  obtain ⟨B, foundB, readsB⟩ := sound.wire?_of_hasWireNamed (hasWireNamed_of_hasTrack held hasB)
  refine ⟨A, B, foundA, foundB, ?_⟩
  rw [sound.routes_iff (SymbolTable.knows_of_text? readsA) (SymbolTable.knows_of_text? readsB),
    SymbolTable.text_of_text? readsA, SymbolTable.text_of_text? readsB, held]
  exact routes_iff_pair wide high even hasA hasB

/-- Two tiles between channels of three wires each, the last one without a partner. -/
def oddGrid : GridSpec where
  width := 2
  height := 1
  vertical := 3
  horizontal := 3
  shape := .square
  delay := default

/-- Across the tiles the first two wires are joined, and the third is apart from them. -/
theorem oddGrid_tracks_route : ∃ (summary : GridSummary) (site : BuildSite),
    (Build.grid oddGrid).run ⟨.empty, .empty⟩ = (.ok summary, site) ∧
    (∃ A B : Wire, site.recorder.wire? "V_X0Y0_0" = some A ∧
      site.recorder.wire? "H_X2Y0_1" = some B ∧ site.recorder.Routes A.name B.name) ∧
    ∃ A B : Wire, site.recorder.wire? "V_X0Y0_0" = some A ∧
      site.recorder.wire? "H_X2Y0_2" = some B ∧ ¬ site.recorder.Routes A.name B.name := by
  have square : oddGrid.shape = .square := rfl
  obtain ⟨summary, site, run, -, routes⟩ :=
    tracks_route_iff_pair square rfl (by decide) (by decide) .empty
  have first : oddGrid.HasTrack (.vertical 0 0 0) := by decide
  have second : oddGrid.HasTrack (.horizontal 2 0 1) := by decide
  have third : oddGrid.HasTrack (.horizontal 2 0 2) := by decide
  refine ⟨summary, site, run, ?_, ?_⟩
  · obtain ⟨A, B, foundA, foundB, joined⟩ := routes _ _ first second
    exact ⟨A, B, foundA, foundB, joined.mpr (by decide)⟩
  · obtain ⟨A, B, foundA, foundB, joined⟩ := routes _ _ first third
    exact ⟨A, B, foundA, foundB, fun leads => absurd (joined.mp leads) (by decide)⟩

end GridSpec

end TileFabric
