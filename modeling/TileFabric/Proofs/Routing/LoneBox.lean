import TileFabric.Proofs.Routing.GridBuild

/-!
# A box by itself

The box of a tile can be declared without its grid, on wires of its own that are named as the
channels around the tile are. Neither the grid's symbols nor its wires are there, but read out as
texts the pips are those that the grid has on the tile, in the same order.
-/

set_option autoImplicit false

namespace TileFabric

/-- A coordinate below another has a next one. -/
theorem ne_greatest_of_lt {x bound : UInt32} (small : x < bound) : x ≠ 0xFFFFFFFF := by
  rintro rfl
  have greatest : (0xFFFFFFFF : UInt32).toNat = 2 ^ 32 - 1 := rfl
  have bounded := bound.toNat_lt
  rw [UInt32.lt_iff_toNat_lt, greatest] at small
  omega

namespace SwitchBox

/-- The wires around a tile differ by their side or their track. -/
theorem sideName_inj {x y i i' : UInt32} {s s' : Side}
    (same : sideName x y s i = sideName x y s' i') : s = s' ∧ i = i' := by
  have next (c : UInt32) : c + 1 ≠ c := by simp
  cases s <;> cases s' <;> simp only [sideName] at same
  case north.north | south.south => exact ⟨rfl, (Channel.verticalName_inj same).2.2⟩
  case east.east | west.west => exact ⟨rfl, (Channel.horizontalName_inj same).2.2⟩
  case north.south => exact absurd (Channel.verticalName_inj same).2.1 (next y)
  case south.north => exact absurd (Channel.verticalName_inj same).2.1.symm (next y)
  case east.west => exact absurd (Channel.horizontalName_inj same).1 (next x)
  case west.east => exact absurd (Channel.horizontalName_inj same).1.symm (next x)
  case north.east | north.west | south.east | south.west =>
    exact (Channel.verticalName_ne_horizontalName _ _ _ _ _ _ same).elim
  case east.north | west.north | east.south | west.south =>
    exact (Channel.verticalName_ne_horizontalName _ _ _ _ _ _ same.symm).elim

end SwitchBox

namespace Channel

/-- These are the symbols of a channel's wires, and the wires are declared. -/
def Laid (r : Recorder) (name : UInt32 → String) (count : UInt32) (side : List Symbol) : Prop :=
  Named r name count side ∧ ∀ i < count, r.HasWireNamed (name i)

theorem Laid.grows {r later : Recorder} {name : UInt32 → String} {count : UInt32}
    {side : List Symbol} (laid : Laid r name count side) (grows : r.Grows later) :
    Laid later name count side :=
  ⟨laid.1.grows grows, fun i inside => grows.hasWireNamed (laid.2 i inside)⟩

end Channel

namespace GridSpec

variable {base : Recorder}

theorem declares_side (name : UInt32 → UInt32 → UInt32 → String) (x y count : UInt32) :
    Declares base (declareSide name x y count)
      { wires := (below count).map fun i => ⟨name x y i, Channel.routing, x, y⟩ } fun side later =>
      Channel.Laid later (name x y) count side := by
  rw [← Blueprint.join_wires]
  refine (Declares.symbol _).bindSilent fun wireType one grown typed => ?_
  refine (Declares.mapM (fun i s later =>
    later.symbols.text? s = some (name x y i) ∧ later.HasWireNamed (name x y i)) ?_ ?_).imp ?_
  · exact fun grows ⟨named, declared⟩ => ⟨grows.symbols.reads named, grows.hasWireNamed declared⟩
  · intro i _ two grown'
    refine (Declares.symbol _).bindSilent fun s three grown'' named => ?_
    replace typed := (grown'.trans grown'').symbols.reads typed
    have wired := Declares.wire (w := ⟨s, wireType, x, y⟩) named typed
    exact wired.map fun _ later grows declared => ⟨grows.symbols.reads named, declared⟩
  · intro side later _ each
    refine ⟨.of_forall₂ (each.imp fun _ _ both => both.1), fun i inside => ?_⟩
    obtain ⟨s, -, -, declared⟩ := exists_of_forall₂ each.flip (mem_below_iff.mpr inside)
    exact declared

variable (spec : GridSpec)

/-- The wires of one side of a box by itself. Those of the north and the east are placed on the
neighbouring tiles. -/
def sideBlueprint (x y : UInt32) (s : Side) : Blueprint where
  wires := (below (spec.sideCount s)).map fun i =>
    ⟨SwitchBox.sideName x y s i, Channel.routing, if s = .east then x + 1 else x,
      if s = .north then y + 1 else y⟩

/-- All that a box by itself declares. -/
def loneBlueprint (x y : UInt32) : Blueprint :=
  spec.sideBlueprint x y .north ++ (spec.sideBlueprint x y .east ++
    (spec.sideBlueprint x y .south ++ (spec.sideBlueprint x y .west ++ spec.boxBlueprint x y)))

theorem distinct_loneBlueprint (x y : UInt32) : (spec.loneBlueprint x y).Distinct := by
  constructor
  case wires =>
    have names : ([Side.north, .east, .south, .west].flatMap fun s =>
        (below (spec.sideCount s)).map (SwitchBox.sideName x y s)).Nodup := by
      refine nodup_flatMap_of_key id (by decide) (fun s _ => ?_) ?_
      · exact nodup_below.map fun i i' same => (SwitchBox.sideName_inj same).2
      · intro s s' name left right
        obtain ⟨i, -, rfl⟩ := List.mem_map.mp left
        obtain ⟨i', -, same⟩ := List.mem_map.mp right
        exact (SwitchBox.sideName_inj same).1.symm
    simpa [loneBlueprint, sideBlueprint, boxBlueprint, Function.comp_def] using names
  case pips =>
    simpa [loneBlueprint, sideBlueprint, boxBlueprint, SwitchBox.pipPlan, Function.comp_def] using
      (spec.unwiredBox x y).nodup_pipNames spec.vertical.toNat
  all_goals simp [loneBlueprint, sideBlueprint, boxBlueprint]

theorem declares_loneBox (square : spec.shape = .square) (even : spec.vertical = spec.horizontal)
    {x y : UInt32} (column : x ≠ 0xFFFFFFFF) (row : y ≠ 0xFFFFFFFF) :
    Declares base (spec.declareBox x y) (spec.loneBlueprint x y) fun n _ =>
      n = (spec.boxBlueprint x y).pips.length := by
  have counts (s : Side) : spec.sideCount s = spec.vertical := by cases s <;> simp [sideCount, even]
  rw [declareBox, if_neg (by simp [column, row])]
  -- What is known of the first side has to be carried past the other three.
  refine (declares_side _ _ _ _).bind fun north one _ northLaid => ?_
  refine (declares_side _ _ _ _).bind fun east two first eastLaid => ?_
  refine (declares_side _ _ _ _).bind fun south three second southLaid => ?_
  refine (declares_side _ _ _ _).bind fun west four third westLaid => ?_
  let box : SwitchBox := { x, y, shape := spec.shape, north, east, south, west }
  have laid (s : Side) :
      Channel.Laid four (SwitchBox.sideName x y s) spec.vertical (box.side s) := by
    rw [← counts s]
    cases s with
    | north => exact northLaid.grows ((first.trans second).trans third)
    | east => exact eastLaid.grows (second.trans third)
    | south => exact southLaid.grows third
    | west => exact westLaid
  have wired : box.Wired four fun _ => spec.vertical := fun s => (laid s).1
  have length : (spec.boxBlueprint x y).pips.length =
      (Coupling.ofTracks spec.vertical.toNat).length := List.length_map _
  rw [length]
  refine SwitchBox.declares spec.delay square wired fun s track inside => (laid s).2 _ ?_
  rwa [UInt32.lt_iff_toNat_lt, toNat_ofNat_of_le (Nat.le_of_lt inside)]

/-- On its tile a grid has the pips of the tile's box. -/
theorem filter_boxPips {x y : UInt32} (tile : (x, y) ∈ spec.tiles) :
    spec.blueprint.pips.filter (fun p => p.loc = ⟨x, y, 0⟩) = (spec.boxBlueprint x y).pips := by
  rw [pips_blueprint]
  refine filter_flatMap_of_key (i := (x, y)) nodup_tiles tile ?_
  rintro ⟨x', y'⟩ _ p there
  obtain ⟨c, -, rfl⟩ := List.mem_map.mp there
  simp [SwitchBox.pipPlan, unwiredBox]

/-- What a square box by itself declares reads as the pips of the box on its tile. -/
theorem pips_of_declareBox (square : spec.shape = .square)
    (even : spec.vertical = spec.horizontal) {x y : UInt32} (column : x < spec.width)
    (row : y < spec.height) : ∃ alone : Recorder,
      (spec.declareBox x y).run .empty = (.ok alone.pips.size, alone) ∧
      alone.pips.toList.map (·.plan alone.symbols) = (spec.boxBlueprint x y).pips := by
  have nothing : Recorder.empty.blueprint = {} := rfl
  obtain ⟨_, alone, ran, -, -, held, rfl⟩ := spec.declares_loneBox square even
    (ne_greatest_of_lt column) (ne_greatest_of_lt row) .empty Recorder.sound_empty (.refl _)
    (by simpa [nothing] using spec.distinct_loneBlueprint x y)
  rw [nothing, Blueprint.empty_append] at held
  have pips : alone.pips.toList.map (·.plan alone.symbols) = (spec.boxBlueprint x y).pips := by
    change alone.blueprint.pips = _
    rw [held]
    simp [loneBlueprint, sideBlueprint]
  have size : alone.pips.size = (spec.boxBlueprint x y).pips.length := by
    rw [← pips, List.length_map, Array.length_toList]
  exact ⟨alone, size ▸ ran, pips⟩

/-- A square box by itself has, text by text and in the same order, the pips that a grid of such
boxes has on its tile. -/
theorem lonePips_eq_gridPips (square : spec.shape = .square)
    (even : spec.vertical = spec.horizontal) {x y : UInt32} (column : x < spec.width)
    (row : y < spec.height) (log : Log) :
    ∃ (alone : Recorder) (summary : GridSummary) (site : BuildSite),
      (spec.declareBox x y).run .empty = (.ok alone.pips.size, alone) ∧
      (Build.grid spec).run ⟨.empty, log⟩ = (.ok summary, site) ∧
      alone.pips.toList.map (·.plan alone.symbols) =
        (site.recorder.pips.toList.filter (·.loc = ⟨x, y, 0⟩)).map
          (·.plan site.recorder.symbols) := by
  obtain ⟨alone, ran, pips⟩ := spec.pips_of_declareBox square even column row
  obtain ⟨r, message, built, -, heldGrid⟩ := spec.run_grid_of_fits (.inr (.inr ⟨square, even⟩)) log
  have gridPips : (r.pips.toList.filter (·.loc = ⟨x, y, 0⟩)).map (·.plan r.symbols) =
      (spec.boxBlueprint x y).pips := by
    rw [← spec.filter_boxPips (mem_tiles_iff.mpr ⟨column, row⟩), ← heldGrid, Recorder.blueprint,
      List.filter_map]
    rfl
  exact ⟨alone, _, _, ran, built, pips.trans gridPips.symm⟩

/-- Four tiles whose boxes have a pair of tracks and one more. -/
def fourTiles : GridSpec where
  width := 2
  height := 2
  vertical := 3
  horizontal := 3
  shape := .square
  delay := default

/-- The box in the corner takes its north and east wires from past the last tile. It has 36 pips,
and one of them turns from north to east onto the other track of its pair. -/
theorem fourTiles_corner_pips :
    (fourTiles.shape = .square ∧ fourTiles.vertical = fourTiles.horizontal) ∧
      ((1 : UInt32) < fourTiles.width ∧ (1 : UInt32) < fourTiles.height) ∧
      ∃ (alone : Recorder) (summary : GridSummary) (site : BuildSite),
        (fourTiles.declareBox 1 1).run .empty = (.ok alone.pips.size, alone) ∧
        (Build.grid fourTiles).run ⟨.empty, .empty⟩ = (.ok summary, site) ∧
        alone.pips.toList.map (·.plan alone.symbols) =
          (site.recorder.pips.toList.filter (·.loc = ⟨1, 1, 0⟩)).map
            (·.plan site.recorder.symbols) ∧
        alone.pips.size = 36 ∧
        ⟨"sq_usb_x1y1ne0", "sq_usb_ne", "V_X1Y2_0", "H_X2Y1_1", default, ⟨1, 1, 0⟩⟩ ∈
          alone.pips.toList.map (·.plan alone.symbols) := by
  have square : fourTiles.shape = .square := rfl
  have even : fourTiles.vertical = fourTiles.horizontal := rfl
  have inside : (1 : UInt32) < fourTiles.width ∧ (1 : UInt32) < fourTiles.height := by decide
  obtain ⟨alone, summary, site, ran, built, same⟩ :=
    lonePips_eq_gridPips fourTiles square even inside.1 inside.2 .empty
  obtain ⟨_, ran', planned⟩ := pips_of_declareBox fourTiles square even inside.1 inside.2
  obtain rfl := congrArg Prod.snd (ran'.symm.trans ran)
  have size := congrArg List.length planned
  rw [List.length_map, Array.length_toList] at size
  refine ⟨⟨square, even⟩, inside, _, summary, site, ran, built, same, size.trans ?_, planned ▸ ?_⟩
  · decide +kernel
  · decide +kernel

end GridSpec

end TileFabric
