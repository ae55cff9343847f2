import TileFabric.Proofs.Routing.GridDeclares

/-!
# What becomes of a grid

A grid is built on a fresh recorder just if it has no box at all or its boxes are square and even.
Then the recorder holds its blueprint and the summary counts it. Otherwise the first box is
refused, when the tiles and the channels are there and no pip is.
-/

set_option autoImplicit false

namespace TileFabric

namespace GridSpec

variable (spec : GridSpec)

/-- A grid has no tile, or its boxes have as many wires on every side. -/
def Fits : Prop :=
  spec.width = 0 ∨ spec.height = 0 ∨ (spec.shape = .square ∧ spec.vertical = spec.horizontal)

instance : Decidable spec.Fits :=
  inferInstanceAs (Decidable (spec.width = 0 ∨ spec.height = 0 ∨
    (spec.shape = .square ∧ spec.vertical = spec.horizontal)))

/-- What stands against the first box of a grid that does not fit. -/
def refusal : RoutingError :=
  match spec.shape with
  | .square =>
    .wireCountMismatch "sq_usb_x0y0" spec.vertical.toNat spec.horizontal.toNat spec.vertical.toNat
      spec.horizontal.toNat
  | .rectangular => .notImplemented "rectangular switch box rect_usb_x0y0"

variable {spec} {base : Recorder}

theorem tiles_of_empty (empty : spec.width = 0 ∨ spec.height = 0) : spec.tiles = [] := by
  rw [← List.length_eq_zero_iff, length_tiles]
  rcases empty with zero | zero <;> simp [zero]

theorem below_of_positive {n : UInt32} (positive : 0 < n) : ∃ rest, below n = 0 :: rest := by
  obtain ⟨k, counted⟩ : ∃ k, n.toNat = k + 1 :=
    Nat.exists_eq_succ_of_ne_zero (Nat.ne_of_gt (UInt32.lt_iff_toNat_lt.mp positive))
  exact ⟨_, by rw [below, counted, List.range_succ_eq_map, List.map_cons]; rfl⟩

theorem tiles_of_positive (wide : 0 < spec.width) (high : 0 < spec.height) :
    ∃ rest, spec.tiles = (0, 0) :: rest := by
  obtain ⟨columns, wide⟩ := below_of_positive wide
  obtain ⟨rows, high⟩ := below_of_positive high
  exact ⟨_, by rw [tiles, wide, high, List.flatMap_cons, List.map_cons, List.cons_append]⟩

theorem declares_boxes_of_fits (fits : spec.Fits)
    (channels : ∀ w ∈ spec.channelsBlueprint.wires, base.HasWireNamed w.name) :
    Declares base spec.declareBoxes spec.boxesBlueprint fun n _ =>
      n = spec.boxesBlueprint.pips.length := by
  have nothing (empty : spec.width = 0 ∨ spec.height = 0) :
      Declares base spec.declareBoxes spec.boxesBlueprint fun n _ =>
        n = spec.boxesBlueprint.pips.length := by
    have tiles := tiles_of_empty empty
    rw [declareBoxes, boxesBlueprint, tiles]
    exact Declares.pure fun _ _ => rfl
  rcases fits with zero | zero | ⟨square, even⟩
  · exact nothing (.inl zero)
  · exact nothing (.inr zero)
  · exact spec.declares_boxes square even channels

/-- The box of a grid that does not fit says so. -/
theorem tracks_of_unfit {box : SwitchBox} (unfit : ¬ spec.Fits) (placed : box.x = 0 ∧ box.y = 0)
    (shape : box.shape = spec.shape) (wired : box.Wired base spec.sideCount) :
    box.tracks = .error spec.refusal := by
  have north : box.north.length = spec.vertical.toNat := wired.length .north
  have east : box.east.length = spec.horizontal.toNat := wired.length .east
  have south : box.south.length = spec.vertical.toNat := wired.length .south
  have west : box.west.length = spec.horizontal.toNat := wired.length .west
  simp only [Fits, not_or, not_and] at unfit
  obtain ⟨column, row⟩ := placed
  cases shaped : spec.shape with
  | square =>
    have uneven : spec.horizontal.toNat ≠ spec.vertical.toNat := fun same =>
      unfit.2.2 shaped (UInt32.toNat_inj.mp same).symm
    have name : box.name = "sq_usb_x0y0" := by
      simp [SwitchBox.name, shape, shaped, column, row]
      decide
    simp [SwitchBox.tracks, shape, shaped, north, east, south, west, uneven, refusal,
      SwitchBox.mismatch, name]
  | rectangular =>
    have name : box.name = "rect_usb_x0y0" := by
      simp [SwitchBox.name, shape, shaped, column, row]
      decide
    simp [SwitchBox.tracks, shape, shaped, north, east, south, west, refusal, name]
    decide

theorem run_declareBoxes_of_unfit (unfit : ¬ spec.Fits) {r : Recorder} (sound : r.Sound)
    (distinct : r.blueprint.Distinct) :
    ∃ later, spec.declareBoxes.run r = (.error spec.refusal, later) ∧ later.Sound ∧
      later.blueprint = r.blueprint := by
  have positive := unfit
  simp only [Fits, not_or] at positive
  obtain ⟨rest, tiles⟩ := tiles_of_positive (UInt32.pos_iff_ne_zero.mpr positive.1)
    (UInt32.pos_iff_ne_zero.mpr positive.2.1)
  obtain ⟨box, later, ran, later_sound, -, added, ⟨column, row, shape⟩, wired⟩ :=
    spec.declares_boxAt 0 0 r sound (.refl r) (by simpa using distinct)
  have refused : (box.declare spec.delay).run later = (.error spec.refusal, later) := by
    have planned : (box.plan spec.delay).run later = (.error spec.refusal, later) := by
      rw [SwitchBox.plan, tracks_of_unfit unfit ⟨column, row⟩ shape wired]
      exact run_bind_of_error (run_liftExcept _ _)
    exact run_bind_of_error planned
  refine ⟨later, ?_, later_sound, by simpa using added⟩
  rw [declareBoxes, tiles]
  refine run_bind_of_error ?_
  exact (run_bind_of_ok ran).trans refused

end GridSpec

namespace Build

variable {α : Type}

theorem run_announce (message : String) (site : BuildSite) : (announce message).run site =
    (.ok (), { site with log := site.log.add (.note .info 1 message) }) := rfl

theorem run_declare_of_ok {declarations : Declare α} {r later : Recorder} {a : α}
    (ran : declarations.run r = (.ok a, later)) (log : Log) :
    (declare declarations).run ⟨r, log⟩ = (.ok a, ⟨later, log⟩) := by
  simp only [declare, ExceptT.run_mk]
  rw [ran]

theorem run_declare_of_error {declarations : Declare α} {r later : Recorder} {e : RoutingError}
    (ran : declarations.run r = (.error e, later)) (log : Log) :
    (declare declarations).run ⟨r, log⟩ = (.error e, ⟨later, log.add e.diagnostic⟩) := by
  simp only [declare, ExceptT.run_mk]
  rw [ran]

end Build

namespace Log

/-- Only notes have come in between. -/
structure Notes (log later : Log) : Prop where
  entries : ∃ notes : List Diagnostic, later.entries.toList = log.entries.toList ++ notes ∧
    ∀ d ∈ notes, d.severity = .note
  errorCount : later.errorCount = log.errorCount

theorem Notes.add {log later : Log} (notes : log.Notes later) (code : Category) (number : UInt16)
    (message : String) : log.Notes (later.add (.note code number message)) := by
  obtain ⟨between, joined, all⟩ := notes.entries
  refine ⟨⟨between ++ [.note code number message], ?_, ?_⟩, ?_⟩
  · simp [Log.add, joined]
  · intro d member
    rcases List.mem_append.mp member with old | new
    · exact all d old
    · rw [List.mem_singleton.mp new]
      rfl
  · exact notes.errorCount

theorem Notes.refl (log : Log) : log.Notes log := ⟨⟨[], by simp, by simp⟩, rfl⟩

end Log

namespace GridSpec

variable (spec : GridSpec)

theorem run_front : ∃ one two : Recorder,
    spec.declareTiles.run .empty =
      (.ok ⟨spec.tilesBlueprint.bels.length, spec.tilesBlueprint.pins.length⟩, one) ∧
    spec.declareChannels.run one = (.ok spec.channelsBlueprint.wires.length, two) ∧
    two.Sound ∧ two.blueprint = spec.tilesBlueprint ++ spec.channelsBlueprint := by
  have whole : (spec.tilesBlueprint ++ spec.channelsBlueprint).Distinct := by
    have distinct := spec.distinct_blueprint
    rw [blueprint, ← Blueprint.append_assoc] at distinct
    exact distinct.left
  have nothing : Recorder.empty.blueprint = {} := rfl
  obtain ⟨_, one, tiles, sound, -, added, rfl⟩ := spec.declares_tiles .empty
    Recorder.sound_empty (.refl _) (by simpa [nothing] using whole.left)
  rw [nothing, Blueprint.empty_append] at added
  obtain ⟨_, two, channels, sound', -, added', rfl⟩ := spec.declares_channels one sound
    (.refl _) (by rwa [added])
  exact ⟨one, two, tiles, channels, sound', by rw [added', added]⟩

/-- The log behind the three notes that come before the boxes. -/
def notedLog (log : Log) : Log :=
  ((log.add (.note .info 1 s!"Declaring {spec.width}x{spec.height} logic tiles..")).add
    (.note .info 1 "Declaring routing channels..")).add (.note .info 1 "Declaring switch boxes..")

theorem notes_notedLog (log : Log) : log.Notes (spec.notedLog log) :=
  (((Log.Notes.refl log).add ..).add ..).add ..

theorem run_grid_of_unfit (unfit : ¬ spec.Fits) (log : Log) : ∃ r : Recorder,
    (Build.grid spec).run ⟨.empty, log⟩ =
      (.error spec.refusal, ⟨r, (spec.notedLog log).add spec.refusal.diagnostic⟩) ∧
    r.blueprint = spec.tilesBlueprint ++ spec.channelsBlueprint := by
  obtain ⟨one, two, tiles, channels, sound, held⟩ := spec.run_front
  have distinct : two.blueprint.Distinct := by
    have distinct := spec.distinct_blueprint
    rw [blueprint, ← Blueprint.append_assoc] at distinct
    exact held ▸ distinct.left
  obtain ⟨r, boxes, -, same⟩ := run_declareBoxes_of_unfit unfit sound distinct
  refine ⟨r, ?_, same.trans held⟩
  unfold Build.grid
  rw [run_bind_of_ok (Build.run_announce ..), run_bind_of_ok (Build.run_declare_of_ok tiles _),
    run_bind_of_ok (Build.run_announce ..), run_bind_of_ok (Build.run_declare_of_ok channels _),
    run_bind_of_ok (Build.run_announce ..), run_bind_of_error (Build.run_declare_of_error boxes _)]
  rfl

/-- What a grid that was built sums up to. -/
def summary : GridSummary where
  width := spec.width
  height := spec.height
  bels := spec.tilesBlueprint.bels.length
  belWires := spec.tilesBlueprint.pins.length
  channelWires := spec.channelsBlueprint.wires.length
  pips := spec.boxesBlueprint.pips.length

theorem run_grid_of_fits (fits : spec.Fits) (log : Log) : ∃ (r : Recorder) (message : String),
    (Build.grid spec).run ⟨.empty, log⟩ =
      (.ok spec.summary, ⟨r, (spec.notedLog log).add (.note .info 1 message)⟩) ∧
    r.Sound ∧ r.blueprint = spec.blueprint := by
  obtain ⟨one, two, tiles, channels, sound, held⟩ := spec.run_front
  have wires : ∀ w ∈ spec.channelsBlueprint.wires, two.HasWireNamed w.name := fun w member =>
    ⟨w, by rw [held]; exact List.mem_append_right _ member, rfl⟩
  have joined : two.blueprint ++ spec.boxesBlueprint = spec.blueprint := by
    rw [held, blueprint, Blueprint.append_assoc]
  obtain ⟨_, r, boxes, sound', -, added, rfl⟩ := declares_boxes_of_fits fits wires two sound
    (.refl _) (joined ▸ spec.distinct_blueprint)
  let s := spec.summary
  refine ⟨r, s!"Declared {s.bels} bels, {s.belWires + s.channelWires} wires, {s.pips} pips.",
    ?_, sound', added.trans joined⟩
  unfold Build.grid
  rw [run_bind_of_ok (Build.run_announce ..), run_bind_of_ok (Build.run_declare_of_ok tiles _),
    run_bind_of_ok (Build.run_announce ..), run_bind_of_ok (Build.run_declare_of_ok channels _),
    run_bind_of_ok (Build.run_announce ..), run_bind_of_ok (Build.run_declare_of_ok boxes _),
    run_bind_of_ok (Build.run_announce ..)]
  rfl

end GridSpec

namespace Recorder

/-- The wires of a type. -/
def wiresOfType (r : Recorder) (wireType : String) : List Wire :=
  r.wires.toList.filter fun w => r.symbols.text w.wireType = wireType

variable {r : Recorder} {b : Blueprint}

theorem length_wiresOfType (held : r.blueprint = b) (wireType : String) :
    (r.wiresOfType wireType).length = b.wires.countP (·.wireType = wireType) := by
  rw [← held, wiresOfType, ← List.countP_eq_length_filter, Recorder.blueprint, List.countP_map]
  rfl

theorem sizes_of_blueprint (held : r.blueprint = b) :
    r.wires.size = b.wires.length ∧ r.pips.size = b.pips.length ∧ r.bels.size = b.bels.length ∧
      r.belPins.size = b.pins.length := by
  subst held
  simp [Recorder.blueprint]

/-- Bels and pips keep their places in the blueprint. -/
theorem places_ledger (r : Recorder) : r.ledger.places = r.blueprint.places := by
  simp [Ledger.places, Blueprint.places, ledger, Recorder.blueprint, Bel.plan, Pip.plan,
    Function.comp_def]

end Recorder

namespace GridSpec

variable (spec : GridSpec)

/-- What a grid leaves behind that was built. The declarations are those of the blueprint, so none
was refused, and the summary counts them. -/
structure Built (log : Log) (summary : GridSummary) (site : BuildSite) : Prop where
  declared : site.recorder.blueprint = spec.blueprint
  size : summary.width = spec.width ∧ summary.height = spec.height
  bels : summary.bels = spec.width.toNat * spec.height.toNat * 20 ∧
    site.recorder.bels.size = summary.bels
  belWires : summary.belWires = spec.width.toNat * spec.height.toNat * 106 ∧
    site.recorder.belPins.size = summary.belWires
  channelWires : summary.channelWires =
      spec.width.toNat * (spec.height.toNat + 1) * spec.vertical.toNat +
        spec.height.toNat * (spec.width.toNat + 1) * spec.horizontal.toNat ∧
    (site.recorder.wiresOfType Channel.routing).length = summary.channelWires
  wires : site.recorder.wires.size = summary.belWires + summary.channelWires
  pips : summary.pips =
      spec.width.toNat * spec.height.toNat * SwitchBox.pipCount spec.vertical.toNat ∧
    site.recorder.pips.size = summary.pips
  inside : 0 < spec.width → 0 < spec.height →
    (site.recorder.columns = spec.width ∧ site.recorder.rows = spec.height) ∧
      ∀ w ∈ site.recorder.wires, w.x < spec.width ∧ w.y < spec.height
  notes : log.Notes site.log

/-- What a grid leaves behind whose first box was refused: the tiles and the channels without any
pip, and one error at the end of the log. -/
structure Refused (log : Log) (e : RoutingError) (site : BuildSite) : Prop where
  error : e = spec.refusal
  declared : site.recorder.blueprint = spec.tilesBlueprint ++ spec.channelsBlueprint
  pips : site.recorder.pips = #[]
  reported : e.diagnostic.severity = .error ∧
    ∃ noted : Log, log.Notes noted ∧ site.log = noted.add e.diagnostic

theorem wireType_of_tileWire {w : WirePlan} (member : w ∈ spec.tilesBlueprint.wires) :
    w.wireType ≠ Channel.routing := by
  rw [tilesBlueprint_eq] at member
  obtain ⟨slot, -, member⟩ := List.mem_flatMap.mp member
  obtain ⟨⟨pin, direction⟩, -, rfl⟩ := List.mem_map.mp member
  cases direction <;> simp [Tile.wireTypeText, Channel.routing]

theorem countP_routing : spec.blueprint.wires.countP (·.wireType = Channel.routing) =
    spec.channelsBlueprint.wires.length := by
  have tiles : spec.tilesBlueprint.wires.countP (·.wireType = Channel.routing) = 0 := by
    rw [List.countP_eq_zero]
    intro w member
    simpa using spec.wireType_of_tileWire member
  have channels : spec.channelsBlueprint.wires.countP (·.wireType = Channel.routing) =
      spec.channelsBlueprint.wires.length := by
    rw [List.countP_eq_length]
    intro w member
    rcases List.mem_append.mp member with vertical | horizontal
    · obtain ⟨t, -, rfl⟩ := List.mem_map.mp vertical
      simp
    · obtain ⟨t, -, rfl⟩ := List.mem_map.mp horizontal
      simp
  rw [blueprint, boxesBlueprint_eq]
  simp [tiles, channels]

variable {spec}

/-- The places of a grid span its columns and rows. -/
theorem extents_of_blueprint {r : Recorder} (sound : r.Sound) (held : r.blueprint = spec.blueprint)
    (wide : 0 < spec.width) (high : 0 < spec.height) :
    r.columns = spec.width ∧ r.rows = spec.height := by
  have extents := sound.extents
  rw [Ledger.dimensions, Recorder.places_ledger, held, Prod.mk.injEq] at extents
  obtain ⟨lastColumn, nextColumn⟩ := last_lt wide
  obtain ⟨lastRow, nextRow⟩ := last_lt high
  obtain ⟨corner, member, column, row⟩ :=
    exists_place_of_mem_tiles (mem_tiles_iff.mpr ⟨lastColumn, lastRow⟩)
  have columns : Ledger.extent (spec.blueprint.places.map (·.x)) = spec.width.toNat := by
    refine Ledger.extent_eq ?_ (List.mem_map.mpr ⟨corner, member, column⟩) nextColumn
    intro c there
    obtain ⟨loc, place, rfl⟩ := List.mem_map.mp there
    exact (mem_tiles_iff.mp (mem_tiles_of_mem_places place)).1
  have rows : Ledger.extent (spec.blueprint.places.map (·.y)) = spec.height.toNat := by
    refine Ledger.extent_eq ?_ (List.mem_map.mpr ⟨corner, member, row⟩) nextRow
    intro c there
    obtain ⟨loc, place, rfl⟩ := List.mem_map.mp there
    exact (mem_tiles_iff.mp (mem_tiles_of_mem_places place)).2
  rw [columns, rows] at extents
  exact ⟨UInt32.toNat_inj.mp extents.1, UInt32.toNat_inj.mp extents.2⟩

theorem inside_of_blueprint {r : Recorder} (held : r.blueprint = spec.blueprint)
    (wide : 0 < spec.width) (high : 0 < spec.height) {w : Wire} (member : w ∈ r.wires) :
    w.x < spec.width ∧ w.y < spec.height := by
  have planned : w.plan r.symbols ∈ r.blueprint.wires :=
    List.mem_map_of_mem (Array.mem_toList_iff.mpr member)
  exact inside_of_mem_wires wide high (held ▸ planned)

theorem built_of_run {log : Log} {r : Recorder} (sound : r.Sound)
    (held : r.blueprint = spec.blueprint) (message : String) :
    spec.Built log spec.summary ⟨r, (spec.notedLog log).add (.note .info 1 message)⟩ := by
  obtain ⟨wires, pips, bels, pins⟩ := Recorder.sizes_of_blueprint held
  have tilesPips : spec.tilesBlueprint.pips = [] := by rw [tilesBlueprint_eq]
  have sizes : spec.blueprint.wires.length =
        spec.tilesBlueprint.pins.length + spec.channelsBlueprint.wires.length ∧
      spec.blueprint.pips.length = spec.boxesBlueprint.pips.length ∧
      spec.blueprint.bels.length = spec.tilesBlueprint.bels.length ∧
      spec.blueprint.pins.length = spec.tilesBlueprint.pins.length := by
    rw [blueprint, boxesBlueprint_eq]
    simp [channelsBlueprint, tilesPips, spec.length_tileWires.trans spec.length_tilePins.symm]
  obtain ⟨wiresSize, pipsSize, belsSize, pinsSize⟩ := sizes
  exact
    { declared := held
      size := ⟨rfl, rfl⟩
      bels := ⟨spec.length_tileBels, bels.trans belsSize⟩
      belWires := ⟨spec.length_tilePins, pins.trans pinsSize⟩
      channelWires := ⟨spec.length_channelWires,
        (Recorder.length_wiresOfType held _).trans spec.countP_routing⟩
      wires := wires.trans wiresSize
      pips := ⟨spec.length_boxPips, pips.trans pipsSize⟩
      inside := fun wide high => ⟨extents_of_blueprint sound held wide high,
        fun w member => inside_of_blueprint held wide high member⟩
      notes := (spec.notes_notedLog log).add .. }

theorem refused_of_run {log : Log} {r : Recorder}
    (held : r.blueprint = spec.tilesBlueprint ++ spec.channelsBlueprint) :
    spec.Refused log spec.refusal ⟨r, (spec.notedLog log).add spec.refusal.diagnostic⟩ where
  error := rfl
  declared := held
  pips := by
    have sizes := (Recorder.sizes_of_blueprint held).2.1
    rw [tilesBlueprint_eq] at sizes
    exact Array.eq_empty_of_size_eq_zero sizes
  reported := by
    refine ⟨?_, _, spec.notes_notedLog log, rfl⟩
    unfold refusal
    cases spec.shape <;> rfl

variable (spec)

/-- On a fresh recorder a grid is built just if it has no tile, or square boxes with as many wires
on every side. No neighbour of a tile lies past the greatest coordinate. -/
theorem built_or_refused (log : Log) :
    let outcome := (Build.grid spec).run ⟨.empty, log⟩
    ((∃ summary, outcome.1 = .ok summary) ↔
      spec.width = 0 ∨ spec.height = 0 ∨
        (spec.shape = .square ∧ spec.vertical = spec.horizontal)) ∧
    (∀ summary, outcome.1 = .ok summary → spec.Built log summary outcome.2) ∧
    (∀ e, outcome.1 = .error e → spec.Refused log e outcome.2) ∧
    ∀ x y : UInt32, (x, y) ∈ spec.tiles →
      (x + 1).toNat = x.toNat + 1 ∧ (y + 1).toNat = y.toNat + 1 := by
  intro outcome
  have neighbours : ∀ x y : UInt32, (x, y) ∈ spec.tiles →
      (x + 1).toNat = x.toNat + 1 ∧ (y + 1).toNat = y.toNat + 1 := fun x y tile =>
    ⟨toNat_next (mem_tiles_iff.mp tile).1, toNat_next (mem_tiles_iff.mp tile).2⟩
  by_cases fits : spec.Fits
  · obtain ⟨r, message, run, sound, held⟩ := spec.run_grid_of_fits fits log
    have ran : outcome = _ := run
    rw [ran]
    refine ⟨⟨fun _ => fits, fun _ => ⟨_, rfl⟩⟩, ?_, ?_, neighbours⟩
    · rintro _ ⟨⟩
      exact built_of_run sound held message
    · rintro _ ⟨⟩
  · obtain ⟨r, run, held⟩ := spec.run_grid_of_unfit fits log
    have ran : outcome = _ := run
    rw [ran]
    refine ⟨⟨?_, fun fit => absurd fit fits⟩, ?_, ?_, neighbours⟩
    · rintro ⟨_, ⟨⟩⟩
    · rintro _ ⟨⟩
    · rintro _ ⟨⟩
      exact refused_of_run held

end GridSpec

end TileFabric
