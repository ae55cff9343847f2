import TileFabric.Proofs.Routing.Declaring
import TileFabric.Proofs.Routing.GridSize

/-!
# Tiles, channels and boxes declare their layout

Each of the three stages of a grid adds its part of the blueprint and counts it. The boxes need
their sides to be as long as each other, and the wires of the channels to be there.
-/

set_option autoImplicit false

namespace TileFabric

variable {base : Recorder}

namespace Tile

def pinBlueprint (loc : Loc) (kind : BelKind) (pin : String × PinDirection) : Blueprint where
  wires := [⟨pinWireName loc pin.1, wireTypeText pin.2, loc.x, loc.y⟩]
  pins := [⟨belName loc kind, pin.1, pinWireName loc pin.1, pin.2⟩]

theorem slotBlueprint_eq (loc : Loc) (kind : BelKind) : slotBlueprint loc kind =
    { bels := [⟨belName loc kind, kind.typeName, loc, false⟩] } ++
      .join (kind.pins.map (pinBlueprint loc kind)) := by
  ext1 <;> simp [slotBlueprint, pinBlueprint, Blueprint.join, List.flatMap_map,
    ← List.map_eq_flatMap]

theorem declares_pin (loc : Loc) (kind : BelKind) {bel wireType : Symbol} (pin : String)
    (direction : PinDirection) (owned : base.symbols.text? bel = some (belName loc kind))
    (owner : base.HasBelNamed (belName loc kind))
    (typed : base.symbols.text? wireType = some (wireTypeText direction)) :
    Declares base (declarePin loc bel wireType pin direction)
      (pinBlueprint loc kind (pin, direction)) fun _ _ => True := by
  have split : pinBlueprint loc kind (pin, direction) =
      { wires := (pinBlueprint loc kind (pin, direction)).wires } ++
        { pins := (pinBlueprint loc kind (pin, direction)).pins } := rfl
  rw [split]
  refine (Declares.symbol _).bindSilent fun name one grown named => ?_
  refine (Declares.symbol pin).bindSilent fun pinName two grown' pinNamed => ?_
  replace named := grown'.symbols.reads named
  replace typed := (grown.trans grown').symbols.reads typed
  refine (Declares.wire named typed).bind fun _ three grown'' declared => ?_
  have grows : base.Grows three := (grown.trans grown').trans grown''
  exact Declares.belPin (grows.symbols.reads owned) (grows.hasBelNamed owner)
    (grown''.symbols.reads pinNamed) (grown''.symbols.reads named) declared

theorem declares_slot (loc : Loc) (kind : BelKind) {wireType : PinDirection → Symbol}
    (typed : ∀ direction : PinDirection,
      base.symbols.text? (wireType direction) = some (wireTypeText direction)) :
    Declares base (declareSlot wireType loc kind) (slotBlueprint loc kind) fun n _ =>
      n = (slotBlueprint loc kind).pins.length := by
  have counted : (slotBlueprint loc kind).pins.length = kind.pins.length := List.length_map _
  rw [counted, slotBlueprint_eq]
  refine (Declares.symbol _).bindSilent fun bel one grown named => ?_
  refine (Declares.symbol _).bindSilent fun belType two grown' kinded => ?_
  replace named := grown'.symbols.reads named
  refine (Declares.bel named kinded).bind fun _ three grown'' declared => ?_
  refine (Declares.forM fun pin _ later grows => ?_).map fun _ _ _ _ => rfl
  have growth : base.Grows later := ((grown.trans grown').trans grown'').trans grows
  exact declares_pin loc kind pin.1 pin.2 ((grown''.trans grows).symbols.reads named)
    (grows.hasBelNamed declared) (growth.symbols.reads (typed pin.2))

theorem declares (x y : UInt32) : Declares base (declare x y) (blueprint x y) fun counts _ =>
    counts = ⟨(blueprint x y).bels.length, (blueprint x y).pins.length⟩ := by
  have bels : (blueprint x y).bels.length = (slots x y).length := (length_slots x y).symm
  rw [bels]
  refine (Declares.symbol _).bindSilent fun inputType one grown inputs => ?_
  refine (Declares.symbol _).bindSilent fun outputType two grown' outputs => ?_
  refine (Declares.countEach (fun b => b.pins.length) rfl (fun _ _ => List.length_append)
    fun slot _ later grows => ?_).map fun n last _ counted => ?_
  · refine declares_slot slot.1 slot.2 fun direction => grows.symbols.reads ?_
    by_cases input : direction = .input
    · simpa [wireTypeText, input] using grown'.symbols.reads inputs
    · simpa [wireTypeText, input] using outputs
  · rw [counted]
    rfl

end Tile

namespace Blueprint

variable {ι : Type} (items : List ι)

theorem join_nothing : join (items.map fun _ => {}) = {} := by
  ext1 <;> simp [join]

theorem join_wires (plan : ι → WirePlan) :
    join (items.map fun i => { wires := [plan i] }) = { wires := items.map plan } := by
  ext1 <;> simp [join, List.flatMap_map, ← List.map_eq_flatMap]

theorem join_pips (plan : ι → PipPlan) :
    join (items.map fun i => { pips := [plan i] }) = { pips := items.map plan } := by
  ext1 <;> simp [join, List.flatMap_map, ← List.map_eq_flatMap]

end Blueprint

namespace GridSpec

variable (spec : GridSpec)

theorem declares_tiles : Declares base spec.declareTiles spec.tilesBlueprint fun counts _ =>
    counts = ⟨spec.tilesBlueprint.bels.length, spec.tilesBlueprint.pins.length⟩ := by
  refine (Declares.mapM _ (fun _ same => same) fun t _ later _ => Tile.declares t.1 t.2).map ?_
  intro counts later _ each
  rw [tilesBlueprint]
  generalize spec.tiles = tiles at each ⊢
  induction each with
  | nil => rfl
  | cons head _ ih =>
    rw [List.foldr_cons, ih, head, List.map_cons, Blueprint.join_cons]
    simp [Tile.Counts.add]

theorem declares_named (w : WirePlan) {wireType : Symbol}
    (typed : base.symbols.text? wireType = some w.wireType) :
    Declares base
      (do
        let name ← Declare.symbol w.name
        Declare.wire { name, wireType, x := w.x, y := w.y })
      { wires := [w] } fun _ _ => True := by
  refine (Declares.symbol w.name).bindSilent fun name one grown named => ?_
  replace typed := grown.symbols.reads typed
  exact (Declares.wire (w := ⟨name, wireType, w.x, w.y⟩) named typed).imp fun _ _ _ _ => trivial

theorem declares_channels : Declares base spec.declareChannels spec.channelsBlueprint fun n _ =>
    n = spec.channelsBlueprint.wires.length := by
  have split : spec.channelsBlueprint =
      { wires := spec.verticalWires } ++ { wires := spec.horizontalWires } := rfl
  have counted : spec.channelsBlueprint.wires.length =
      spec.verticalTracks.length + spec.horizontalTracks.length := by
    simp [channelsBlueprint, verticalWires, horizontalWires]
  rw [counted, split, verticalWires, horizontalWires, ← Blueprint.join_wires, ← Blueprint.join_wires]
  refine (Declares.symbol _).bindSilent fun wireType one grown typed => ?_
  refine (Declares.forM fun t _ later grows => ?_).bind fun _ two grown' _ => ?_
  · exact declares_named ⟨_, _, _, _⟩ (grows.symbols.reads typed)
  · refine (Declares.forM fun t _ later grows => ?_).map fun _ _ _ _ => rfl
    exact declares_named ⟨_, _, _, _⟩ ((grown'.trans grows).symbols.reads typed)

end GridSpec

namespace Channel

/-- These are the symbols of a channel's wires, track by track. -/
structure Named (r : Recorder) (name : UInt32 → String) (count : UInt32) (side : List Symbol) :
    Prop where
  length : side.length = count.toNat
  text : ∀ track < count.toNat,
    r.symbols.text? (side.getD track default) = some (name (.ofNat track))

theorem Named.grows {r later : Recorder} {name : UInt32 → String} {count : UInt32}
    {side : List Symbol} (named : Named r name count side) (grows : r.Grows later) :
    Named later name count side :=
  ⟨named.length, fun track inside => grows.symbols.reads (named.text track inside)⟩

theorem Named.of_forall₂ {r : Recorder} {name : UInt32 → String} {count : UInt32}
    {side : List Symbol}
    (each : List.Forall₂ (fun i s => r.symbols.text? s = some (name i)) (below count) side) :
    Named r name count side := by
  have lengths : side.length = count.toNat := by rw [← each.length_eq, length_below]
  refine ⟨lengths, fun track inside => ?_⟩
  have text := each.get (i := track) (by simpa using inside) (by omega)
  rw [List.getD_eq_getElem?_getD, List.getElem?_eq_getElem (by omega)]
  simpa [below] using text

theorem declares_wires (name : UInt32 → UInt32 → UInt32 → String) (x y count : UInt32) :
    Declares base (wires name x y count) {} fun side later =>
      Named later (name x y) count side := by
  rw [← Blueprint.join_nothing (below count)]
  refine (Declares.mapM (fun i s later => later.symbols.text? s = some (name x y i))
    (fun grows => grows.symbols.reads) fun i _ later _ => Declares.symbol _).imp ?_
  exact fun side later _ each => Named.of_forall₂ each

end Channel

namespace SwitchBox

/-- The sides of a box have as many wires as are counted, and they are those around its tile. -/
def Wired (r : Recorder) (counts : Side → UInt32) (box : SwitchBox) : Prop :=
  ∀ side : Side, Channel.Named r (sideName box.x box.y side) (counts side) (box.side side)

variable {box : SwitchBox} {counts : Side → UInt32}

theorem Wired.grows {r later : Recorder} (wired : box.Wired r counts) (grows : r.Grows later) :
    box.Wired later counts := fun side => (wired side).grows grows

theorem Wired.length (wired : box.Wired base counts) (side : Side) :
    (box.side side).length = (counts side).toNat := (wired side).length

theorem Wired.text {r : Recorder} (wired : box.Wired r counts) {side : Side} {track : Nat}
    {w : Symbol} (there : (box.side side)[track]? = some w) :
    r.symbols.text? w = some (sideName box.x box.y side (.ofNat track)) := by
  have inside := (List.getElem?_eq_some_iff.mp there).1
  rw [wired.length] at inside
  simpa [List.getD_eq_getElem?_getD, there] using (wired side).text track inside

/-- The pip of a coupling reads as the layout has it. -/
theorem PipOf.known {r : Recorder} (wired : box.Wired r counts) {delay : Delay} {c : Coupling}
    {p : Pip} (of : box.PipOf delay c p r.symbols) :
    p.Known r.symbols ∧ p.plan r.symbols = box.pipPlan delay c := by
  have source := wired.text of.source
  have target := wired.text of.target
  constructor
  · exact ⟨⟨SymbolTable.knows_of_text? of.name, SymbolTable.knows_of_text? of.pipType⟩,
      SymbolTable.knows_of_text? source, SymbolTable.knows_of_text? target⟩
  · simp [Pip.plan, pipPlan, SymbolTable.text_of_text? of.name,
      SymbolTable.text_of_text? of.pipType, SymbolTable.text_of_text? source,
      SymbolTable.text_of_text? target, of.placed]

theorem declares_plan (delay : Delay) (square : box.shape = .square) {n : UInt32}
    (wired : box.Wired base fun _ => n) : Declares base (box.plan delay) {} fun pips later =>
      List.Forall₂ (fun c p => p.Known later.symbols ∧ p.plan later.symbols = box.pipPlan delay c)
        (Coupling.ofTracks n.toNat) pips := by
  refine (Declares.ofInterns (interns_plan delay square wired.length)).imp ?_
  exact fun pips later grown planned => planned.imp fun _ _ of => of.known (wired.grows grown)

/-- A square box with even sides declares the pips of its couplings, if the wires of its sides
are declared. -/
theorem declares (delay : Delay) (square : box.shape = .square) {n : UInt32}
    (wired : box.Wired base fun _ => n)
    (around : ∀ side : Side, ∀ track < n.toNat,
      base.HasWireNamed (sideName box.x box.y side (.ofNat track))) :
    Declares base (box.declare delay)
      { pips := (Coupling.ofTracks n.toNat).map (box.pipPlan delay) } fun count _ =>
      count = (Coupling.ofTracks n.toNat).length := by
  refine (declares_plan delay square wired).bindSilent fun pips one grown planned => ?_
  have plans : pips.map (·.plan one.symbols) =
      (Coupling.ofTracks n.toNat).map (box.pipPlan delay) :=
    map_eq_of_forall₂ (planned.imp fun _ _ holds => holds.2)
  rw [← plans, ← Blueprint.join_pips, planned.length_eq]
  refine (Declares.forM fun p member later grows => ?_).map fun _ _ _ _ => rfl
  obtain ⟨c, coupled, known, same⟩ := exists_of_forall₂ planned member
  obtain ⟨known, unchanged⟩ := known.within grows.symbols
  obtain ⟨-, source, target⟩ := Coupling.tracks_of_mem coupled
  have sourceText : later.symbols.text p.source = (box.pipPlan delay c).source := by
    rw [← same, ← unchanged]
    rfl
  have targetText : later.symbols.text p.target = (box.pipPlan delay c).target := by
    rw [← same, ← unchanged]
    rfl
  have growth := grown.trans grows
  rw [← unchanged]
  exact Declares.pip known.1.1 known.1.2
    known.2.1 (sourceText ▸ growth.hasWireNamed (around _ _ source))
    known.2.2 (targetText ▸ growth.hasWireNamed (around _ _ target))

end SwitchBox

namespace GridSpec

variable (spec : GridSpec)

/-- How many wires the channel on a side of a box has. -/
def sideCount : Side → UInt32
  | .north | .south => spec.vertical
  | .east | .west => spec.horizontal

theorem declares_boxAt (x y : UInt32) : Declares base (spec.boxAt x y) {} fun box later =>
    (box.x = x ∧ box.y = y ∧ box.shape = spec.shape) ∧ box.Wired later spec.sideCount := by
  refine (Channel.declares_wires _ _ _ _).bindSilent fun north one _ north_named => ?_
  refine (Channel.declares_wires _ _ _ _).bindSilent fun east two first east_named => ?_
  refine (Channel.declares_wires _ _ _ _).bindSilent fun south three second south_named => ?_
  refine (Channel.declares_wires _ _ _ _).map fun west four third west_named => ⟨⟨rfl, rfl, rfl⟩, ?_⟩
  intro side
  cases side with
  | north => exact north_named.grows ((first.trans second).trans third)
  | east => exact east_named.grows (second.trans third)
  | south => exact south_named.grows third
  | west => exact west_named

/-- The wires around a tile are among those of the channels. -/
theorem exists_channelWire {x y i : UInt32} {side : Side} (tile : (x, y) ∈ spec.tiles)
    (inside : i < spec.sideCount side) :
    ∃ w ∈ spec.channelsBlueprint.wires, w.name = SwitchBox.sideName x y side i := by
  obtain ⟨column, row⟩ := mem_tiles_iff.mp tile
  have vertical {y' : UInt32} (upTo : y' ≤ spec.height) (track : i < spec.vertical) :
      ∃ w ∈ spec.channelsBlueprint.wires, w.name = Channel.verticalName x y' i :=
    ⟨⟨_, _, _, _⟩, List.mem_append_left _ (List.mem_map_of_mem
      (mem_verticalTracks_iff.mpr ⟨column, upTo, track⟩)), rfl⟩
  have horizontal {x' : UInt32} (upTo : x' ≤ spec.width) (track : i < spec.horizontal) :
      ∃ w ∈ spec.channelsBlueprint.wires, w.name = Channel.horizontalName x' y i :=
    ⟨⟨_, _, _, _⟩, List.mem_append_right _ (List.mem_map_of_mem
      (mem_horizontalTracks_iff.mpr ⟨row, upTo, track⟩)), rfl⟩
  cases side with
  | north => exact vertical (next_le row) inside
  | east => exact horizontal (next_le column) inside
  | south => exact vertical (UInt32.le_of_lt row) inside
  | west => exact horizontal (UInt32.le_of_lt column) inside

theorem declares_box (square : spec.shape = .square) (even : spec.vertical = spec.horizontal)
    (channels : ∀ w ∈ spec.channelsBlueprint.wires, base.HasWireNamed w.name) {x y : UInt32}
    (tile : (x, y) ∈ spec.tiles) :
    Declares base
      (do
        let box ← spec.boxAt x y
        box.declare spec.delay)
      (spec.boxBlueprint x y) fun n _ => n = (spec.boxBlueprint x y).pips.length := by
  have counts : spec.sideCount = fun _ => spec.vertical := by
    funext side
    cases side <;> simp [sideCount, even]
  refine (spec.declares_boxAt x y).bindSilent fun box one grown ⟨placed, wired⟩ => ?_
  have pips : spec.boxBlueprint x y =
      { pips := (Coupling.ofTracks spec.vertical.toNat).map (box.pipPlan spec.delay) } := by
    cases box
    obtain ⟨rfl, rfl, rfl⟩ := placed
    rfl
  obtain ⟨column, row, shape⟩ := placed
  rw [counts] at wired
  rw [pips, List.length_map]
  refine SwitchBox.declares spec.delay (shape.trans square) wired fun side track inside => ?_
  have small : UInt32.ofNat track < spec.sideCount side := by
    rw [counts, UInt32.lt_iff_toNat_lt, toNat_ofNat_of_le (Nat.le_of_lt inside)]
    exact inside
  obtain ⟨w, member, named⟩ := spec.exists_channelWire tile small
  rw [column, row, ← named]
  exact grown.hasWireNamed (channels w member)

theorem declares_boxes (square : spec.shape = .square) (even : spec.vertical = spec.horizontal)
    (channels : ∀ w ∈ spec.channelsBlueprint.wires, base.HasWireNamed w.name) :
    Declares base spec.declareBoxes spec.boxesBlueprint fun n _ =>
      n = spec.boxesBlueprint.pips.length := by
  refine Declares.countEach (fun b => b.pips.length) rfl (fun _ _ => List.length_append) ?_
  rintro ⟨x, y⟩ tile later grows
  exact spec.declares_box square even (fun w member => grows.hasWireNamed (channels w member)) tile

end GridSpec

end TileFabric
