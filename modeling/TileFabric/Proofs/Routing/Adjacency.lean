import TileFabric.Proofs.Routing.LoneBox
import TileFabric.Proofs.Routing.Reachability

/-!
# What the boxes join a track to

A track of a grid ends at the boxes on its two sides, less those past the edge. At each of them
one pip leads from it to each of the other three sides, and one back: read from the recorder in
the order of declaration, these are all the pips at the track's wire. No pip is at the wire of a
bel pin.
-/

set_option autoImplicit false

namespace TileFabric

section Ranges

variable {α : Type}

/-- Of a list that only two neighbours add to, the lower one adds its part first. -/
theorem flatMap_range_of_adjacent {f : Nat → List α} {m n : Nat}
    (elsewhere : ∀ k < n, k + 1 ≠ m → k ≠ m → f k = []) : (List.range n).flatMap f =
      (if 0 < m ∧ m ≤ n then f (m - 1) else []) ++ if m < n then f m else [] := by
  induction n with
  | zero => simp; omega
  | succ n ih =>
    have before := ih fun k small => elsewhere k (Nat.lt_succ_of_lt small)
    rw [List.range_succ, List.flatMap_append, before, List.flatMap_singleton]
    by_cases upper : m = n
    · subst upper
      simp
    · by_cases lower : n + 1 = m
      · subst lower
        have outside : ¬ n + 1 ≤ n ∧ ¬ n + 1 < n := by omega
        simp [outside]
      · have last : f n = [] := elsewhere n (Nat.lt_succ_self n) lower (Ne.symm upper)
        have within : m ≤ n + 1 ↔ m ≤ n := by omega
        have inside : m < n + 1 ↔ m < n := by omega
        simp only [last, List.append_nil, within, inside]

theorem flatMap_range_of_eq {f : Nat → List α} {m n : Nat}
    (elsewhere : ∀ k < n, k ≠ m → f k = []) :
    (List.range n).flatMap f = if m < n then f m else [] := by
  rw [flatMap_range_of_adjacent fun k small _ => elsewhere k small]
  have before : (if 0 < m ∧ m ≤ n then f (m - 1) else []) = [] := by
    split
    · exact elsewhere (m - 1) (by omega) (by omega)
    · rfl
  rw [before, List.nil_append]

theorem flatMap_below_of_adjacent {f : UInt32 → List α} {x n : UInt32} (within : x ≤ n)
    (elsewhere : ∀ k, k + 1 ≠ x → k ≠ x → f k = []) : (below n).flatMap f =
      (if 0 < x then f (x - 1) else []) ++ if x < n then f x else [] := by
  have positive : 0 < x ↔ 0 < x.toNat ∧ x.toNat ≤ n.toNat := by
    rw [UInt32.lt_iff_toNat_lt]
    exact (and_iff_left (UInt32.le_iff_toNat_le.mp within)).symm
  have before (positive : 0 < x) : UInt32.ofNat (x.toNat - 1) = x - 1 := by
    rw [← (GridSpec.last_lt positive).2, Nat.add_sub_cancel, UInt32.ofNat_toNat]
  rw [below, List.flatMap_map, flatMap_range_of_adjacent (m := x.toNat)]
  · simp only [UInt32.ofNat_toNat, ← UInt32.lt_iff_toNat_lt, ← positive]
    split
    · rw [before ‹_›]
    · rfl
  · intro k small below above
    have fits : (UInt32.ofNat k).toNat = k := toNat_ofNat_of_le (Nat.le_of_lt small)
    have inside : UInt32.ofNat k < n := by rwa [UInt32.lt_iff_toNat_lt, fits]
    refine elsewhere _ ?_ ?_
    · rintro rfl
      exact below (by rw [toNat_next inside, fits])
    · rintro rfl
      exact above fits.symm

theorem flatMap_below_of_eq {f : UInt32 → List α} {x n : UInt32} (inside : x < n)
    (elsewhere : ∀ k, k ≠ x → f k = []) : (below n).flatMap f = f x := by
  rw [flatMap_below_of_adjacent (UInt32.le_of_lt inside) fun k _ => elsewhere k, if_pos inside]
  have before : (if 0 < x then f (x - 1) else []) = [] := by
    split
    · exact elsewhere _ (UInt32.ne_of_lt (GridSpec.last_lt ‹_›).1)
    · rfl
  rw [before, List.nil_append]

end Ranges

/-- The other sides of a box, in the order in which it declares the pips to them. -/
def Side.others : Side → List Side
  | .north => [.south, .east, .west]
  | .east => [.west, .north, .south]
  | .south => [.north, .west, .east]
  | .west => [.east, .south, .north]

/-- Along a pip or against it. -/
inductive Sense where
  | along | against

namespace Coupling

/-- The side and the track that a coupling begins at, in a sense. -/
def near : Sense → Coupling → Side × Nat
  | .along, c => (c.source, c.sourceTrack)
  | .against, c => (c.target, c.targetTrack)

/-- The side and the track that a coupling ends at, in a sense. -/
def far : Sense → Coupling → Side × Nat
  | .along, c => (c.target, c.targetTrack)
  | .against, c => (c.source, c.sourceTrack)

theorem near_shift (sense : Sense) (base : Nat) (c : Coupling) :
    (c.shift base).near sense = ((c.near sense).1, base + (c.near sense).2) := by
  cases sense <;> rfl

theorem far_shift (sense : Sense) (base : Nat) (c : Coupling) :
    (c.shift base).far sense = ((c.far sense).1, base + (c.far sense).2) := by
  cases sense <;> rfl

/-- Couplings some tracks further on lead that much further on. -/
theorem far_of_near_shift (sense : Sense) (s : Side) (base track : Nat)
    (couplings : List Coupling) :
    (((couplings.map (shift base)).filter (·.near sense = (s, base + track))).map (far sense)) =
      ((couplings.filter (·.near sense = (s, track))).map (far sense)).map fun t =>
        (t.1, base + t.2) := by
  simp [List.filter_map, Function.comp_def, near_shift, far_shift, Prod.ext_iff]

theorem far_of_near_ofPair (sense : Sense) (s : Side) (track : Nat) :
    ((ofPair (2 * (track / 2))).filter (·.near sense = (s, track))).map (far sense) =
      s.others.map fun t => (t, if (Turn.between s t).crossed then mate track else track) := by
  have first : ∀ track < 2, ((ofPair 0).filter (·.near sense = (s, track))).map (far sense) =
      s.others.map fun t => (t, if (Turn.between s t).crossed then mate track else track) := by
    cases sense <;> cases s <;> decide
  have split : 2 * (track / 2) + track % 2 = track := Nat.div_add_mod track 2
  have mates : 2 * (track / 2) + mate (track % 2) = mate track := by
    unfold mate
    split <;> split <;> omega
  -- Every pair is the first one moved on, and there it is a matter of looking.
  have shifted := far_of_near_shift sense s (2 * (track / 2)) (track % 2) (ofPair 0)
  rw [split, ← ofPair_eq_shift, first _ (Nat.mod_lt _ Nat.two_pos), List.map_map] at shifted
  rw [shifted]
  refine List.map_congr_left fun t _ => Prod.ext rfl ?_
  dsimp only [Function.comp_apply]
  rw [apply_ite (2 * (track / 2) + ·), mates, split]

theorem far_of_near_ofSingle (sense : Sense) (s : Side) (track : Nat) :
    ((ofSingle track).filter (·.near sense = (s, track))).map (far sense) =
      s.others.map fun t => (t, track) := by
  have first : ((ofSingle 0).filter (·.near sense = (s, 0))).map (far sense) =
      s.others.map fun t => (t, 0) := by cases sense <;> cases s <;> decide
  have shifted := far_of_near_shift sense s track 0 (ofSingle 0)
  rw [← ofSingle_eq_shift, first, List.map_map] at shifted
  exact shifted

theorem near_of_mem_ofPair (sense : Sense) {pair : Nat} {c : Coupling}
    (member : c ∈ ofPair (2 * pair)) : (c.near sense).2 / 2 = pair := by
  obtain ⟨turn, track, paired, way⟩ := mem_ofPair_iff.mp member
  have mated : (if turn.crossed then mate track else track) / 2 = pair := by
    unfold mate
    split
    · split <;> omega
    · exact paired
  simp only [bothWays, List.mem_cons, List.not_mem_nil, or_false] at way
  rcases way with rfl | rfl <;> cases sense <;> assumption

theorem near_of_mem_ofSingle (sense : Sense) {track : Nat} {c : Coupling}
    (member : c ∈ ofSingle track) : (c.near sense).2 = track := by
  obtain ⟨turn, way⟩ := mem_ofSingle_iff.mp member
  simp only [bothWays, List.mem_cons, List.not_mem_nil, or_false] at way
  rcases way with rfl | rfl <;> cases sense <;> rfl

/-- From each track of each side one coupling leads to each of the other sides. -/
theorem far_of_near_ofTracks (sense : Sense) (s : Side) {n track : Nat} (inside : track < n) :
    ((ofTracks n).filter (·.near sense = (s, track))).map (far sense) =
      s.others.map fun t => (t, partner n (Turn.between s t) track) := by
  have otherPair : ∀ pair < n / 2, pair ≠ track / 2 →
      (ofPair (2 * pair)).filter (·.near sense = (s, track)) = [] := by
    intro pair _ apart
    rw [List.filter_eq_nil_iff]
    intro c member here
    rw [← near_of_mem_ofPair sense member, of_decide_eq_true here] at apart
    exact apart rfl
  rw [ofTracks, List.filter_append, List.filter_flatMap, flatMap_range_of_eq otherPair]
  by_cases paired : track / 2 < n / 2
  · have single : (if n % 2 = 1 then ofSingle (n - 1) else []).filter
        (·.near sense = (s, track)) = [] := by
      rw [List.filter_eq_nil_iff]
      intro c member here
      split at member
      · have last := near_of_mem_ofSingle sense member
        rw [of_decide_eq_true here] at last
        omega
      · cases member
    rw [single, List.append_nil, if_pos paired, far_of_near_ofPair]
    simp [partner, paired]
  · have last : track = n - 1 := by omega
    have odd : n % 2 = 1 := by omega
    rw [if_neg paired, List.nil_append, if_pos odd, ← last, far_of_near_ofSingle]
    simp [partner, paired]

end Coupling

namespace PipPlan

/-- The wire that a pip leads from, in a sense. -/
def near : Sense → PipPlan → String
  | .along, p => p.source
  | .against, p => p.target

/-- The wire that a pip leads to, in a sense. -/
def far : Sense → PipPlan → String
  | .along, p => p.target
  | .against, p => p.source

end PipPlan

namespace Pip

def near : Sense → Pip → Symbol
  | .along, p => p.source
  | .against, p => p.target

def far : Sense → Pip → Symbol
  | .along, p => p.target
  | .against, p => p.source

theorem near_plan (sense : Sense) (table : SymbolTable) (p : Pip) :
    (p.plan table).near sense = table.text (p.near sense) := by cases sense <;> rfl

theorem far_plan (sense : Sense) (table : SymbolTable) (p : Pip) :
    (p.plan table).far sense = table.text (p.far sense) := by cases sense <;> rfl

end Pip

namespace Track

/-- The side of the box of a tile that a track is on, if it is on one. -/
def sideAt? (x y : UInt32) : Track → Option Side
  | .vertical x' y' _ =>
    if x = x' then if y + 1 = y' then some .north else if y = y' then some .south else none
    else none
  | .horizontal x' y' _ =>
    if y = y' then if x + 1 = x' then some .east else if x = x' then some .west else none
    else none

theorem ofSide_eq_iff {x y i : UInt32} {s : Side} {a : Track} :
    ofSide x y s i = a ↔ a.sideAt? x y = some s ∧ i = a.index := by
  have next (c : UInt32) : c + 1 ≠ c := by simp
  cases a <;> cases s <;> simp only [ofSide, sideAt?, index] <;> grind

end Track

namespace GridSpec

variable (spec : GridSpec)

/-- The boxes at the ends of a track with the side of the box that it is on. -/
def ends : Track → List (UInt32 × UInt32 × Side)
  | .vertical x y _ =>
    (if 0 < y then [(x, y - 1, .north)] else []) ++
      if y < spec.height then [(x, y, .south)] else []
  | .horizontal x y _ =>
    (if 0 < x then [(x - 1, y, .east)] else []) ++
      if x < spec.width then [(x, y, .west)] else []

/-- The place of a box, once for each of the other sides, with the wire that a track of one side
is joined to there. -/
def branchesAt (x y : UInt32) (s : Side) (track : Nat) : List (Loc × String) :=
  s.others.map fun t =>
    (⟨x, y, 0⟩, wireName x y t (Coupling.partner spec.vertical.toNat (Turn.between s t) track))

/-- The places of the pips at the wire of a track, with the wires that they join it to. -/
def branches (a : Track) : List (Loc × String) :=
  (spec.ends a).flatMap fun (x, y, s) => spec.branchesAt x y s a.index.toNat

variable {spec}

theorem near_pipPlan (sense : Sense) (x y : UInt32) (c : Coupling) :
    ((spec.unwiredBox x y).pipPlan spec.delay c).near sense =
      wireName x y (c.near sense).1 (c.near sense).2 := by cases sense <;> rfl

theorem far_pipPlan (sense : Sense) (x y : UInt32) (c : Coupling) :
    ((spec.unwiredBox x y).pipPlan spec.delay c).far sense =
      wireName x y (c.far sense).1 (c.far sense).2 := by cases sense <;> rfl

/-- A pip of a box is at the wire of a track just if its coupling is at the track's side. -/
theorem near_eq_name_iff (sense : Sense) {x y : UInt32} {a : Track} {c : Coupling}
    (member : c ∈ Coupling.ofTracks spec.vertical.toNat) :
    ((spec.unwiredBox x y).pipPlan spec.delay c).near sense = a.name ↔
      a.sideAt? x y = some (c.near sense).1 ∧ (c.near sense).2 = a.index.toNat := by
  have small : (c.near sense).2 < spec.vertical.toNat := by
    obtain ⟨-, source, target⟩ := Coupling.tracks_of_mem member
    cases sense <;> assumption
  have index : UInt32.ofNat (c.near sense).2 = a.index ↔ (c.near sense).2 = a.index.toNat := by
    rw [← UInt32.toNat_inj, toNat_ofNat_of_le (Nat.le_of_lt small)]
  rw [near_pipPlan, wireName, ← Track.name_ofSide, ← index, ← Track.ofSide_eq_iff]
  exact ⟨Track.name_inj, congrArg Track.name⟩

/-- At a box on whose side a track is, its pips lead to the other sides, and at any other box there
are none. -/
theorem far_of_near_boxPips (sense : Sense) (x y : UInt32) {a : Track}
    (inside : a.index < spec.vertical) :
    ((spec.boxBlueprint x y).pips.filter (·.near sense = a.name)).map
        (fun p => (p.loc, p.far sense)) =
      ((a.sideAt? x y).map fun s => spec.branchesAt x y s a.index.toNat).getD [] := by
  have small : a.index.toNat < spec.vertical.toNat := UInt32.lt_iff_toNat_lt.mp inside
  rw [boxBlueprint, List.filter_map, List.map_map]
  cases there : a.sideAt? x y with
  | none =>
    have nothing : (Coupling.ofTracks spec.vertical.toNat).filter
        ((fun p => decide (p.near sense = a.name)) ∘ (spec.unwiredBox x y).pipPlan spec.delay) =
          [] := by
      rw [List.filter_eq_nil_iff]
      intro c member here
      cases there.symm.trans ((near_eq_name_iff sense member).mp (of_decide_eq_true here)).1
    rw [nothing]
    rfl
  | some s =>
    have same : ∀ c ∈ Coupling.ofTracks spec.vertical.toNat,
        ((fun p => decide (p.near sense = a.name)) ∘ (spec.unwiredBox x y).pipPlan spec.delay) c =
          decide (c.near sense = (s, a.index.toNat)) := by
      intro c member
      refine decide_eq_decide.mpr ((near_eq_name_iff sense member).trans ?_)
      rw [there, Option.some.injEq, Prod.ext_iff, eq_comm (a := s)]
    have leads : ((fun p : PipPlan => (p.loc, p.far sense)) ∘
        (spec.unwiredBox x y).pipPlan spec.delay) =
          (fun t => ((⟨x, y, 0⟩ : Loc), wireName x y t.1 t.2)) ∘ Coupling.far sense := by
      funext c
      exact Prod.ext rfl (far_pipPlan sense x y c)
    rw [List.filter_congr same, leads, ← List.map_map,
      Coupling.far_of_near_ofTracks sense s small, List.map_map]
    rfl

/-- In the order of declaration, the pips at the wire of a track are those of its branches. -/
theorem far_of_near_pips (sense : Sense) {a : Track} (even : spec.vertical = spec.horizontal)
    (has : spec.HasTrack a) :
    (spec.blueprint.pips.filter (·.near sense = a.name)).map (fun p => (p.loc, p.far sense)) =
      spec.branches a := by
  have inside : a.index < spec.vertical := by
    cases a with
    | vertical => exact has.2.2
    | horizontal => exact even ▸ has.2.2
  rw [pips_blueprint, List.filter_flatMap, List.map_flatMap, tiles, List.flatMap_assoc]
  simp only [List.flatMap_map, far_of_near_boxPips sense _ _ inside]
  cases a with
  | vertical x y i =>
    obtain ⟨column, row, -⟩ := has
    rw [flatMap_below_of_eq column, flatMap_below_of_adjacent row]
    · rw [branches, ends, List.flatMap_append]
      congr 1
      · split <;> simp [Track.sideAt?, Track.index]
      · split <;> simp [Track.sideAt?, Track.index]
    · intro y' below above
      simp [Track.sideAt?, below, above]
    · intro x' apart
      simp [Track.sideAt?, apart]
  | horizontal x y i =>
    obtain ⟨column, row, -⟩ := has
    rw [flatMap_below_of_adjacent column, flatMap_below_of_eq row, flatMap_below_of_eq row]
    · rw [branches, ends, List.flatMap_append]
      congr 1
      · split <;> simp [Track.sideAt?, Track.index]
      · split <;> simp [Track.sideAt?, Track.index]
    · intro y' apart
      simp [Track.sideAt?, apart]
    · intro y' apart
      simp [Track.sideAt?, apart]
    · intro x' below above
      simp [Track.sideAt?, below, above]

/-- Every pip is at tracks of channels. -/
theorem exists_track_of_pip (sense : Sense) {p : PipPlan} (member : p ∈ spec.blueprint.pips) :
    ∃ a : Track, p.near sense = a.name := by
  rw [pips_blueprint] at member
  obtain ⟨⟨x, y⟩, -, coupled⟩ := List.mem_flatMap.mp member
  obtain ⟨c, -, rfl⟩ := List.mem_map.mp coupled
  exact ⟨.ofSide x y _ _, (near_pipPlan sense x y c).trans (Track.name_ofSide ..).symm⟩

/-- A bel pin has a wire of its own, which is not one of a channel. -/
theorem wire_ne_of_pin {pin : PinPlan} (member : pin ∈ spec.blueprint.pins) (a : Track) :
    pin.wire ≠ a.name := by
  rw [blueprint, boxesBlueprint_eq, tilesBlueprint_eq] at member
  simp only [Blueprint.pins_append, channelsBlueprint, List.append_nil] at member
  obtain ⟨⟨loc, kind⟩, -, onBel⟩ := List.mem_flatMap.mp member
  obtain ⟨⟨name, direction⟩, -, rfl⟩ := List.mem_map.mp onBel
  cases a with
  | vertical x y i => exact Tile.pinWireName_ne_verticalName loc name x y i
  | horizontal x y i => exact Tile.pinWireName_ne_horizontalName loc name x y i

end GridSpec

/-- The pips at a known wire, read out as texts, are those that the blueprint has at its text. -/
theorem Recorder.Sound.far_of_near {r : Recorder} (sound : r.Sound) (sense : Sense)
    {wire : Symbol} (known : r.symbols.Knows wire) :
    (r.pips.toList.filter (·.near sense = wire)).map
        (fun p => (p.loc, r.symbols.text (p.far sense))) =
      (r.blueprint.pips.filter (·.near sense = r.symbols.text wire)).map
        fun p => (p.loc, p.far sense) := by
  have each : ∀ p ∈ r.pips.toList, r.symbols.Knows (p.near sense) := by
    intro p member
    obtain ⟨-, source, target⟩ := sound.knownPips p member
    cases sense
    · exact source
    · exact target
  rw [known.filter_eq each, Recorder.blueprint, List.filter_map, List.map_map]
  simp only [Function.comp_def, Pip.near_plan, Pip.far_plan]
  rfl

namespace GridSpec

/-- In a square grid with as many wires in every channel, the pips that lead from the wire of a
track and those that lead to it are the branches of the track, and no pip is at the wire of a bel
pin. -/
theorem tracks_branch {spec : GridSpec} (square : spec.shape = .square)
    (even : spec.vertical = spec.horizontal) (log : Log) :
    ∃ (summary : GridSummary) (site : BuildSite),
      (Build.grid spec).run ⟨.empty, log⟩ = (.ok summary, site) ∧
      (∀ a : Track, spec.HasTrack a → ∃ A : Wire, site.recorder.wire? a.name = some A ∧
        (site.recorder.downhill A.name).map
          (fun p => (p.loc, site.recorder.symbols.text p.target)) = spec.branches a ∧
        (site.recorder.uphill A.name).map
          (fun p => (p.loc, site.recorder.symbols.text p.source)) = spec.branches a) ∧
      ∀ p ∈ site.recorder.pips.toList, ∀ pin ∈ site.recorder.belPins.toList,
        p.source ≠ pin.wire ∧ p.target ≠ pin.wire := by
  obtain ⟨r, message, run, sound, held⟩ := spec.run_grid_of_fits (.inr (.inr ⟨square, even⟩)) log
  refine ⟨_, _, run, fun a has => ?_, fun p member pin pinned => ?_⟩
  · obtain ⟨A, found, reads⟩ := sound.wire?_of_hasWireNamed (hasWireNamed_of_hasTrack held has)
    have known := SymbolTable.knows_of_text? reads
    have text := SymbolTable.text_of_text? reads
    have pips (sense : Sense) := sound.far_of_near sense known
    simp only [text, held, far_of_near_pips _ even has] at pips
    have answers := sound.toIndexed.answersLike
    refine ⟨A, found, ?_, ?_⟩
    · rw [answers.downhill]
      exact pips .along
    · rw [answers.uphill]
      exact pips .against
  · have apart (sense : Sense) : p.near sense ≠ pin.wire := by
      intro same
      have planned : p.plan r.symbols ∈ spec.blueprint.pips := held ▸ List.mem_map_of_mem member
      have pinPlanned : pin.plan r.symbols ∈ spec.blueprint.pins :=
        held ▸ List.mem_map_of_mem pinned
      obtain ⟨a, named⟩ := exists_track_of_pip sense planned
      rw [Pip.near_plan, same] at named
      exact wire_ne_of_pin pinPlanned a named
    exact ⟨apart .along, apart .against⟩

/-- Between two boxes of a grid of three tracks a wire has six pips, at the edge three. -/
theorem fourTiles_tracks_branch :
    (fourTiles.shape = .square ∧ fourTiles.vertical = fourTiles.horizontal) ∧
      ∃ (summary : GridSummary) (site : BuildSite),
        (Build.grid fourTiles).run ⟨.empty, .empty⟩ = (.ok summary, site) ∧
        (∃ A : Wire, site.recorder.wire? "V_X0Y1_0" = some A ∧
          (site.recorder.downhill A.name).map
              (fun p => (p.loc, site.recorder.symbols.text p.target)) =
            [(⟨0, 0, 0⟩, "V_X0Y0_0"), (⟨0, 0, 0⟩, "H_X1Y0_1"), (⟨0, 0, 0⟩, "H_X0Y0_0"),
              (⟨0, 1, 0⟩, "V_X0Y2_0"), (⟨0, 1, 0⟩, "H_X0Y1_1"), (⟨0, 1, 0⟩, "H_X1Y1_0")]) ∧
        ∃ B : Wire, site.recorder.wire? "H_X2Y1_2" = some B ∧
          (site.recorder.uphill B.name).map
              (fun p => (p.loc, site.recorder.symbols.text p.source)) =
            [(⟨1, 1, 0⟩, "H_X1Y1_2"), (⟨1, 1, 0⟩, "V_X1Y2_2"), (⟨1, 1, 0⟩, "V_X1Y1_2")] := by
  have square : fourTiles.shape = .square := rfl
  have even : fourTiles.vertical = fourTiles.horizontal := rfl
  obtain ⟨summary, site, run, branch, -⟩ := tracks_branch square even .empty
  have inner : fourTiles.HasTrack (.vertical 0 1 0) := by decide
  have last : fourTiles.HasTrack (.horizontal 2 1 2) := by decide
  obtain ⟨A, foundA, downhill, -⟩ := branch _ inner
  obtain ⟨B, foundB, -, uphill⟩ := branch _ last
  refine ⟨⟨square, even⟩, summary, site, run, ⟨A, foundA, downhill.trans ?_⟩,
    B, foundB, uphill.trans ?_⟩
  · decide +kernel
  · decide +kernel

end GridSpec

end TileFabric
