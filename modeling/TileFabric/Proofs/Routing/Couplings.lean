import Mathlib.Data.List.Nodup
import TileFabric.Routing.SwitchBox

/-!
# The couplings of a box

The rows of a pair follow a rule: turn by turn they lead from each track and back, to the same
track on four of the turns and to the other track of the pair on the other two. So a box couples
every track with itself on four turns, and on two with the other of its pair, if there is one. No
two couplings have the same sides and the same track in their names.
-/

set_option autoImplicit false

namespace TileFabric

/-- What a family of lists says once each, they say once together if what they say shows whose it
is. -/
theorem nodup_flatMap_of_key {α ι κ : Type} {items : List ι} {parts : ι → List α} (key : ι → κ)
    (keys : (items.map key).Nodup) (each : ∀ i ∈ items, (parts i).Nodup)
    (shows : ∀ {i j : ι} {a : α}, a ∈ parts i → a ∈ parts j → key i = key j) :
    (items.flatMap parts).Nodup := by
  rw [List.nodup_flatMap]
  refine ⟨each, (List.pairwise_map.mp keys).imp fun apart => ?_⟩
  exact fun a left right => apart (shows left right)

/-- What one item of a family has is found again by what shows whose it is. -/
theorem filter_flatMap_of_key {α ι : Type} {items : List ι} {parts : ι → List α} {keep : α → Bool}
    {i : ι} (nodup : items.Nodup) (member : i ∈ items)
    (shows : ∀ j ∈ items, ∀ a ∈ parts j, keep a = true ↔ j = i) :
    (items.flatMap parts).filter keep = parts i := by
  induction items with
  | nil => cases member
  | cons j rest ih =>
    obtain ⟨new, nodup⟩ := List.nodup_cons.mp nodup
    have head := shows j List.mem_cons_self
    have tail : ∀ k ∈ rest, ∀ a ∈ parts k, keep a = true ↔ k = i := fun k there =>
      shows k (List.mem_cons_of_mem j there)
    rw [List.flatMap_cons, List.filter_append]
    by_cases same : j = i
    · subst same
      have all : (parts j).filter keep = parts j :=
        List.filter_eq_self.mpr fun a there => (head a there).mpr rfl
      have none : (rest.flatMap parts).filter keep = [] := by
        rw [List.filter_eq_nil_iff]
        intro a there kept
        obtain ⟨k, later, owned⟩ := List.mem_flatMap.mp there
        exact new ((tail k later a owned).mp kept ▸ later)
      rw [all, none, List.append_nil]
    · have none : (parts j).filter keep = [] :=
        List.filter_eq_nil_iff.mpr fun a there kept => same ((head a there).mp kept)
      have later : i ∈ rest := (List.mem_cons.mp member).resolve_left (Ne.symm same)
      rw [none, List.nil_append, ih nodup later tail]

theorem length_flatMap_of_const {α ι : Type} {items : List ι} {parts : ι → List α} {size : Nat}
    (each : ∀ i ∈ items, (parts i).length = size) :
    (items.flatMap parts).length = items.length * size := by
  induction items with
  | nil => simp
  | cons i rest ih =>
    rw [List.flatMap_cons, List.length_append, each i List.mem_cons_self,
      ih fun j member => each j (List.mem_cons_of_mem i member), List.length_cons, Nat.succ_mul,
      Nat.add_comm]

namespace Turn

/-- The side whose track names the pips of a turn. -/
def first : Turn → Side
  | straightV | northEast | northWest => .north
  | straightH => .east
  | southWest | southEast => .south

def second : Turn → Side
  | straightV => .south
  | straightH | southWest | northWest => .west
  | northEast | southEast => .east

/-- Whether a turn swaps the tracks of a pair. -/
def crossed : Turn → Bool
  | northEast | southWest => true
  | straightV | straightH | northWest | southEast => false

end Turn

namespace Coupling

/-- A turn from a track of its first side to a track of its second, and back. -/
def bothWays (turn : Turn) (track partner : Nat) : List Coupling :=
  [⟨turn, turn.first, track, turn.second, partner, track⟩,
    ⟨turn, turn.second, partner, turn.first, track, track⟩]

/-- The rows of a pair in their order: each turn from one track and back, then from the other. -/
theorem ofPair_eq (base : Nat) : ofPair base = Turn.all.flatMap fun turn =>
    if turn.crossed then bothWays turn base (base + 1) ++ bothWays turn (base + 1) base
    else bothWays turn base base ++ bothWays turn (base + 1) (base + 1) := rfl

/-- What is left of the rows of a pair for a track without a partner: each turn and back. -/
theorem ofSingle_eq (track : Nat) :
    ofSingle track = Turn.all.flatMap fun turn => bothWays turn track track := rfl

example : firstPair.map letters =
    ["ns", "sn", "ns", "sn", "ew", "we", "ew", "we", "ne", "en", "ne", "en",
      "sw", "ws", "sw", "ws", "nw", "wn", "nw", "wn", "se", "es", "se", "es"] := by decide

/-- The other track of a pair. -/
def mate (track : Nat) : Nat := if track % 2 = 0 then track + 1 else track - 1

/-- Where a turn of a box with `n` tracks leads from a track: to its mate if the turn is crossed
and the track has one. -/
def partner (n : Nat) (turn : Turn) (track : Nat) : Nat :=
  if turn.crossed ∧ track / 2 < n / 2 then mate track else track

theorem partner_of_plain {n : Nat} {turn : Turn} (plain : turn.crossed = false) :
    partner n turn = id := by
  funext track
  simp [partner, plain]

theorem partner_div {n track : Nat} (turn : Turn) : partner n turn track / 2 = track / 2 := by
  unfold partner mate
  split
  · split <;> omega
  · rfl

theorem partner_lt {n track : Nat} (turn : Turn) (inside : track < n) :
    partner n turn track < n := by
  unfold partner mate
  split
  · split <;> omega
  · exact inside

theorem mem_ofPair_iff {pair : Nat} {c : Coupling} : c ∈ ofPair (2 * pair) ↔
    ∃ turn : Turn, ∃ track, track / 2 = pair ∧
      c ∈ bothWays turn track (if turn.crossed then mate track else track) := by
  have tracks : ∀ track, track / 2 = pair ↔ track = 2 * pair ∨ track = 2 * pair + 1 := by omega
  have even : mate (2 * pair) = 2 * pair + 1 := by simp [mate]
  have odd : mate (2 * pair + 1) = 2 * pair := by simp [mate, Nat.add_mod]
  simp only [ofPair_eq, List.mem_flatMap, tracks, or_and_right, exists_or, exists_eq_left, even, odd]
  rw [← exists_or]
  exact exists_congr fun turn => by cases turn <;> simp [Turn.all, Turn.crossed]

theorem mem_ofSingle_iff {track : Nat} {c : Coupling} :
    c ∈ ofSingle track ↔ ∃ turn : Turn, c ∈ bothWays turn track track := by
  simp only [ofSingle_eq, List.mem_flatMap]
  exact exists_congr fun turn => by cases turn <;> simp [Turn.all]

theorem mem_ofTracks_iff {n : Nat} {c : Coupling} : c ∈ ofTracks n ↔
    ∃ turn : Turn, ∃ track < n, c ∈ bothWays turn track (partner n turn track) := by
  simp only [ofTracks, List.mem_append, List.mem_flatMap, List.mem_range, mem_ofPair_iff]
  constructor
  · rintro (⟨pair, inside, turn, track, rfl, member⟩ | member)
    · exact ⟨turn, track, by omega, by simpa [partner, inside] using member⟩
    · split at member
      · rename_i odd
        obtain ⟨turn, member⟩ := mem_ofSingle_iff.mp member
        refine ⟨turn, n - 1, by omega, ?_⟩
        rwa [partner, if_neg (by omega)]
      · cases member
  · rintro ⟨turn, track, inside, member⟩
    by_cases paired : track / 2 < n / 2
    · refine .inl ⟨track / 2, paired, turn, track, rfl, ?_⟩
      simpa [partner, paired] using member
    · have last : track = n - 1 := by omega
      rw [partner, if_neg (fun both => paired both.2), last] at member
      rw [if_pos (by omega : n % 2 = 1)]
      exact .inr (mem_ofSingle_iff.mpr ⟨turn, member⟩)

/-- A coupling joins tracks of the box that are the same or of one pair. -/
theorem tracks_of_mem {n : Nat} {c : Coupling} (member : c ∈ ofTracks n) :
    c.sourceTrack / 2 = c.targetTrack / 2 ∧ c.sourceTrack < n ∧ c.targetTrack < n := by
  obtain ⟨turn, track, inside, member⟩ := mem_ofTracks_iff.mp member
  have inside' : partner n turn track < n := partner_lt turn inside
  simp only [bothWays, List.mem_cons, List.not_mem_nil, or_false] at member
  rcases member with rfl | rfl
  · exact ⟨(partner_div turn).symm, inside, inside'⟩
  · exact ⟨partner_div turn, inside', inside⟩

section Labels

/-- What the name of a pip shows of its coupling. -/
def label (c : Coupling) : Side × Side × Nat := (c.source, c.target, c.named)

theorem ofPair_eq_shift (base : Nat) : ofPair base = (ofPair 0).map (shift base) := rfl

theorem ofSingle_eq_shift (track : Nat) : ofSingle track = (ofSingle 0).map (shift track) := rfl

theorem nodup_labels_shift {couplings : List Coupling} (base : Nat)
    (nodup : (couplings.map label).Nodup) : ((couplings.map (shift base)).map label).Nodup := by
  have labels : (couplings.map (shift base)).map label =
      (couplings.map label).map fun (s, t, named) => (s, t, base + named) := by
    simp [label, shift, Function.comp_def]
  rw [labels]
  refine nodup.map ?_
  rintro ⟨s, t, named⟩ ⟨s', t', named'⟩ same
  simp only [Prod.mk.injEq, Nat.add_left_cancel_iff] at same ⊢
  exact same

theorem named_of_mem_ofPair {pair : Nat} {l : Side × Side × Nat}
    (member : l ∈ (ofPair (2 * pair)).map label) : l.2.2 / 2 = pair := by
  obtain ⟨c, coupled, rfl⟩ := List.mem_map.mp member
  obtain ⟨turn, track, paired, way⟩ := mem_ofPair_iff.mp coupled
  simp only [bothWays, List.mem_cons, List.not_mem_nil, or_false] at way
  rcases way with rfl | rfl <;> exact paired

theorem nodup_labels (n : Nat) : ((ofTracks n).map label).Nodup := by
  rw [ofTracks, List.map_append, List.map_flatMap, List.nodup_append]
  refine ⟨?_, ?_, ?_⟩
  case refine_1 =>
    refine nodup_flatMap_of_key id (by simpa using List.nodup_range) (fun pair _ => ?_) ?_
    · rw [ofPair_eq_shift]
      exact nodup_labels_shift _ (by decide)
    · exact fun left right => (named_of_mem_ofPair left).symm.trans (named_of_mem_ofPair right)
  case refine_2 =>
    split
    · rw [ofSingle_eq_shift]
      exact nodup_labels_shift _ (by decide)
    · exact .nil
  case refine_3 =>
    intro l left k right same
    subst same
    obtain ⟨pair, inside, left⟩ := List.mem_flatMap.mp left
    have paired := named_of_mem_ofPair left
    split at right
    · obtain ⟨c, coupled, rfl⟩ := List.mem_map.mp right
      obtain ⟨turn, coupled⟩ := mem_ofSingle_iff.mp coupled
      simp only [bothWays, List.mem_cons, List.not_mem_nil, or_false] at coupled
      have last : c.label.2.2 = n - 1 := by rcases coupled with rfl | rfl <;> rfl
      rw [List.mem_range] at inside
      omega
    · cases right

theorem length_ofTracks (n : Nat) : (ofTracks n).length = SwitchBox.pipCount n := by
  have pairs : ∀ pair ∈ List.range (n / 2), (ofPair (2 * pair)).length = SwitchBox.pipsPerPair :=
    fun _ _ => rfl
  rw [ofTracks, List.length_append, length_flatMap_of_const pairs, List.length_range,
    SwitchBox.pipCount, Nat.mul_comm]
  rcases Nat.mod_two_eq_zero_or_one n with even | odd
  · simp [even]
  · rw [odd, if_pos rfl]
    rfl

end Labels

end Coupling

end TileFabric
