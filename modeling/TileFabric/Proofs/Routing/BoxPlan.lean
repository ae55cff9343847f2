import Mathlib.Data.List.Pairwise
import Mathlib.Data.Set.Function
import Mathlib.Order.Interval.Set.Defs
import TileFabric.Proofs.Routing.Couplings
import TileFabric.Proofs.Routing.Interning
import TileFabric.Proofs.Routing.Names

/-!
# The plan of a box

The couplings of a box are listed turn by turn and pair by pair. Seen from the sides there is one
for every track and every other side, and it leads to the partner of the track on that side.
`way` writes out, apart from those rows, what the pips from each side to each other are to be:
their letters, their type and the index they lead to. `plan_covers` says that the planned pips are
these: they are counted, named apart and placed, there is one from every index to every other
side, and each has one that leads back.
-/

set_option autoImplicit false

namespace TileFabric

/-- North and south, whose tracks name the pips that turn. -/
def Side.vertical : Side → Bool
  | north | south => true
  | east | west => false

namespace Turn

/-- The turn that joins two sides, in either direction. No turn joins a side to itself. -/
def between : Side → Side → Turn
  | .north, .south | .south, .north => straightV
  | .east, .west | .west, .east => straightH
  | .north, .east | .east, .north => northEast
  | .south, .west | .west, .south => southWest
  | .north, .west | .west, .north => northWest
  | .south, .east | .east, .south => southEast
  | .north, .north | .east, .east | .south, .south | .west, .west => default

theorem between_comm (a b : Side) : between a b = between b a := by cases a <;> cases b <;> rfl

theorem first_ne_second (turn : Turn) : turn.first ≠ turn.second := by cases turn <;> decide

theorem exists_of_ne {a b : Side} (apart : a ≠ b) : ∃ turn : Turn,
    (a = turn.first ∧ b = turn.second) ∨ (a = turn.second ∧ b = turn.first) := by
  refine ⟨between a b, ?_⟩
  cases a <;> cases b <;> first | exact absurd rfl apart | decide

end Turn

namespace Coupling

variable {n : Nat}

theorem partner_partner (turn : Turn) (track : Nat) :
    partner n turn (partner n turn track) = track := by
  have pair : partner n turn track / 2 = track / 2 := partner_div turn
  unfold partner mate at *
  split at pair <;> split <;> grind

/-- A turn takes the tracks of one side to all those of the other, no two to the same. -/
theorem bijOn_partner (turn : Turn) :
    Set.BijOn (partner n turn) (Set.Iio n) (Set.Iio n) := by
  have inverse : Set.LeftInvOn (partner n turn) (partner n turn) (Set.Iio n) :=
    fun track _ => partner_partner turn track
  have inside : Set.MapsTo (partner n turn) (Set.Iio n) (Set.Iio n) :=
    fun _ => partner_lt turn
  exact Set.InvOn.bijOn ⟨inverse, inverse⟩ inside inside

example : (List.range 3).map (partner 3 .northEast) = [1, 0, 2] := by decide

/-- The coupling that leads from a track of one side to another side. -/
def between (n : Nat) (source : Side) (track : Nat) (target : Side) : Coupling :=
  let turn := Turn.between source target
  let targetTrack := partner n turn track
  { turn, source, sourceTrack := track, target, targetTrack
    named := if source.vertical then track else targetTrack }

theorem between_forth (turn : Turn) (track : Nat) : between n turn.first track turn.second =
    ⟨turn, turn.first, track, turn.second, partner n turn track, track⟩ := by
  cases turn <;> simp [between, Turn.between, Turn.first, Turn.second, Side.vertical, partner,
    Turn.crossed]

theorem between_back (turn : Turn) (track : Nat) :
    between n turn.second (partner n turn track) turn.first =
      ⟨turn, turn.second, partner n turn track, turn.first, track, track⟩ := by
  cases turn <;> simp [between, Turn.between, Turn.first, Turn.second, Side.vertical,
    partner_partner]
  case straightV => simp [partner, Turn.crossed]

theorem mem_ofTracks_iff_between {c : Coupling} : c ∈ ofTracks n ↔
    ∃ source track target, source ≠ target ∧ track < n ∧ between n source track target = c := by
  simp only [mem_ofTracks_iff, bothWays, List.mem_cons, List.not_mem_nil, or_false]
  constructor
  · rintro ⟨turn, track, inside, rfl | rfl⟩
    · exact ⟨_, _, _, turn.first_ne_second, inside, between_forth turn track⟩
    · exact ⟨_, _, _, turn.first_ne_second.symm, partner_lt turn inside, between_back turn track⟩
  · rintro ⟨source, track, target, apart, inside, rfl⟩
    obtain ⟨turn, ⟨rfl, rfl⟩ | ⟨rfl, rfl⟩⟩ := Turn.exists_of_ne apart
    · exact ⟨turn, track, inside, .inl (between_forth turn track)⟩
    · refine ⟨turn, partner n turn track, partner_lt turn inside, .inr ?_⟩
      rw [← between_back turn (partner n turn track), partner_partner]

end Coupling

namespace SwitchBox

variable {box : SwitchBox} {n : Nat}

theorem tracks_eq_ok (square : box.shape = .square)
    (sides : ∀ side : Side, (box.side side).length = n) : box.tracks = .ok n := by
  have north : box.north.length = n := sides .north
  have east : box.east.length = n := sides .east
  have south : box.south.length = n := sides .south
  have west : box.west.length = n := sides .west
  simp [tracks, square, north, east, south, west]

theorem getElem?_side {side : Side} {track : Nat} (inside : track < (box.side side).length) :
    (box.side side)[track]? = some (box.wireOn side track) := by
  rw [wireOn, List.getD_eq_getElem?_getD, List.getElem?_eq_getElem inside, Option.getD_some]

/-- A pip is planned for a coupling: its texts are those of the coupling, and its wires are there
on the sides of the box. -/
structure PipOf (box : SwitchBox) (delay : Delay) (c : Coupling) (p : Pip) (table : SymbolTable) :
    Prop where
  name : table.text? p.name = some (box.pipName c)
  pipType : table.text? p.pipType = some (box.turnTag c.turn)
  source : (box.side c.source)[c.sourceTrack]? = some p.source
  target : (box.side c.target)[c.targetTrack]? = some p.target
  placed : p.delay = delay ∧ p.loc = ⟨box.x, box.y, 0⟩

theorem PipOf.within {delay : Delay} {c : Coupling} {p : Pip} {table later : SymbolTable}
    (within : table.Within later) (of : box.PipOf delay c p table) : box.PipOf delay c p later :=
  { of with name := within.reads of.name, pipType := within.reads of.pipType }

variable {base : SymbolTable} (delay : Delay)

theorem interns_planOne (sides : ∀ side : Side, (box.side side).length = n)
    {typeOf : Turn → Symbol} {c : Coupling} (member : c ∈ Coupling.ofTracks n)
    (typed : base.text? (typeOf c.turn) = some (box.turnTag c.turn)) :
    Interns base (box.planOne delay typeOf c) (box.PipOf delay c) := by
  obtain ⟨-, source, target⟩ := Coupling.tracks_of_mem member
  refine (Interns.symbol _).map fun name table within named => ?_
  exact
    { name := named
      pipType := within.reads typed
      source := getElem?_side (by rwa [sides])
      target := getElem?_side (by rwa [sides])
      placed := ⟨rfl, rfl⟩ }

theorem interns_turnTypes (box : SwitchBox) :
    Interns base
      (Turn.all.mapM fun turn => do
        let s ← Declare.symbol (box.turnTag turn)
        pure (turn, s)) fun types table =>
      ∀ turn : Turn, table.text? ((types.lookup turn).getD default) = some (box.turnTag turn) := by
  refine (Interns.mapM (fun turn entry table =>
    entry.1 = turn ∧ table.text? entry.2 = some (box.turnTag turn)) ?_ ?_).imp ?_
  · exact fun within ⟨named, text⟩ => ⟨named, within.reads text⟩
  · exact fun turn _ _ _ => (Interns.symbol _).map fun s _ _ text => ⟨rfl, text⟩
  · intro types table _ each turn
    have listed : turn ∈ Turn.all := by cases turn <;> decide
    obtain ⟨s, found, text⟩ := lookup_of_forall₂
      (fun turn s => table.text? s = some (box.turnTag turn)) each listed
    rwa [found, Option.getD_some]

/-- A square box with even sides plans a pip for each of its couplings, in their order. -/
theorem interns_plan (square : box.shape = .square)
    (sides : ∀ side : Side, (box.side side).length = n) :
    Interns base (box.plan delay) fun pips table =>
      List.Forall₂ (fun c p => box.PipOf delay c p table) (Coupling.ofTracks n) pips := by
  unfold plan
  rw [tracks_eq_ok square sides]
  have counted : Interns base (Pure.pure n) fun k _ => k = n :=
    Interns.pure fun _ _ => rfl
  refine counted.bind ?_
  rintro _ one within rfl
  refine (interns_turnTypes box).bind fun types two within' typed => ?_
  refine Interns.mapM _ (fun later of => of.within later) fun c member table grown => ?_
  exact interns_planOne delay sides member (grown.reads (typed c.turn))

/-- No two couplings of a box name the same pip. -/
theorem nodup_pipNames (box : SwitchBox) (n : Nat) :
    ((Coupling.ofTracks n).map box.pipName).Nodup := by
  refine List.pairwise_map.mpr ((List.pairwise_map.mp (Coupling.nodup_labels n)).imp ?_)
  intro c c' apart same
  obtain ⟨-, sources, targets, tracks⟩ := pipName_inj rfl same
  exact apart (Prod.ext sources (Prod.ext targets tracks))

section Ways

/-- The other index of a pair `2m`, `2m + 1` below `n`. An index without another is its own. -/
def swapped (n i : Nat) : Nat :=
  if i % 2 = 0 ∧ i + 1 < n then i + 1
  else if i % 2 = 1 ∧ i < n then i - 1
  else i

/-- What the pips from one side to another share: the letters in their names, the text of their
type, and to which index they lead from an index. -/
structure Way where
  letters : String
  pipType : String
  leads : Nat → Nat

/-- The way from each side of a square box with `n` wires a side to each other. From a side to
itself there is none. -/
def way (n : Nat) : Side → Side → Way
  | .north, .south => ⟨"ns", "sq_usb_str_v", id⟩
  | .south, .north => ⟨"sn", "sq_usb_str_v", id⟩
  | .east, .west => ⟨"ew", "sq_usb_str_h", id⟩
  | .west, .east => ⟨"we", "sq_usb_str_h", id⟩
  | .north, .east => ⟨"ne", "sq_usb_ne", swapped n⟩
  | .east, .north => ⟨"en", "sq_usb_ne", swapped n⟩
  | .south, .west => ⟨"sw", "sq_usb_sw", swapped n⟩
  | .west, .south => ⟨"ws", "sq_usb_sw", swapped n⟩
  | .north, .west => ⟨"nw", "sq_usb_nw", id⟩
  | .west, .north => ⟨"wn", "sq_usb_nw", id⟩
  | .south, .east => ⟨"se", "sq_usb_se", id⟩
  | .east, .south => ⟨"es", "sq_usb_se", id⟩
  | .north, .north | .east, .east | .south, .south | .west, .west => ⟨"", "", id⟩

variable {a b : Side} {i : Nat}

theorem partner_of_crossed {turn : Turn} (crossed : turn.crossed = true) :
    Coupling.partner n turn = swapped n := by
  funext i
  have paired : i / 2 < n / 2 ↔ (i % 2 = 0 ∧ i + 1 < n) ∨ (i % 2 = 1 ∧ i < n) := by omega
  simp only [Coupling.partner, Coupling.mate, swapped, crossed, true_and, paired]
  grind

/-- The way from a side to another leads where the turn between them does. -/
theorem leads_way (n : Nat) (a b : Side) :
    (way n a b).leads = Coupling.partner n (Turn.between a b) := by
  cases a <;> cases b <;>
    first | exact (Coupling.partner_of_plain rfl).symm | exact (partner_of_crossed rfl).symm

theorem leads_back : (way n b a).leads ((way n a b).leads i) = i := by
  rw [leads_way, leads_way, Turn.between_comm, Coupling.partner_partner]

theorem pipType_way_comm (n : Nat) (a b : Side) : (way n b a).pipType = (way n a b).pipType := by
  cases a <;> cases b <;> rfl

theorem turnTag_between (square : box.shape = .square) (apart : a ≠ b) :
    box.turnTag (Turn.between a b) = (way n a b).pipType := by
  rw [turnTag, square]
  cases a <;> cases b <;> first | exact absurd rfl apart | rfl

theorem letters_between (apart : a ≠ b) :
    (Coupling.between n a i b).letters = (way n a b).letters := by
  cases a <;> cases b <;> first | exact absurd rfl apart | rfl

theorem name_of_square (square : box.shape = .square) :
    box.name = s!"sq_usb_x{box.x}y{box.y}" := by
  rw [name, square]
  rfl

end Ways

/-- A pip leads from index `i` of side `a` to side `b`, the way it is to lead there. Its name ends
in the two sides and the index on the one that is north or south. -/
structure Joins (box : SwitchBox) (n : Nat) (table : SymbolTable) (a : Side) (i : Nat) (b : Side)
    (p : Pip) : Prop where
  apart : a ≠ b
  inside : i < n
  name : table.text? p.name = some (s!"sq_usb_x{box.x}y{box.y}" ++ (way n a b).letters ++
    toString (if a.vertical then i else (way n a b).leads i))
  pipType : table.text? p.pipType = some (way n a b).pipType
  source : (box.side a)[i]? = some p.source
  target : (box.side b)[(way n a b).leads i]? = some p.target

/-- Two pips lead to and fro between the same two wires of the sides. -/
def Reverse (box : SwitchBox) (n : Nat) (table : SymbolTable) (p q : Pip) : Prop :=
  ∃ a i b, box.Joins n table a i b p ∧ box.Joins n table b ((way n a b).leads i) a q

/-- The pips of a box with `n` wires a side: how many there are, what sets them apart, where they
lead and that each has one that leads back. -/
structure Covers (box : SwitchBox) (n : Nat) (delay : Delay) (table : SymbolTable)
    (pips : List Pip) : Prop where
  count : pips.length = pipCount n ∧ pipCount n = 24 * (n / 2) + 12 * (n % 2)
  names : (pips.map fun p => table.text? p.name).Nodup
  placed : ∀ p ∈ pips, p.delay = delay ∧ p.loc = ⟨box.x, box.y, 0⟩
  joins : ∀ p ∈ pips, ∃ a i b, box.Joins n table a i b p
  each : ∀ a b : Side, a ≠ b → ∀ i < n, ∃! p, p ∈ pips ∧ box.Joins n table a i b p
  onto : ∀ a b : Side, Set.BijOn (way n a b).leads (Set.Iio n) (Set.Iio n)
  reverse : ∀ p ∈ pips, (∃! q, q ∈ pips ∧ box.Reverse n table p q) ∧
    ∀ q, box.Reverse n table p q →
      q.pipType = p.pipType ∧ q.source = p.target ∧ q.target = p.source
  backward : (box.north ++ box.east ++ box.south ++ box.west).Nodup →
    ∀ p ∈ pips, ∃! q, q ∈ pips ∧ q.source = p.target ∧ q.target = p.source

section Joins

variable {table : SymbolTable} {a b a' b' : Side} {i i' : Nat} {p q : Pip}

theorem pipName_between (square : box.shape = .square) (apart : a ≠ b) :
    box.pipName (.between n a i b) = s!"sq_usb_x{box.x}y{box.y}" ++ (way n a b).letters ++
      toString (if a.vertical then i else (way n a b).leads i) := by
  rw [← name_of_square square, ← letters_between apart, leads_way]
  rfl

theorem PipOf.joins {delay : Delay} (square : box.shape = .square) (apart : a ≠ b)
    (inside : i < n) (of : box.PipOf delay (.between n a i b) p table) :
    box.Joins n table a i b p where
  apart := apart
  inside := inside
  name := pipName_between square apart ▸ of.name
  pipType := turnTag_between square apart ▸ of.pipType
  source := of.source
  target := leads_way n a b ▸ of.target

/-- The name of a pip shows between which tracks it leads. -/
theorem Joins.ends (square : box.shape = .square) (left : box.Joins n table a i b p)
    (right : box.Joins n table a' i' b' q) (same : table.text? p.name = table.text? q.name) :
    a = a' ∧ i = i' ∧ b = b' := by
  have names : box.pipName (.between n a i b) = box.pipName (.between n a' i' b') := by
    rw [pipName_between square left.apart, pipName_between square right.apart]
    exact Option.some.inj (left.name.symm.trans (same.trans right.name))
  obtain ⟨-, sources, targets, named⟩ := pipName_inj rfl names
  cases sources
  cases targets
  refine ⟨rfl, ?_, rfl⟩
  simp only [Coupling.between] at named
  split at named
  · exact named
  · rw [← Coupling.partner_partner (n := n) (Turn.between a b) i, named, Coupling.partner_partner]

/-- A pip that leads back has the same type and the same wires. -/
theorem Joins.back (forth : box.Joins n table a i b p)
    (back : box.Joins n table b ((way n a b).leads i) a q) :
    q.pipType = p.pipType ∧ q.source = p.target ∧ q.target = p.source := by
  have types := back.pipType
  have target := back.target
  rw [pipType_way_comm] at types
  rw [leads_back] at target
  exact ⟨SymbolTable.eq_of_text? types forth.pipType,
    Option.some.inj (back.source.symm.trans forth.target),
    Option.some.inj (target.symm.trans forth.source)⟩

end Joins

/-- Where no wire is on the box twice, a wire shows its side and its track. -/
theorem ends_of_nodup (nodup : (box.north ++ box.east ++ box.south ++ box.west).Nodup)
    {a b : Side} {i j : Nat} {w : Symbol} (left : (box.side a)[i]? = some w)
    (right : (box.side b)[j]? = some w) : a = b ∧ i = j := by
  have sides : ([Side.north, .east, .south, .west].flatMap box.side).Nodup := by
    simpa [side, List.append_assoc] using nodup
  obtain ⟨each, disjoint⟩ := List.nodup_flatMap.mp sides
  have listed : ∀ s : Side, s ∈ [Side.north, .east, .south, .west] := by
    intro s
    cases s <;> decide
  have same : a = b := by
    by_contra apart
    have symm : Std.Symm (Function.onFun List.Disjoint box.side) :=
      ⟨fun _ _ none _ left right => none right left⟩
    exact disjoint.forall (listed a) (listed b) apart (List.mem_of_getElem? left)
      (List.mem_of_getElem? right)
  subst same
  obtain ⟨inside, -⟩ := List.getElem?_eq_some_iff.mp left
  exact ⟨rfl, (List.getElem?_inj inside (each a (listed a))).mp (left.trans right.symm)⟩

section Planned

variable {delay : Delay} {table : SymbolTable} {pips : List Pip}
  (planned : List.Forall₂ (fun c p => box.PipOf delay c p table) (Coupling.ofTracks n) pips)

include planned

theorem names_of_planned : (pips.map fun p => table.text? p.name).Nodup := by
  have texts : (pips.map fun p => table.text? p.name) =
      (Coupling.ofTracks n).map fun c => some (box.pipName c) :=
    map_eq_of_forall₂ (planned.imp fun _ _ of => of.name)
  rw [texts]
  simpa [Function.comp_def] using (box.nodup_pipNames n).map (Option.some_injective _)

theorem joins_of_planned (square : box.shape = .square) {p : Pip} (member : p ∈ pips) :
    ∃ a i b, box.Joins n table a i b p := by
  obtain ⟨c, coupled, of⟩ := exists_of_forall₂ planned member
  obtain ⟨a, i, b, apart, inside, rfl⟩ := Coupling.mem_ofTracks_iff_between.mp coupled
  exact ⟨a, i, b, of.joins square apart inside⟩

theorem existsUnique_of_planned (square : box.shape = .square)
    {a b : Side} (apart : a ≠ b) {i : Nat} (inside : i < n) :
    ∃! p, p ∈ pips ∧ box.Joins n table a i b p := by
  have coupled := Coupling.mem_ofTracks_iff_between.mpr ⟨a, i, b, apart, inside, rfl⟩
  obtain ⟨p, member, of⟩ := exists_of_forall₂ planned.flip coupled
  have joins := of.joins square apart inside
  refine ⟨p, ⟨member, joins⟩, ?_⟩
  rintro q ⟨there, joined⟩
  exact List.inj_on_of_nodup_map (names_of_planned planned) there member
    (joined.name.trans joins.name.symm)

theorem covers_of_planned (square : box.shape = .square) :
    box.Covers n delay table pips := by
  have joins {p : Pip} (member : p ∈ pips) := joins_of_planned planned square member
  have onto (a b : Side) : Set.BijOn (way n a b).leads (Set.Iio n) (Set.Iio n) :=
    leads_way n a b ▸ Coupling.bijOn_partner _
  have back {a i b p} (forth : box.Joins n table a i b p) :
      ∃! q, q ∈ pips ∧ box.Joins n table b ((way n a b).leads i) a q :=
    existsUnique_of_planned planned square forth.apart.symm ((onto a b).mapsTo forth.inside)
  constructor
  case count => exact ⟨planned.length_eq.symm.trans (Coupling.length_ofTracks n), rfl⟩
  case names => exact names_of_planned planned
  case placed =>
    intro p member
    obtain ⟨c, -, of⟩ := exists_of_forall₂ planned member
    exact of.placed
  case joins => exact fun p => joins
  case each => exact fun a b apart i inside => existsUnique_of_planned planned square apart inside
  case onto => exact onto
  case reverse =>
    intro p member
    constructor
    · obtain ⟨a, i, b, forth⟩ := joins member
      obtain ⟨q, ⟨there, returns⟩, unique⟩ := back forth
      refine ⟨q, ⟨there, a, i, b, forth, returns⟩, ?_⟩
      -- Both ways say where the pip leads from and to, and its name leaves no choice.
      rintro q' ⟨there', a', i', b', forth', returns'⟩
      obtain ⟨rfl, rfl, rfl⟩ := forth.ends square forth' rfl
      exact unique q' ⟨there', returns'⟩
    · rintro q ⟨a, i, b, forth, returns⟩
      exact forth.back returns
  case backward =>
    intro nodup p member
    obtain ⟨a, i, b, forth⟩ := joins member
    obtain ⟨q, ⟨there, returns⟩, unique⟩ := back forth
    refine ⟨q, ⟨there, (forth.back returns).2⟩, ?_⟩
    rintro q' ⟨there', source, target⟩
    obtain ⟨a', i', b', returns'⟩ := joins there'
    obtain ⟨rfl, rfl⟩ := ends_of_nodup nodup forth.target (source ▸ returns'.source)
    obtain ⟨rfl, -⟩ := ends_of_nodup nodup forth.source (target ▸ returns'.target)
    exact unique q' ⟨there', returns'⟩

end Planned

/-- A square box whose sides have `n` wires each is planned from every recorder. The recorder only
learns the texts, and the pips lead from every index of every side to each of the others. -/
theorem plan_covers (delay : Delay) (square : box.shape = .square)
    (sides : ∀ side : Side, (box.side side).length = n) (r : Recorder) : ∃ pips table,
    (box.plan delay).run r = (.ok pips, { r with symbols := table }) ∧
      r.symbols.Within table ∧ box.Covers n delay table pips := by
  obtain ⟨pips, table, ran, within, planned⟩ := interns_plan delay square sides r (.refl _)
  exact ⟨pips, table, ran, within, covers_of_planned planned square⟩

/-- A box with a pair of tracks and one more. -/
def threeTracks : SwitchBox where
  x := 1
  y := 2
  shape := .square
  north := [⟨0⟩, ⟨1⟩, ⟨2⟩]
  east := [⟨3⟩, ⟨4⟩, ⟨5⟩]
  south := [⟨6⟩, ⟨7⟩, ⟨8⟩]
  west := [⟨9⟩, ⟨10⟩, ⟨11⟩]

/-- Among its 36 pips are one that changes from index 0 to index 1 on its way from north to east,
and one that stays on the last index from south to west. -/
theorem threeTracks_covers :
    threeTracks.shape = .square ∧ (∀ side : Side, (threeTracks.side side).length = 3) ∧
      ∃ pips table, (threeTracks.plan default).run .empty =
          (.ok pips, { Recorder.empty with symbols := table }) ∧
        threeTracks.Covers 3 default table pips ∧ pips.length = 36 ∧
        (∀ p ∈ pips, ∃! q, q ∈ pips ∧ q.source = p.target ∧ q.target = p.source) ∧
        (∃ p ∈ pips, table.text? p.name = some "sq_usb_x1y2ne0" ∧
          table.text? p.pipType = some "sq_usb_ne" ∧ p.source = ⟨0⟩ ∧ p.target = ⟨4⟩) ∧
        ∃ p ∈ pips, table.text? p.name = some "sq_usb_x1y2sw2" ∧
          table.text? p.pipType = some "sq_usb_sw" ∧ p.source = ⟨8⟩ ∧ p.target = ⟨11⟩ := by
  have sides : ∀ side : Side, (threeTracks.side side).length = 3 := by
    intro side
    cases side <;> rfl
  obtain ⟨pips, table, ran, -, covers⟩ := plan_covers default rfl sides .empty
  obtain ⟨ne, ⟨neThere, ne0⟩, -⟩ := covers.each .north .east (by decide) 0 (by decide)
  obtain ⟨sw, ⟨swThere, sw2⟩, -⟩ := covers.each .south .west (by decide) 2 (by decide)
  refine ⟨rfl, sides, pips, table, ran, covers, covers.count.1, covers.backward (by decide),
    ⟨ne, neThere, ?_⟩, ⟨sw, swThere, ?_⟩⟩
  · exact ⟨ne0.name, ne0.pipType, (Option.some.inj ne0.source).symm,
      (Option.some.inj ne0.target).symm⟩
  · exact ⟨sw2.name, sw2.pipType, (Option.some.inj sw2.source).symm,
      (Option.some.inj sw2.target).symm⟩

end SwitchBox

end TileFabric
