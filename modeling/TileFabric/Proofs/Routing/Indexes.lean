import TileFabric.Proofs.Routing.Ledger
import TileFabric.Proofs.Routing.Positions

/-!
# The indices of a recorder

`Indexed` says what the indices of a recorder have to do with its declarations: they hold the
positions that a scan would find. So the recorder sees what its ledger sees, in its declarations
and against further ones, and every declaration that it takes in keeps its indices right.
-/

set_option autoImplicit false

namespace TileFabric

open Positions

theorem toNat_max (a b : UInt32) : (max a b).toNat = max a.toNat b.toNat := by
  by_cases below : a ≤ b
  · rw [show max a b = b from if_pos below, Nat.max_eq_right (UInt32.le_iff_toNat_le.mp below)]
  · rw [show max a b = a from if_neg below]
    rw [UInt32.le_iff_toNat_le] at below
    omega

namespace Ledger

theorem foldl_max (values : List Nat) (start : Nat) :
    values.foldl max start = max start (values.foldl max 0) := by
  induction values generalizing start with
  | nil => simp
  | cons value rest ih =>
    rw [List.foldl_cons, List.foldl_cons, ih, ih (max 0 value)]
    omega

theorem extent_append (left right : List UInt32) :
    extent (left ++ right) = max (extent left) (extent right) := by
  unfold extent
  rw [List.map_append, List.foldl_append, foldl_max]

theorem extent_cons (c : UInt32) (rest : List UInt32) :
    extent (c :: rest) = max (min (c.toNat + 1) (UInt32.size - 1)) (extent rest) := by
  unfold extent
  rw [List.map_cons, List.foldl_cons, foldl_max, Nat.zero_max]

end Ledger

namespace Recorder

/-- The declarations of a recorder without its indices. -/
def ledger (r : Recorder) : Ledger where
  symbols := r.symbols
  wires := r.wires.toList
  pips := r.pips.toList
  bels := r.bels.toList
  belPins := r.belPins.toList

/-- What touches a wire, by its positions. -/
structure Touching (r : Recorder) (name : Symbol) (e : WireEntry) : Prop where
  downhill : Picks r.pips (·.source = name) e.downhill
  uphill : Picks r.pips (·.target = name) e.uphill
  belPins : Picks r.belPins (·.wire = name) e.belPins

/-- Pips and bel pins have the wires and bels that they name. -/
structure Grounded (r : Recorder) : Prop where
  source : ∀ p ∈ r.pips.toList, r.ledger.HasWire p.source
  target : ∀ p ∈ r.pips.toList, r.ledger.HasWire p.target
  wire : ∀ p ∈ r.belPins.toList, r.ledger.HasWire p.wire
  bel : ∀ p ∈ r.belPins.toList, ∃ b ∈ r.bels.toList, b.name = p.bel

structure Indexed (r : Recorder) : Prop extends Grounded r where
  wires : ∀ name : Symbol,
    Locates r.wires (·.name = name) (r.wireIndex[name]?.map (·.position))
  pips : ∀ name : Symbol, Locates r.pips (·.name = name) r.pipIndex[name]?
  bels : ∀ name : Symbol, Locates r.bels (·.name = name) (r.belIndex[name]?.map (·.position))
  places : ∀ loc : Loc, Locates r.bels (·.loc = loc) r.belsByLoc[loc]?
  touching : ∀ {name : Symbol} {e : WireEntry}, r.wireIndex[name]? = some e → r.Touching name e
  pins : ∀ {bel : Symbol} {e : BelEntry}, r.belIndex[bel]? = some e → ∀ pin : Symbol,
    pin ∈ e.pins ↔ ∃ p ∈ r.belPins.toList, p.bel = bel ∧ p.pin = pin
  extents : (r.columns.toNat, r.rows.toNat) = r.ledger.dimensions

theorem indexed_empty : Indexed empty where
  source _ member := by cases member
  target _ member := by cases member
  wire _ member := by cases member
  bel _ member := by cases member
  wires _ := locates_empty _
  pips _ := locates_empty _
  bels _ := locates_empty _
  places _ := locates_empty _
  touching there := by cases there
  pins there := by cases there
  extents := rfl

section Queries

variable {r : Recorder}

theorem Indexed.wireAt?_eq (indexed : r.Indexed) (name : Symbol) :
    r.wireAt? name = r.ledger.wireAt? name := by
  refine Eq.trans ?_ (indexed.wires name).find
  unfold wireAt?
  cases r.wireIndex[name]? <;> rfl

theorem Indexed.pipAt?_eq (indexed : r.Indexed) (name : Symbol) :
    r.pipAt? name = r.ledger.pipAt? name :=
  (indexed.pips name).find

theorem Indexed.belAt?_eq (indexed : r.Indexed) (name : Symbol) :
    r.belAt? name = r.ledger.belAt? name := by
  refine Eq.trans ?_ (indexed.bels name).find
  unfold belAt?
  cases r.belIndex[name]? <;> rfl

theorem Indexed.belAtLoc?_eq (indexed : r.Indexed) (loc : Loc) :
    r.belAtLoc? loc = r.ledger.belAtLoc? loc :=
  (indexed.places loc).find

theorem Indexed.hasWire_iff (indexed : r.Indexed) (name : Symbol) :
    r.wireIndex.contains name = true ↔ r.ledger.HasWire name := by
  rw [Std.ExtTreeMap.contains_eq_isSome_getElem?, ← Option.isSome_map (f := (·.position)),
    (indexed.wires name).isSome_iff]
  simp [Ledger.HasWire, ledger]

theorem Indexed.hasPip_iff (indexed : r.Indexed) (name : Symbol) :
    r.pipIndex.contains name = true ↔ ∃ p ∈ r.ledger.pips, p.name = name := by
  rw [Std.ExtTreeMap.contains_eq_isSome_getElem?, (indexed.pips name).isSome_iff]
  simp [ledger]

theorem Indexed.hasBel_iff (indexed : r.Indexed) (name : Symbol) :
    r.belIndex.contains name = true ↔ ∃ b ∈ r.ledger.bels, b.name = name := by
  rw [Std.ExtTreeMap.contains_eq_isSome_getElem?, ← Option.isSome_map (f := (·.position)),
    (indexed.bels name).isSome_iff]
  simp [ledger]

theorem Indexed.hasPlace_iff (indexed : r.Indexed) (loc : Loc) :
    r.belsByLoc.contains loc = true ↔ ∃ b ∈ r.ledger.bels, b.loc = loc := by
  rw [Std.ExtTreeMap.contains_eq_isSome_getElem?, (indexed.places loc).isSome_iff]
  simp [ledger]

/-- Nothing touches a wire that is not declared. -/
theorem Indexed.untouched (indexed : r.Indexed) {name : Symbol}
    (absent : ¬ r.ledger.HasWire name) (position : Nat) : r.Touching name { position } := by
  constructor
  case downhill =>
    apply picks_nothing
    intro p member
    exact decide_eq_false fun same => absent (same ▸ indexed.source p member)
  case uphill =>
    apply picks_nothing
    intro p member
    exact decide_eq_false fun same => absent (same ▸ indexed.target p member)
  case belPins =>
    apply picks_nothing
    intro p member
    exact decide_eq_false fun same => absent (same ▸ indexed.wire p member)

/-- The three lists at a wire are what scans for it find. -/
theorem Indexed.touching_eq (indexed : r.Indexed) (name : Symbol) :
    r.downhill name = r.ledger.downhill name ∧ r.uphill name = r.ledger.uphill name ∧
      r.pinsOn name = r.ledger.pinsOn name := by
  unfold downhill uphill pinsOn
  cases there : r.wireIndex[name]? with
  | some e =>
    obtain ⟨leaving, arriving, pins⟩ := indexed.touching there
    exact ⟨leaving.filter, arriving.filter, pins.filter⟩
  | none =>
    have absent : ¬ r.ledger.HasWire name := by
      rw [← indexed.hasWire_iff, Std.ExtTreeMap.contains_eq_isSome_getElem?, there]
      simp
    obtain ⟨leaving, arriving, pins⟩ := indexed.untouched absent 0
    exact ⟨leaving.filter, arriving.filter, pins.filter⟩

end Queries

section Requests

variable {r : Recorder}

theorem Indexed.wireError?_eq (indexed : r.Indexed) (w : Wire) :
    r.wireError? w = r.ledger.error? (.wire w) := by
  simp only [wireError?, Ledger.error?, indexed.hasWire_iff]
  rfl

theorem Indexed.pipError?_eq (indexed : r.Indexed) (p : Pip) :
    r.pipError? p = r.ledger.error? (.pip p) := by
  simp only [pipError?, Ledger.error?, indexed.hasPip_iff, ← indexed.hasWire_iff,
    Bool.not_eq_true, Bool.not_eq_true']
  rfl

theorem Indexed.belError?_eq (indexed : r.Indexed) (b : Bel) :
    r.belError? b = r.ledger.error? (.bel b) := by
  simp only [belError?, Ledger.error?, indexed.hasBel_iff, indexed.hasPlace_iff]
  rfl

theorem Indexed.belPinError?_eq (indexed : r.Indexed) (p : BelPin) :
    r.belPinError? p = r.ledger.error? (.belPin p) := by
  have declared := indexed.hasBel_iff p.bel
  rw [Std.ExtTreeMap.contains_eq_isSome_getElem?] at declared
  unfold belPinError? Ledger.error?
  cases there : r.belIndex[p.bel]? with
  | none =>
    have absent : ¬ ∃ b ∈ r.ledger.bels, b.name = p.bel := by simp [← declared, there]
    simp only [absent, not_false_eq_true, if_true]
    rfl
  | some e =>
    have present : ∃ b ∈ r.ledger.bels, b.name = p.bel := by simp [← declared, there]
    have taken : e.pins.contains p.pin = true ↔
        ∃ q ∈ r.ledger.belPins, q.bel = p.bel ∧ q.pin = p.pin := by
      rw [Std.ExtTreeSet.contains_iff_mem]
      exact indexed.pins there p.pin
    simp only [present, not_true_eq_false, if_false, taken, ← indexed.hasWire_iff,
      Bool.not_eq_true, Bool.not_eq_true']
    rfl

end Requests

theorem toNat_saturatingNext (c : UInt32) :
    (saturatingNext c).toNat = min (c.toNat + 1) (UInt32.size - 1) := by
  have bound := c.toNat_lt
  unfold saturatingNext
  split
  · rename_i last
    simp [last, UInt32.size]
  · rename_i other
    have apart : c.toNat ≠ 4294967295 := fun same => other (UInt32.toNat_inj.mp same)
    simp only [UInt32.toNat_add, UInt32.size, UInt32.reduceToNat]
    omega

/-- A grid extended to hold a place has the extent of the places with that one among them. -/
theorem extents_extendTo {r : Recorder} {l later : Ledger} (before behind : List Loc) {loc : Loc}
    (extents : (r.columns.toNat, r.rows.toNat) = l.dimensions)
    (places : l.places = before ++ behind) (joined : later.places = before ++ loc :: behind) :
    ((r.extendTo loc).columns.toNat, (r.extendTo loc).rows.toNat) = later.dimensions := by
  simp only [Ledger.dimensions, places, Prod.mk.injEq, List.map_append, Ledger.extent_append]
    at extents
  simp only [extendTo, toNat_max, toNat_saturatingNext, Ledger.dimensions, joined,
    List.map_append, List.map_cons, Ledger.extent_append, Ledger.extent_cons, Prod.mk.injEq,
    extents]
  omega

variable {r : Recorder}

theorem indexed_pushWire (indexed : r.Indexed) {w : Wire} (new : ¬ r.ledger.HasWire w.name) :
    (r.pushWire w).Indexed := by
  have kept : ∀ {name : Symbol}, r.ledger.HasWire name → (r.pushWire w).ledger.HasWire name := by
    rintro name ⟨v, member, named⟩
    exact ⟨v, by simp [ledger, pushWire, show v ∈ r.wires.toList from member], named⟩
  have lookup : ∀ name : Symbol, (r.pushWire w).wireIndex[name]? =
      if w.name = name then some { position := r.wires.size } else r.wireIndex[name]? :=
    fun name => lookup_insert_key ..
  have unlisted : r.wireIndex[w.name]? = none := by
    rw [← indexed.hasWire_iff, Std.ExtTreeMap.contains_eq_isSome_getElem?] at new
    simpa using new
  constructor
  case toGrounded =>
    exact ⟨fun p member => kept (indexed.source p member),
      fun p member => kept (indexed.target p member),
      fun p member => kept (indexed.wire p member), indexed.bel⟩
  case wires =>
    refine Locates.extend indexed.wires (by rw [unlisted]; rfl) fun name => ?_
    rw [lookup]
    split <;> rfl
  case pips => exact indexed.pips
  case bels => exact indexed.bels
  case places => exact indexed.places
  case touching =>
    intro name e there
    rw [lookup] at there
    split at there
    · rename_i same
      cases there
      subst same
      obtain ⟨leaving, arriving, pins⟩ := indexed.untouched new r.wires.size
      exact ⟨leaving, arriving, pins⟩
    · obtain ⟨leaving, arriving, pins⟩ := indexed.touching there
      exact ⟨leaving, arriving, pins⟩
  case pins => exact indexed.pins
  case extents => exact indexed.extents

/-- What a pip does to the entry of a wire. -/
def passed (p : Pip) (position : Nat) (name : Symbol) (e : WireEntry) : WireEntry :=
  { e with
    downhill := if p.source = name then e.downhill.push position else e.downhill
    uphill := if p.target = name then e.uphill.push position else e.uphill }

theorem lookup_wireIndex_pushPip (p : Pip) (r : Recorder) (name : Symbol) :
    (r.pushPip p).wireIndex[name]? = r.wireIndex[name]?.map (passed p r.pips.size name) := by
  have modified : (r.pushPip p).wireIndex =
      (r.wireIndex.modify p.source fun e => { e with downhill := e.downhill.push r.pips.size }).modify
        p.target fun e => { e with uphill := e.uphill.push r.pips.size } := rfl
  rw [modified, lookup_modify_key, lookup_modify_key]
  unfold passed
  by_cases source : p.source = name <;> by_cases target : p.target = name <;>
    cases r.wireIndex[name]? <;> simp [source, target]

theorem indexed_pushPip (indexed : r.Indexed) {p : Pip}
    (new : ¬ ∃ q ∈ r.ledger.pips, q.name = p.name) (source : r.ledger.HasWire p.source)
    (target : r.ledger.HasWire p.target) : (r.pushPip p).Indexed := by
  have unlisted : r.pipIndex[p.name]? = none := by
    rw [← indexed.hasPip_iff, Std.ExtTreeMap.contains_eq_isSome_getElem?] at new
    simpa using new
  constructor
  case toGrounded =>
    constructor
    case source => exact forall_mem_push.mpr ⟨indexed.source, source⟩
    case target => exact forall_mem_push.mpr ⟨indexed.target, target⟩
    case wire => exact indexed.wire
    case bel => exact indexed.bel
  case wires =>
    intro name
    rw [lookup_wireIndex_pushPip, Option.map_map]
    exact indexed.wires name
  case pips => exact Locates.extend indexed.pips unlisted fun _ => lookup_insert_key ..
  case bels => exact indexed.bels
  case places => exact indexed.places
  case touching =>
    intro name e there
    rw [lookup_wireIndex_pushPip] at there
    obtain ⟨old, oldThere, rfl⟩ := Option.map_eq_some_iff.mp there
    obtain ⟨leaving, arriving, pins⟩ := indexed.touching oldThere
    exact ⟨leaving.push_if decide_eq_true_iff, arriving.push_if decide_eq_true_iff, pins⟩
  case pins => exact indexed.pins
  case extents =>
    apply extents_extendTo r.ledger.places [] indexed.extents
    · simp
    · simp [Ledger.places, ledger, pushPip, extendTo]

theorem indexed_pushBel (indexed : r.Indexed) {b : Bel}
    (new : ¬ ∃ c ∈ r.ledger.bels, c.name = b.name) (free : ¬ ∃ c ∈ r.ledger.bels, c.loc = b.loc) :
    (r.pushBel b).Indexed := by
  have unlisted : r.belIndex[b.name]? = none := by
    rw [← indexed.hasBel_iff, Std.ExtTreeMap.contains_eq_isSome_getElem?] at new
    simpa using new
  have unplaced : r.belsByLoc[b.loc]? = none := by
    rw [← indexed.hasPlace_iff, Std.ExtTreeMap.contains_eq_isSome_getElem?] at free
    simpa using free
  have lookup : ∀ name : Symbol, (r.pushBel b).belIndex[name]? =
      if b.name = name then some { position := r.bels.size } else r.belIndex[name]? :=
    fun name => lookup_insert_key ..
  have bels : (r.pushBel b).bels = r.bels.push b := rfl
  constructor
  case toGrounded =>
    refine ⟨indexed.source, indexed.target, indexed.wire, fun p member => ?_⟩
    obtain ⟨c, old, named⟩ := indexed.bel p member
    exact ⟨c, by rw [bels, Array.toList_push]; exact List.mem_append_left _ old, named⟩
  case wires => exact indexed.wires
  case pips => exact indexed.pips
  case bels =>
    refine Locates.extend indexed.bels (by rw [unlisted]; rfl) fun name => ?_
    rw [lookup]
    split <;> rfl
  case places => exact Locates.extend indexed.places unplaced fun _ => lookup_insert_key ..
  case touching =>
    intro name e there
    obtain ⟨leaving, arriving, pins⟩ := indexed.touching there
    exact ⟨leaving, arriving, pins⟩
  case pins =>
    intro bel e there pin
    rw [lookup] at there
    split at there
    · rename_i same
      cases there
      -- A new bel has no pins yet, for a pin would have needed the bel.
      have none_yet : ¬ ∃ p ∈ r.belPins.toList, p.bel = bel ∧ p.pin = pin := by
        rintro ⟨p, member, onBel, -⟩
        obtain ⟨c, old, named⟩ := indexed.bel p member
        exact new ⟨c, old, named.trans (onBel.trans same.symm)⟩
      exact iff_of_false (by simp) none_yet
    · exact indexed.pins there pin
  case extents =>
    apply extents_extendTo (r.ledger.bels.map (·.loc)) (r.ledger.pips.map (·.loc))
      indexed.extents
    · rfl
    · simp [Ledger.places, ledger, pushBel, extendTo]

theorem indexed_pushBelPin (indexed : r.Indexed) {p : BelPin}
    (bel : ∃ b ∈ r.ledger.bels, b.name = p.bel) (wire : r.ledger.HasWire p.wire) :
    (r.pushBelPin p).Indexed := by
  have belPins : (r.pushBelPin p).belPins = r.belPins.push p := rfl
  have lookupWire : ∀ name : Symbol, (r.pushBelPin p).wireIndex[name]? =
      if p.wire = name then
        r.wireIndex[name]?.map fun e => { e with belPins := e.belPins.push r.belPins.size }
      else r.wireIndex[name]? :=
    fun name => lookup_modify_key ..
  have lookupBel : ∀ name : Symbol, (r.pushBelPin p).belIndex[name]? =
      if p.bel = name then r.belIndex[name]?.map fun e => { e with pins := e.pins.insert p.pin }
      else r.belIndex[name]? :=
    fun name => lookup_modify_key ..
  constructor
  case toGrounded =>
    exact ⟨indexed.source, indexed.target, forall_mem_push.mpr ⟨indexed.wire, wire⟩,
      forall_mem_push.mpr ⟨indexed.bel, bel⟩⟩
  case wires =>
    intro name
    have positions : (r.pushBelPin p).wireIndex[name]?.map (·.position) =
        r.wireIndex[name]?.map (·.position) := by
      rw [lookupWire]
      split
      · rw [Option.map_map]
        rfl
      · rfl
    rw [positions]
    exact indexed.wires name
  case pips => exact indexed.pips
  case bels =>
    intro name
    have positions : (r.pushBelPin p).belIndex[name]?.map (·.position) =
        r.belIndex[name]?.map (·.position) := by
      rw [lookupBel]
      split
      · rw [Option.map_map]
        rfl
      · rfl
    rw [positions]
    exact indexed.bels name
  case places => exact indexed.places
  case touching =>
    intro name e there
    rw [lookupWire] at there
    split at there
    · rename_i same
      obtain ⟨old, oldThere, rfl⟩ := Option.map_eq_some_iff.mp there
      obtain ⟨leaving, arriving, pins⟩ := indexed.touching oldThere
      exact ⟨leaving, arriving, pins.push_new (by simpa using same)⟩
    · rename_i other
      obtain ⟨leaving, arriving, pins⟩ := indexed.touching there
      exact ⟨leaving, arriving, pins.push (by simpa using other)⟩
  case pins =>
    intro name e there pin
    rw [belPins, Array.toList_push]
    rw [lookupBel] at there
    split at there
    · rename_i same
      obtain ⟨old, oldThere, rfl⟩ := Option.map_eq_some_iff.mp there
      have before := indexed.pins oldThere pin
      simp only [Std.ExtTreeSet.mem_insert, List.mem_append, List.mem_singleton] at before ⊢
      grind
    · rename_i other
      have before := indexed.pins there pin
      simp only [List.mem_append, List.mem_singleton]
      grind
  case extents => exact indexed.extents

theorem Indexed.withSymbols (indexed : r.Indexed) (symbols : SymbolTable) :
    Indexed { r with symbols } :=
  { indexed with touching := fun there => { indexed.touching there with } }

end Recorder

end TileFabric
