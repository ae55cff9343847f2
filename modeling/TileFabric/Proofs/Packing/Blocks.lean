import TileFabric.Packing.Bench
import TileFabric.Proofs.NameMap
import TileFabric.Proofs.Numerals
import TileFabric.Proofs.Runs

/-!
# New blocks and flip-flops

The makers of cells never fail: the port names of a logic block are distinct for every table
width, since a slot and an input can be read back from the name of a table input. A new cell has
exactly its ports, and all of them are free. For a logic block, `PortOf` says which ports these are
without the order in which they are declared.
-/

set_option autoImplicit false

namespace TileFabric

namespace Cell

/-- A cell with more ports, all of them free. -/
def withPorts (direction : PortDirection) (names : List String) (cell : Cell) : Cell :=
  { cell with ports := names.foldl (fun ports name => ports.insert name { direction }) cell.ports }

theorem lookup_ports_withPorts (direction : PortDirection) (names : List String) (cell : Cell)
    (port : String) :
    (cell.withPorts direction names).ports[port]? =
      if port ∈ names then some { direction } else cell.ports[port]? := by
  unfold withPorts
  dsimp only
  generalize cell.ports = ports
  induction names generalizing ports with
  | nil => simp
  | cons name rest ih =>
    rw [List.foldl_cons, ih, NameMap.lookup_insert]
    grind

theorem mem_ports_withPorts (direction : PortDirection) (names : List String) (cell : Cell)
    (port : String) :
    port ∈ (cell.withPorts direction names).ports ↔ port ∈ names ∨ port ∈ cell.ports := by
  rw [NameMap.mem_iff_lookup, NameMap.mem_iff_lookup, lookup_ports_withPorts]
  by_cases new : port ∈ names <;> simp [new]

/-- Names that come after a new one are still new when that one has joined. -/
private theorem fresh_insert {ports : NameMap Port} {name : String} {rest : List String}
    (distinct : (name :: rest).Nodup) (fresh : ∀ other ∈ name :: rest, other ∉ ports) (port : Port) :
    ∀ other ∈ rest, other ∉ ports.insert name port := by
  intro other member
  rw [Std.ExtTreeMap.mem_insert, not_or]
  refine ⟨fun same => ?_, fresh other (List.mem_cons_of_mem _ member)⟩
  obtain rfl := Std.LawfulEqOrd.eq_of_compare same
  exact (List.nodup_cons.mp distinct).1 member

/-- Distinct names that the cell does not have yet are as many ports more. -/
theorem size_ports_withPorts (direction : PortDirection) {names : List String} {cell : Cell}
    (distinct : names.Nodup) (fresh : ∀ name ∈ names, name ∉ cell.ports) :
    (cell.withPorts direction names).ports.size = cell.ports.size + names.length := by
  unfold withPorts
  dsimp only
  generalize cell.ports = ports at fresh ⊢
  induction names generalizing ports with
  | nil => rfl
  | cons name rest ih =>
    have first : (ports.insert name { direction }).size = ports.size + 1 := by
      rw [Std.ExtTreeMap.size_insert, if_neg (by simpa using fresh name List.mem_cons_self)]
    rw [List.foldl_cons, ih distinct.of_cons _ (fresh_insert distinct fresh _), first,
      List.length_cons]
    omega

/-- Distinct names that the cell does not have yet are all accepted. -/
theorem addPorts_eq (direction : PortDirection) {names : List String} {cell : Cell}
    (distinct : names.Nodup) (fresh : ∀ name ∈ names, name ∉ cell.ports) :
    cell.addPorts direction names = .ok (cell.withPorts direction names) := by
  induction names generalizing cell with
  | nil => rfl
  | cons name rest ih =>
    have first : cell.addPort direction name =
        .ok { cell with ports := cell.ports.insert name { direction } } := by
      simp [addPort, fresh name List.mem_cons_self]
    unfold addPorts at ih ⊢
    rw [List.foldlM_cons, first]
    exact ih distinct.of_cons (fresh_insert distinct fresh _)

end Cell

namespace LogicBlock

/-- The slot and the input can be read back from the name of a table input. -/
theorem lutInput_inj {slot slot' input input' : Nat}
    (same : lutInput slot input = lutInput slot' input') : slot = slot' ∧ input = input' := by
  have chars : Nat.toDigits 10 slot ++ '_' :: 'I' :: Nat.toDigits 10 input =
      Nat.toDigits 10 slot' ++ '_' :: 'I' :: Nat.toDigits 10 input' := by
    have lists := congrArg String.toList same
    simpa [lutInput, toString] using lists
  rw [List.append_cons_inj_of_notMem (by simp) (by simp)] at chars
  obtain ⟨slots, -, inputs⟩ := chars
  exact ⟨toDigits_inj slots, toDigits_inj (List.cons.inj inputs).2⟩

theorem mem_lutInputs_iff (k : UInt32) (port : String) :
    port ∈ lutInputs k ↔ ∃ slot ∈ slots, ∃ input < k.toNat, lutInput slot input = port := by
  simp [lutInputs]

theorem lutInput_mem {slot input : Nat} {k : UInt32} (isSlot : slot ∈ slots)
    (narrow : input < k.toNat) : lutInput slot input ∈ lutInputs k :=
  (mem_lutInputs_iff k _).mpr ⟨slot, isSlot, input, narrow, rfl⟩

theorem nodup_lutInputs (k : UInt32) : (lutInputs k).Nodup := by
  unfold lutInputs List.Nodup
  rw [List.pairwise_flatMap]
  constructor
  · intro slot _
    rw [List.pairwise_map]
    exact List.nodup_range.imp fun apart same => apart (lutInput_inj same).2
  · have distinct : slots.Nodup := by decide
    refine distinct.imp fun {first second} apart => ?_
    intro left leftMem right rightMem same
    obtain ⟨i, -, rfl⟩ := List.mem_map.mp leftMem
    obtain ⟨j, -, rfl⟩ := List.mem_map.mp rightMem
    exact apart (lutInput_inj same).1

theorem nodup_sharedInputs : sharedInputs.Nodup := by decide

theorem nodup_outputs : outputs.Nodup := by decide +kernel

/-- Only the names of table inputs begin with an `L`. -/
theorem not_mem_lutInputs {port : String} (other : port ∈ sharedInputs ∨ port ∈ outputs)
    (k : UInt32) : port ∉ lutInputs k := by
  intro member
  obtain ⟨slot, -, input, -, rfl⟩ := (mem_lutInputs_iff k port).mp member
  have initial : (lutInput slot input).toList.head? = some 'L' := by simp [lutInput, toString]
  have others : ∀ name ∈ sharedInputs ++ outputs, name.toList.head? ≠ some 'L' := by
    decide +kernel
  exact others _ (List.mem_append.mpr other) initial

theorem not_mem_sharedInputs {port : String} (output : port ∈ outputs) :
    port ∉ sharedInputs := by
  have apart : ∀ name ∈ outputs, name ∉ sharedInputs := by decide +kernel
  exact apart port output

/-- The parameters of a new block. -/
def newParams (k : UInt32) : NameMap Property :=
  let params : List (String × Property) :=
    [("K", .int (Int64.ofNat k.toNat)),
      ("LUT_INIT", .int 0),
      ("DFF_INIT", .int 0),
      ("FF_USED", .int 0)]
  .ofList params

/-- A new block: all its ports are free. -/
def new (name : String) (k : UInt32) (attrs : NameMap Property) : Cell :=
  let bare : Cell := { name, cellType := CellType.logicBlock, params := newParams k, attrs }
  ((bare.withPorts .input (lutInputs k)).withPorts .input sharedInputs).withPorts .output outputs

section Fresh

variable {cell : Cell} (bare : cell.ports = ∅) (k : UInt32)

include bare

private theorem fresh_lutInputs : ∀ port ∈ lutInputs k, port ∉ cell.ports := by
  simp [bare]

private theorem fresh_sharedInputs :
    ∀ port ∈ sharedInputs, port ∉ (cell.withPorts .input (lutInputs k)).ports := by
  intro port member
  rw [Cell.mem_ports_withPorts, bare]
  simpa using not_mem_lutInputs (.inl member) k

private theorem fresh_outputs : ∀ port ∈ outputs,
    port ∉ ((cell.withPorts .input (lutInputs k)).withPorts .input sharedInputs).ports := by
  intro port member
  rw [Cell.mem_ports_withPorts, Cell.mem_ports_withPorts, bare]
  simpa using ⟨not_mem_sharedInputs member, not_mem_lutInputs (.inr member) k⟩

end Fresh

theorem make_eq (name : String) (k : UInt32) : make name k = .ok (new name k ∅) := by
  unfold make new
  dsimp only
  rw [Cell.addPorts_eq .input (nodup_lutInputs k) (fresh_lutInputs rfl k)]
  dsimp only [bind, Except.bind]
  rw [Cell.addPorts_eq .input nodup_sharedInputs (fresh_sharedInputs rfl k)]
  dsimp only
  rw [Cell.addPorts_eq .output nodup_outputs (fresh_outputs rfl k)]
  rfl

theorem lookup_ports_new (name : String) (k : UInt32) (attrs : NameMap Property)
    (port : String) : (new name k attrs).ports[port]? =
      if port ∈ outputs then some { direction := .output }
      else if port ∈ sharedInputs ∨ port ∈ lutInputs k then some { direction := .input }
      else none := by
  unfold new
  simp only [Cell.lookup_ports_withPorts]
  grind

theorem size_ports_new (name : String) (k : UInt32) (attrs : NameMap Property) :
    (new name k attrs).ports.size = 8 * k.toNat + 21 := by
  have inputs : (lutInputs k).length = 8 * k.toNat := by
    simp [lutInputs, slots]
    omega
  unfold new
  dsimp only
  rw [Cell.size_ports_withPorts .output nodup_outputs (fresh_outputs rfl k),
    Cell.size_ports_withPorts .input nodup_sharedInputs (fresh_sharedInputs rfl k),
    Cell.size_ports_withPorts .input (nodup_lutInputs k) (fresh_lutInputs rfl k), inputs]
  simp [sharedInputs, outputs, slots]

/-- A new block is attached to nothing. -/
theorem portNet?_new (name : String) (k : UInt32) (attrs : NameMap Property) (port : String) :
    (new name k attrs).portNet? port = none := by
  unfold Cell.portNet?
  rw [lookup_ports_new]
  split
  · rfl
  · split <;> rfl

/-- The ports of a logic block whose lookup tables have `k` inputs. -/
inductive PortOf (k : Nat) : PortDirection → String → Prop
  | table {slot input : Nat} : slot < 8 → input < k → PortOf k .input s!"LUT{slot}_I{input}"
  | shared {port : String} : port ∈ ["MUX_I0", "MUX_I1", "CLK", "CE", "RST"] →
      PortOf k .input port
  | comb {slot : Nat} : slot < 8 → PortOf k .output s!"COMB{slot}_O"
  | sync {slot : Nat} : slot < 8 → PortOf k .output s!"SYNC{slot}_O"

theorem mem_slots_iff (slot : Nat) : slot ∈ slots ↔ slot < 8 := by
  simp only [slots, List.mem_cons, List.not_mem_nil, or_false]
  omega

theorem portOf_input_iff (k : UInt32) (port : String) :
    PortOf k.toNat .input port ↔ port ∈ sharedInputs ∨ port ∈ lutInputs k := by
  rw [mem_lutInputs_iff]
  constructor
  · intro isPort
    cases isPort with
    | table isSlot narrow => exact .inr ⟨_, (mem_slots_iff _).mpr isSlot, _, narrow, rfl⟩
    | shared member => exact .inl member
  · rintro (member | ⟨slot, isSlot, input, narrow, rfl⟩)
    · exact .shared member
    · exact .table ((mem_slots_iff slot).mp isSlot) narrow

theorem portOf_output_iff (k : Nat) (port : String) : PortOf k .output port ↔ port ∈ outputs := by
  simp only [outputs, List.mem_append, List.mem_map, mem_slots_iff]
  constructor
  · intro isPort
    cases isPort with
    | comb isSlot => exact .inl ⟨_, isSlot, rfl⟩
    | sync isSlot => exact .inr ⟨_, isSlot, rfl⟩
  · rintro (⟨slot, isSlot, rfl⟩ | ⟨slot, isSlot, rfl⟩)
    · exact .comb isSlot
    · exact .sync isSlot

/-- A new block has its ports and no others, and all of them are free. -/
theorem lookup_ports_new_iff (name : String) (k : UInt32) (attrs : NameMap Property)
    (port : String) (p : Port) :
    (new name k attrs).ports[port]? = some p ↔ p.net = none ∧ PortOf k.toNat p.direction port := by
  obtain ⟨direction, net⟩ := p
  rw [lookup_ports_new]
  cases direction with
  | input =>
    rw [portOf_input_iff]
    by_cases output : port ∈ outputs
    · simp [output, not_mem_sharedInputs output, not_mem_lutInputs (.inr output)]
    · by_cases input : port ∈ sharedInputs ∨ port ∈ lutInputs k
      · simp [output, input, eq_comm]
      · simp [output, input]
  | output =>
    rw [portOf_output_iff]
    by_cases output : port ∈ outputs
    · simp [output, eq_comm]
    · by_cases input : port ∈ sharedInputs ∨ port ∈ lutInputs k <;> simp [output, input]
  | inout =>
    have none : ¬ PortOf k.toNat .inout port := by rintro ⟨⟩
    by_cases output : port ∈ outputs
    · simp [output, none]
    · by_cases input : port ∈ sharedInputs ∨ port ∈ lutInputs k <;> simp [output, input, none]

theorem intParam_new (name : String) (k : UInt32) (attrs : NameMap Property) (default : Int) :
    (new name k attrs).intParam "K" default = k.toNat := by
  have width : (newParams k)["K"]? = some (.int (Int64.ofNat k.toNat)) := by
    apply Std.ExtTreeMap.getElem?_ofList_of_mem (k := "K") (by simp) _ (by simp)
    simp
  have exact : (Int64.ofNat k.toNat).toInt = k.toNat :=
    Int64.toInt_ofNat_of_lt (by have := k.toNat_lt; omega)
  change ((newParams k)["K"]?.bind (·.asInt?)).getD default = k.toNat
  simp [width, Property.asInt?, exact]

end LogicBlock

namespace Netlist

/-- A logic block is made for every table width, under the name given or a made-up one. It has the
inputs of its eight tables, the shared inputs and two outputs for each slot, all of them free, and
no other port. -/
theorem makeLogicBlock_has_ports (netlist : Netlist) (name : Option String) (k : UInt32) :
    ∃ (cell : Cell) (after : Netlist),
      (makeLogicBlock "CLB" name k).run netlist = (.ok cell, after) ∧
      cell.cellType = "CLB" ∧
      (match name with
        | some given => cell.name = given ∧ after = netlist
        | none => (cell.name, after) = netlist.freshCellName "CLB") ∧
      cell.ports.size = 8 * k.toNat + 21 ∧
      ∀ (port : String) (p : Port),
        cell.ports[port]? = some p ↔ p.net = none ∧ LogicBlock.PortOf k.toNat p.direction port := by
  have made (chosen : String) (after : Netlist)
      (run : (chooseName "CLB" name).run netlist = (.ok chosen, after)) :
      (makeLogicBlock "CLB" name k).run netlist = (.ok (LogicBlock.new chosen k ∅), after) := by
    have supported : ¬ "CLB" ≠ CellType.logicBlock := by decide
    unfold makeLogicBlock
    rw [if_neg supported, run_bind_of_ok run, run_liftExcept, LogicBlock.make_eq]
  cases name with
  | some given =>
    exact ⟨_, _, made given netlist rfl, rfl, ⟨rfl, rfl⟩, LogicBlock.size_ports_new ..,
      LogicBlock.lookup_ports_new_iff given k ∅⟩
  | none =>
    exact ⟨_, _, made _ _ rfl, rfl, rfl, LogicBlock.size_ports_new ..,
      LogicBlock.lookup_ports_new_iff _ k ∅⟩

end Netlist

namespace FlipFlop

/-- A new flip-flop: all its ports are free. -/
def new (name : String) : Cell :=
  let bare : Cell :=
    { name, cellType := CellType.flipFlop, params := (∅ : NameMap Property).insert "INIT" (.int 0) }
  (bare.withPorts .input inputs).withPorts .output outputs

theorem make_eq (name : String) : make name = .ok (new name) := by
  unfold make new
  dsimp only
  rw [Cell.addPorts_eq .input (by decide) (by simp)]
  dsimp only [bind, Except.bind]
  rw [Cell.addPorts_eq .output (by decide)]
  intro port member
  have apart : ∀ name ∈ outputs, name ∉ inputs := by decide
  rw [NameMap.not_mem_iff_lookup, Cell.lookup_ports_withPorts, if_neg (apart port member)]
  simp

theorem lookup_ports_new (name port : String) :
    (new name).ports[port]? =
      if port ∈ outputs then some { direction := .output }
      else if port ∈ inputs then some { direction := .input }
      else none := by
  unfold new
  simp only [Cell.lookup_ports_withPorts]
  grind

/-- A new flip-flop is attached to nothing. -/
theorem portNet?_new (name port : String) : (new name).portNet? port = none := by
  unfold Cell.portNet?
  rw [lookup_ports_new]
  split
  · rfl
  · split <;> rfl

end FlipFlop

end TileFabric
