import TileFabric.Proofs.Packing.Conversion

/-!
# Flip-flops become blocks

Packing flip-flops is the conversion whose wiring takes clock, enable and reset to the ports of
these names, the data input to the first input of the table in slot 1 and the output to the
register of that slot. The table in between passes its first input on, whatever the width of the
block: read from the right, its contents at an address are the lowest bit of that address.
-/

set_option autoImplicit false

namespace TileFabric

/-- The ports of a flip-flop that move to a block, and where they move. -/
def flipFlopWiring : List (String × String) :=
  [("CLK", "CLK"), ("CE", "CE"), ("RST", "RST"), ("D", LogicBlock.lutInput 1 0),
    ("Q", LogicBlock.syncOutput 1)]

/-- The contents of a table of some width are, at each address, the first input. The address counts
from the right end of the text. -/
def PassesFirstInput (width : Nat) (contents : Property) : Prop :=
  ∃ text : String, contents = .bits text ∧ text.length = Nat.pow 2 width ∧
    ∀ address < text.length, text.toList[text.length - 1 - address]? =
      some (if address % 2 = 1 then '1' else '0')

/-- The block that a flip-flop becomes. -/
structure FlipFlopBlock (k : UInt32) (flipFlop block : Cell) : Prop where
  name : block.name = flipFlop.name ++ "_DFF"
  cellType : block.cellType = CellType.logicBlock
  attrs : block.attrs = flipFlop.attrs
  params : ∃ table, PassesFirstInput (min k.toNat 16) table ∧ block.params =
    (((LogicBlock.newParams k).insert "FF_USED" (.int 1)).insert "DFF_INIT"
      (flipFlop.params["INIT"]?.getD (.int 0))).insert "LUT_INIT" table
  ports : ∀ port : String, block.ports[port]?.map (·.direction) =
    if port ∈ LogicBlock.outputs then some .output
    else if port ∈ LogicBlock.sharedInputs ∨ port ∈ LogicBlock.lutInputs k then some .input
    else none
  wired : WiredFrom flipFlopWiring flipFlop block

section Contents

private theorem alternating_eq {α : Type} (n : Nat) (first second : α) (i : Nat) :
    (List.replicate n [first, second]).flatten[i]? =
      if i < 2 * n then some (if i % 2 = 0 then first else second) else none := by
  induction n generalizing i with
  | zero => simp
  | succ n ih =>
    rw [List.replicate_succ, List.flatten_cons]
    match i with
    | 0 => simp
    | 1 => simp; omega
    | i + 2 =>
      have later : ([first, second] ++ (List.replicate n [first, second]).flatten)[i + 2]? =
          (List.replicate n [first, second]).flatten[i]? := rfl
      have parity : (i + 2) % 2 = i % 2 := Nat.add_mod_right i 2
      rw [later, ih, parity]
      have bound : i + 2 < 2 * (n + 1) ↔ i < 2 * n := by omega
      simp only [bound]

/-- The table in front of a flip-flop passes its first input on. -/
theorem Bench.passThroughTable_passes {width : Nat} (positive : 1 ≤ width) :
    PassesFirstInput width (passThroughTable width) := by
  obtain ⟨half, isHalf⟩ : ∃ half, Nat.pow 2 width = 2 * half := by
    obtain ⟨less, rfl⟩ := Nat.exists_eq_add_of_le' positive
    exact ⟨Nat.pow 2 less, Nat.pow_succ'⟩
  have pairs : Nat.pow 2 width / 2 = half := by omega
  have length : (List.replicate half ['1', '0']).flatten.length = 2 * half := by
    simp [Nat.mul_comm]
  refine ⟨_, rfl, ?_, ?_⟩
  · rw [String.length_ofList, pairs, length, isHalf]
  · intro address bound
    rw [String.length_ofList, pairs, length] at bound ⊢
    rw [String.toList_ofList, alternating_eq, if_pos (by omega)]
    -- The text has even length, so the character at an address stands at a place of other parity.
    have parity : (2 * half - 1 - address) % 2 = 0 ↔ address % 2 = 1 := by omega
    simp only [parity]

end Contents

theorem nodup_flipFlopWiring :
    (flipFlopWiring.map (·.1)).Nodup ∧ (flipFlopWiring.map (·.2)).Nodup := by decide +kernel

namespace Conversion

/-- The conversion of flip-flops. -/
def flipFlop (k : UInt32) : Conversion where
  blank flipFlop :=
    (((LogicBlock.new (flipFlop.name ++ "_DFF") k flipFlop.attrs).setParam "FF_USED"
      (.int 1)).setParam "DFF_INIT" (flipFlop.params["INIT"]?.getD (.int 0))).setParam "LUT_INIT"
        (Bench.passThroughTable (max 1 (min 16 (k.toNat : Int))).toNat)
  wiring _ := flipFlopWiring
  fits _ := True

theorem ports_blank_flipFlop (k : UInt32) (cell : Cell) : ((flipFlop k).blank cell).ports =
    (LogicBlock.new (cell.name ++ "_DFF") k cell.attrs).ports := rfl

/-- A flip-flop becomes its block. -/
theorem flipFlopBlock_result {k : UInt32} (positive : 1 ≤ k) (cell : Cell) :
    FlipFlopBlock k cell ((flipFlop k).result cell) := by
  have same := (flipFlop k).result_eq cell
  constructor
  case name => exact congrArg Cell.name same
  case cellType => exact congrArg Cell.cellType same
  case attrs => exact (congrArg Cell.attrs same).trans rfl
  case params =>
    have inputs : 1 ≤ k.toNat := UInt32.le_iff_toNat_le.mp positive
    have width : (max 1 (min 16 (k.toNat : Int))).toNat = min k.toNat 16 := by omega
    refine ⟨_, Bench.passThroughTable_passes (by omega), ?_⟩
    rw [← width]
    exact congrArg Cell.params same
  case ports =>
    intro port
    rw [map_direction_result, ports_blank_flipFlop, LogicBlock.lookup_ports_new]
    split
    · rfl
    · split <;> rfl
  case wired =>
    apply wiredFrom_result (c := flipFlop k) nodup_flipFlopWiring.1 nodup_flipFlopWiring.2
    · intro port target
      rw [ports_blank_flipFlop]
      exact LogicBlock.free_new_of_flipFlop positive target
    · intro port
      rw [Cell.portNet?, ports_blank_flipFlop]
      exact LogicBlock.portNet?_new ..

end Conversion

namespace Replacement

theorem flipFlop_performs (k : UInt32) : (flipFlop k).Performs (.flipFlop k) := by
  constructor
  intro source target nets after made done
  rw [flipFlop_make, Except.ok.injEq] at made
  subst made
  refine ⟨trivial, ?_⟩
  have width := LogicBlock.intParam_new (source.name ++ "_DFF") k source.attrs 4
  change (Bench.flipFlopToBlock true).run _ = _ at done
  unfold Bench.flipFlopToBlock at done
  simp only [run_get_bind, run_bind_of_ok (Bench.run_setTarget _ _ _), width, if_true] at done
  obtain ⟨_, _, clock, done⟩ := run_bind_ok done
  obtain ⟨-, rfl⟩ := Bench.movable_of_movePort clock
  obtain ⟨_, _, enable, done⟩ := run_bind_ok done
  obtain ⟨-, rfl⟩ := Bench.movable_of_movePort enable
  obtain ⟨_, _, reset, done⟩ := run_bind_ok done
  obtain ⟨-, rfl⟩ := Bench.movable_of_movePort reset
  rw [run_bind_of_ok (Bench.run_setTarget _ _ _)] at done
  obtain ⟨_, _, data, done⟩ := run_bind_ok done
  obtain ⟨-, rfl⟩ := Bench.movable_of_movePort data
  obtain ⟨-, rfl⟩ := Bench.movable_of_movePort done
  -- Parameters can be set before anything moves.
  simp only [← Bench.moved_withParam]
  rfl

end Replacement

namespace Packing

/-- On a consistent netlist, packing flip-flops that goes well replaces each of them by its block
and takes the references along in their order; nothing else changes. -/
theorem flipFlops_become_blocks {k : UInt32} (positive : 1 ≤ k) {w after : Workspace} {count : Nat}
    (checked : w.netlist.check = .ok ()) (done : (flipFlops k).run w = (.ok count, after)) :
    count = w.netlist.cells.values.countP Cell.isFlipFlop ∧
      Replaced Cell.isFlipFlop "_DFF" (fun _ => flipFlopWiring) (FlipFlopBlock k) w.netlist
        after.netlist := by
  have consistent := (Netlist.check_eq_ok_iff _).mp checked
  rw [run_flipFlops] at done
  obtain ⟨counted, converted⟩ := (Replacement.flipFlop_performs k).converted_of_replaceCells
    (Replacement.flipFlop_lawful k) consistent done
  refine ⟨counted, converted.replaced consistent.toNamed (fun _ => rfl) ?_⟩
  exact fun source _ _ => Conversion.flipFlopBlock_result positive source

/-- Two flip-flops in a ring on one clock, one of them with a port of no use on the other's net. -/
def flipFlopRing : Netlist where
  cells :=
    let input (net : String) : Port := { direction := .input, net := some net }
    let output (net : String) : Port := { direction := .output, net := some net }
    let first : Cell :=
      { name := "a", cellType := "DFFER",
        ports := .ofList
          [("CLK", input "c"), ("D", input "m"), ("SET", input "n"), ("Q", output "n")],
        params := .ofList [("INIT", Property.int 1)] }
    let second : Cell :=
      { name := "b", cellType := "DFFER",
        ports := .ofList [("CLK", input "c"), ("D", input "n"), ("Q", output "m")] }
    .ofList [("a", first), ("b", second)]
  nets :=
    let c : Net := { name := "c", users := [⟨"b", "CLK"⟩, ⟨"a", "CLK"⟩] }
    let m : Net := { name := "m", driver := some ⟨"b", "Q"⟩, users := [⟨"a", "D"⟩] }
    let n : Net := { name := "n", driver := some ⟨"a", "Q"⟩, users := [⟨"a", "SET"⟩, ⟨"b", "D"⟩] }
    .ofList [("c", c), ("m", m), ("n", n)]
  settings := ∅
  nextName := 0

theorem flipFlopRing_become_blocks :
    (1 : UInt32) ≤ 2 ∧ flipFlopRing.check = .ok () ∧
      ∃ after, (flipFlops 2).run ⟨flipFlopRing, .empty⟩ = (.ok 2, after) ∧
        after.netlist.nets["n"]? = some
          { name := "n", driver := some ⟨"a_DFF", "SYNC1_O"⟩, users := [⟨"b_DFF", "LUT1_I0"⟩] } ∧
        ∃ block, after.netlist.cells["a_DFF"]? = some block ∧
          block.portNet? "LUT1_I0" = some "m" ∧ block.portNet? "CE" = none := by
  have checked : flipFlopRing.check = .ok () := by decide +kernel
  have count : ((flipFlops 2).run ⟨flipFlopRing, .empty⟩).1 = .ok 2 := by decide +kernel
  obtain ⟨after, done⟩ : ∃ after, (flipFlops 2).run ⟨flipFlopRing, .empty⟩ = (.ok 2, after) := by
    generalize (flipFlops 2).run ⟨flipFlopRing, .empty⟩ = outcome at count
    exact ⟨outcome.2, Prod.ext count rfl⟩
  obtain ⟨-, replaced⟩ :=
    flipFlops_become_blocks (k := 2) (by decide) (w := ⟨flipFlopRing, .empty⟩) checked done
  have there : flipFlopRing.cells["a"]? = some (flipFlopRing.cells["a"]?.getD default) := by
    decide +kernel
  obtain ⟨block, blockThere, isBlock⟩ := replaced.new there (by decide +kernel)
  have data : ("D", "LUT1_I0") ∈ flipFlopWiring := by decide +kernel
  have enable : ("CE", "CE") ∈ flipFlopWiring := by decide +kernel
  refine ⟨by decide, checked, after, done, ?_, block, blockThere, ?_, ?_⟩
  · exact (replaced.nets "n").trans (by decide +kernel)
  · rw [isBlock.wired.along data]
    decide +kernel
  · rw [isBlock.wired.along enable]
    decide +kernel

end Packing

end TileFabric
