import TileFabric.Proofs.Packing.VirtualIo

/-!
# Conversions that fail

A pass fails exactly if the conversion of one of its cells does. Lookup tables and IO buffers are
refused before any of their connections has moved, and so are flip-flops as long as tables have
inputs. Of a flip-flop, though, clock, enable and reset move in front of the data, and a block
whose tables have no inputs has no port for the data: where its name is free, the conversion fails
halfway, and what has moved does not come back.
-/

set_option autoImplicit false

namespace TileFabric

namespace FlipFlop

/-- The ports of a flip-flop that move in front of its data. -/
def controls : List String := ["CLK", "CE", "RST"]

def controlWiring : List (String × String) := controls.map fun port => (port, port)

end FlipFlop

namespace Bench

open FlipFlop

/-- Where the controls of a flip-flop find their ports, they have moved before its data does. -/
theorem run_flipFlopToBlock {bench : Bench} (ready : bench.Ready controls) :
    ∃ table, (flipFlopToBlock true).run bench =
      (do movePort "D" (LogicBlock.lutInput 1 0); movePort "Q" (LogicBlock.syncOutput 1)).run
        ((((bench.carried controlWiring).withParam "FF_USED" (.int 1)).withParam "DFF_INIT"
          bench.sourceInit).withParam "LUT_INIT" table) := by
  let filled := (bench.withParam "FF_USED" (.int 1)).withParam "DFF_INIT" bench.sourceInit
  have readyClock : filled.Ready controls := (ready.withParam _ _).withParam _ _
  have readyEnable := readyClock.moved (by decide) "CLK"
  have readyReset := readyEnable.moved (by decide) "CE"
  refine ⟨passThroughTable (max 1 (min 16 (bench.target.intParam "K" 4))).toNat, ?_⟩
  rw [← carried_withParam, ← carried_withParam]
  unfold flipFlopToBlock
  simp only [run_get_bind, run_bind_of_ok (run_setTarget _ _ _), if_true]
  rw [run_bind_of_ok (movePort_of_movable (readyClock.movable "CLK")),
    run_bind_of_ok (movePort_of_movable (readyEnable.movable "CE")),
    run_bind_of_ok (movePort_of_movable (readyReset.movable "RST")),
    run_bind_of_ok (run_setTarget _ _ _)]
  rfl

/-- A block without table inputs has no port for the data of a flip-flop. -/
theorem not_free_of_no_inputs {nets : NameMap Net} {source : Cell} {name : String}
    {attrs : NameMap Property} :
    ¬ Free ⟨nets, source, LogicBlock.new name 0 attrs⟩ (LogicBlock.lutInput 1 0) := by
  have noPort : LogicBlock.lutInput 1 0 ∉ LogicBlock.outputs ∧
      ¬ (LogicBlock.lutInput 1 0 ∈ LogicBlock.sharedInputs ∨
        LogicBlock.lutInput 1 0 ∈ LogicBlock.lutInputs 0) := by decide +kernel
  rintro ⟨port, there, -⟩
  rw [LogicBlock.lookup_ports_new, if_neg noPort.1, if_neg noPort.2] at there
  cases there

/-- A flip-flop whose data finds no port fails, if it does, with its controls moved and nothing
else. -/
theorem flipFlopToBlock_halfway {bench after : Bench} {e : NetlistError}
    (ready : bench.Ready controls) (noPort : ¬ bench.Free (LogicBlock.lutInput 1 0))
    (failed : (flipFlopToBlock true).run bench = (.error e, after)) :
    after.nets = (bench.carried controlWiring).nets ∧
      after.source = (bench.carried controlWiring).source := by
  obtain ⟨table, run⟩ := run_flipFlopToBlock ready
  rw [run] at failed
  rcases run_bind_error failed with data | ⟨_, between, data, output⟩
  · obtain ⟨-, rfl⟩ := movePort_error data
    exact ⟨rfl, rfl⟩
  · -- The data has no port to move to, so it has gone well because there was nothing to move.
    obtain ⟨movable, rfl⟩ := movable_of_movePort data
    obtain ⟨-, rfl⟩ := movePort_error output
    have stillNone : ¬ (bench.carried controlWiring).Free (LogicBlock.lutInput 1 0) := by
      rwa [free_carried_iff (by decide +kernel)]
    have unattached : (bench.carried controlWiring).source.portNet? "D" = none := by
      apply Option.eq_none_iff_forall_ne_some.mpr
      intro name attached
      exact stillNone (movable name attached).1
    simp only [moved_withParam, moved_of_unattached unattached]
    exact ⟨rfl, rfl⟩

end Bench

namespace Replacement

open Netlist FlipFlop

variable {r : Replacement} {suffix name : String} {names : List String}
  {start before after w : Workspace} {source : Cell} {e : NetlistError}

/-- A replacement that a run over some cells fails in: those in front of it have gone well. -/
structure FailsAt (r : Replacement) (names : List String) (start : Workspace) (name : String)
    (e : NetlistError) (before after : Workspace) : Prop where
  reached : ∃ cells, Progress r start (names.take cells.length) cells before ∧
    names[cells.length]? = some name
  failed : (r.replaceOne name).run before = (.error e, after)

private theorem take_cons_drop {n : Nat} (there : names[n]? = some name) :
    names.take n ++ name :: names.drop (n + 1) = names := by
  obtain ⟨bound, rfl⟩ := List.getElem?_eq_some_iff.mp there
  rw [← List.drop_eq_getElem_cons bound, List.take_append_drop]

/-- A cell that a pass fails at is as it was at the start, among cells of the same names, and the
nets that it is attached to are there. -/
theorem FailsAt.exists_source {p : Cell → Bool}
    (fails : r.FailsAt (start.netlist.namesOf p) start name e before after)
    (lawful : r.Lawful suffix) (consistent : Consistent start.netlist) :
    ∃ source, source.name = name ∧ start.netlist.cells[name]? = some source ∧
      before.netlist.cells[name]? = some source ∧
      (∀ key, key ∈ before.netlist.cells ↔ key ∈ start.netlist.cells) ∧
      ∀ {port net : String}, source.portNet? port = some net → net ∈ before.netlist.nets := by
  have named := consistent.toNamed
  have distinct := nodup_namesOf named p
  obtain ⟨cells, progress, there⟩ := fails.reached
  have frame := lawful.frame_of_progress named progress
  have waiting : name ∉ (start.netlist.namesOf p).take cells.length := by
    intro early
    rw [← take_cons_drop there, List.nodup_append] at distinct
    exact distinct.2.2 name early name List.mem_cons_self rfl
  obtain ⟨source, sourceThere, -⟩ :=
    (mem_namesOf_iff named p name).mp (List.mem_of_getElem? there)
  have sourceLeft := (frame.others name waiting).trans sourceThere
  exact ⟨source, named.cell sourceThere, sourceThere, sourceLeft, frame.keys,
    lawful.known_of_progress progress (distinct.sublist (List.take_sublist ..)) consistent
      sourceLeft⟩

theorem Progress.run_replaceWhileWell {done : List String} {cells : List Cell}
    (progress : Progress r w done cells before)
    (failed : (r.replaceOne name).run before = (.error e, after)) (rest : List String) :
    (r.replaceWhileWell (done ++ name :: rest)).run w = (.ok (cells, some e), after) := by
  induction progress with
  | nil =>
    rw [List.nil_append, replaceWhileWell]
    exact (run_tryCatch_of_error (run_bind_of_error failed)).trans rfl
  | cons outcome _ ih =>
    rw [List.cons_append, replaceWhileWell]
    apply run_tryCatch_of_ok
    rw [run_bind_of_ok outcome, run_bind_of_ok (ih failed)]
    rfl

/-- A run fails exactly if one of its replacements does, and with the same error. -/
theorem Lawful.replaceCells_error_iff (lawful : r.Lawful suffix) (distinct : names.Nodup)
    (named : Named start.netlist) (e : NetlistError) :
    ((r.replaceCells names).run start).1 = .error e ↔
      ∃ name before after, r.FailsAt names start name e before after := by
  constructor
  · intro isError
    obtain ⟨cells, stop, progress, ends⟩ := lawful.run_replaceCells distinct named
    rcases ends with ⟨-, run⟩ | ⟨name, reason, after, there, failed, run⟩
    · rw [run] at isError
      cases isError
    · rw [run] at isError
      cases isError
      exact ⟨name, stop, after, ⟨cells, progress, there⟩, failed⟩
  · rintro ⟨name, before, after, ⟨cells, progress, there⟩, failed⟩
    have frame := lawful.frame_of_progress named progress
    have newDistinct := frame.distinct (distinct.sublist (List.take_sublist ..))
    have fresh : ∀ cell ∈ cells, cell.name ∉ after.netlist.cells := by
      intro cell member
      rw [replaceOne_error_keys failed, frame.keys]
      exact frame.fresh cell member
    have run := progress.run_replaceWhileWell failed (names.drop (cells.length + 1))
    rw [take_cons_drop there] at run
    unfold replaceCells
    rw [run_bind_of_ok run]
    dsimp only
    rw [run_bind_of_ok (run_commit fresh newDistinct)]
    rfl

/-- A pass over the cells with a property fails exactly if one of its replacements does, and that
one leaves the netlist as it has found it, unless it is given up halfway. -/
structure LeavesOnFailure (r : Replacement) (p : Cell → Bool) (start : Workspace)
    (result : Except NetlistError Nat) (halfway : String → Prop) : Prop where
  error_iff : ∀ e, result = .error e ↔
    ∃ name before after, r.FailsAt (start.netlist.namesOf p) start name e before after
  unchanged_iff : ∀ {name : String} {e : NetlistError} {before after : Workspace},
    r.FailsAt (start.netlist.namesOf p) start name e before after →
      (after.netlist = before.netlist ↔ ¬ halfway name)

theorem Atomic.leavesOnFailure (atomic : r.Atomic) (lawful : r.Lawful suffix)
    (consistent : Consistent start.netlist) (p : Cell → Bool) {halfway : String → Prop}
    (never : ∀ name, ¬ halfway name) :
    LeavesOnFailure r p start ((r.replaceCells (start.netlist.namesOf p)).run start).1 halfway where
  error_iff :=
    lawful.replaceCells_error_iff (nodup_namesOf consistent.toNamed p) consistent.toNamed
  unchanged_iff {name _ _ _} fails := by
    obtain ⟨source, -, -, there, -, known⟩ := fails.exists_source lawful consistent
    exact iff_of_true (atomic.unchanged_of_error there known fails.failed) (never name)

/-- A flip-flop that a block without table inputs fails to replace is left as it was exactly if its
new name was taken, so that nothing has moved, or there were no controls to move. -/
theorem flipFlop_unchanged_iff (there : w.netlist.cells[name]? = some source)
    (sourceKey : source.name = name)
    (known : ∀ {port net : String}, source.portNet? port = some net → net ∈ w.netlist.nets)
    (failed : ((flipFlop 0).replaceOne name).run w = (.error e, after)) :
    after.netlist = w.netlist ↔
      name ++ "_DFF" ∈ w.netlist.cells ∨ ∀ port ∈ controls, source.portNet? port = none := by
  have made := flipFlop_make 0 source
  rcases (flipFlop_lawful 0).taken_or_stopped_of_error there sourceKey made failed with
    ⟨taken, -, left⟩ | ⟨fresh, bench, stopped, left⟩
  · exact iff_of_true left (.inl taken)
  · have isShared : ∀ port ∈ controls, port ∈ LogicBlock.sharedInputs := by decide
    have ready : Bench.Ready ⟨w.netlist.nets, source,
        LogicBlock.new (source.name ++ "_DFF") 0 source.attrs⟩ controls :=
      ⟨known, fun member => LogicBlock.free_new (.inr (.inl (isShared _ member)))⟩
    obtain ⟨nets, sourceLeft⟩ :=
      Bench.flipFlopToBlock_halfway ready Bench.not_free_of_no_inputs stopped
    rw [left, putBack_eq_iff there, or_iff_right fresh, nets, sourceLeft]
    exact Bench.carried_unchanged_iff ..

end Replacement

/-- A flip-flop whose conversion is given up halfway: the block has a free name and no input for
the data, and one of the ports that move in front of the data is attached. -/
structure Netlist.Halfway (netlist : Netlist) (k : UInt32) (name : String) : Prop where
  noInputs : k = 0
  fresh : name ++ "_DFF" ∉ netlist.cells
  moved : ∃ port ∈ FlipFlop.controls, netlist.portNet? ⟨name, port⟩ ≠ none

namespace Replacement

open Netlist

theorem flipFlop_leavesOnFailure (k : UInt32) {start : Workspace}
    (consistent : Consistent start.netlist) (p : Cell → Bool) :
    LeavesOnFailure (.flipFlop k) p start
      (((flipFlop k).replaceCells (start.netlist.namesOf p)).run start).1
      (start.netlist.Halfway k) := by
  by_cases noInputs : k = 0
  · subst noInputs
    have lawful := flipFlop_lawful 0
    refine ⟨lawful.replaceCells_error_iff (nodup_namesOf consistent.toNamed p)
      consistent.toNamed, ?_⟩
    intro name e before after fails
    obtain ⟨source, sourceKey, atStart, there, keys, known⟩ :=
      fails.exists_source lawful consistent
    have ports : ∀ port, start.netlist.portNet? ⟨name, port⟩ = source.portNet? port :=
      fun _ => portNet?_of_cell atStart
    rw [flipFlop_unchanged_iff there sourceKey known fails.failed, keys, ← not_iff_not, not_not,
      not_or]
    push Not
    constructor
    · rintro ⟨fresh, port, member, attached⟩
      exact ⟨rfl, fresh, port, member, by rwa [ports]⟩
    · rintro ⟨-, fresh, port, member, attached⟩
      exact ⟨fresh, port, member, by rwa [← ports]⟩
  · have positive : 1 ≤ k := by
      have := mt UInt32.toNat_inj.mp noInputs
      rw [UInt32.le_iff_toNat_le]
      simp at this ⊢
      omega
    exact Atomic.leavesOnFailure (flipFlop_atomic positive) (flipFlop_lawful k) consistent p
      fun _ halfway => noInputs halfway.noInputs

end Replacement

namespace Packing

open Replacement

/-- On a consistent netlist, a pass that replaces cells fails exactly if the conversion of one of
them does. Of a lookup table and of an IO buffer, that leaves the netlist exactly as it was. Of a
flip-flop it does so exactly if the conversion is not given up halfway, which takes a block whose
tables have no inputs. -/
theorem failed_conversion_unchanged_iff (k : UInt32) {w : Workspace}
    (checked : w.netlist.check = .ok ()) :
    LeavesOnFailure (.lut k) Cell.isLut ((announce "Packing LUTs..").run w).2
        ((luts k).run w).1 (fun _ => False) ∧
      LeavesOnFailure (.flipFlop k) Cell.isFlipFlop ((announce "Packing non-LUT FFs..").run w).2
        ((flipFlops k).run w).1 (w.netlist.Halfway k) ∧
      LeavesOnFailure .buffer w.netlist.isDataBuffer ((announce "Packing IOs..").run w).2
        (virtualIo.run w).1 (fun _ => False) := by
  have consistent := (Netlist.check_eq_ok_iff _).mp checked
  have announced : ∀ message, Netlist.Consistent ((announce message).run w).2.netlist :=
    fun _ => consistent
  refine ⟨?_, ?_, ?_⟩
  · exact Atomic.leavesOnFailure (lut_atomic k) (lut_lawful k) (announced _) _ fun _ => id
  · exact flipFlop_leavesOnFailure k (announced _) _
  · rw [run_virtualIo, Netlist.namesOf_dataBuffers consistent.toNamed]
    exact Atomic.leavesOnFailure buffer_atomic buffer_lawful (announced _) _ fun _ => id

/-- Two flip-flops, one with nothing but its clock attached and one with nothing but its data. -/
def clockAndData : Netlist where
  cells :=
    let input (net : String) : Port := { direction := .input, net := some net }
    let clocked : Cell :=
      { name := "a", cellType := "DFFER", ports := .ofList [("CLK", input "c")] }
    let fed : Cell := { name := "b", cellType := "DFFER", ports := .ofList [("D", input "m")] }
    .ofList [("a", clocked), ("b", fed)]
  nets :=
    let c : Net := { name := "c", users := [⟨"a", "CLK"⟩] }
    let m : Net := { name := "m", users := [⟨"b", "D"⟩] }
    .ofList [("c", c), ("m", m)]
  settings := ∅
  nextName := 0

theorem clockAndData_unchanged_on_failure :
    clockAndData.check = .ok () ∧
      ((flipFlops 0).run ⟨clockAndData, .empty⟩).1 = .error (.missingPort "b_DFF" "LUT1_I0") ∧
      ∃ before after,
        FailsAt (.flipFlop 0) (clockAndData.namesOf Cell.isFlipFlop)
          ((announce "Packing non-LUT FFs..").run ⟨clockAndData, .empty⟩).2 "b"
          (.missingPort "b_DFF" "LUT1_I0") before after ∧
        before.netlist.nets["c"]? = some { name := "c", users := [⟨"a_DFF", "CLK"⟩] } ∧
        after.netlist = before.netlist := by
  have checked : clockAndData.check = .ok () := by decide +kernel
  have controlsFree : ∀ port ∈ FlipFlop.controls, clockAndData.portNet? ⟨"b", port⟩ = none := by
    decide +kernel
  let start := ((announce "Packing non-LUT FFs..").run ⟨clockAndData, .empty⟩).2
  let first := ((Replacement.flipFlop 0).replaceOne "a").run start
  let second := ((Replacement.flipFlop 0).replaceOne "b").run first.2
  obtain ⟨block, replaced⟩ : ∃ block, first.1 = .ok block :=
    ⟨first.1.toOption.getD default, by decide +kernel⟩
  have fails : FailsAt (.flipFlop 0) (clockAndData.namesOf Cell.isFlipFlop) start "b"
      (.missingPort "b_DFF" "LUT1_I0") first.2 second.2 := by
    have order : clockAndData.namesOf Cell.isFlipFlop = ["a", "b"] := by decide +kernel
    have stops : second.1 = .error (.missingPort "b_DFF" "LUT1_I0") := by decide +kernel
    rw [order]
    exact ⟨⟨[block], .cons (Prod.ext replaced rfl) (.nil _), rfl⟩, Prod.ext stops rfl⟩
  obtain ⟨-, leaves, -⟩ := failed_conversion_unchanged_iff 0 (w := ⟨clockAndData, .empty⟩) checked
  refine ⟨checked, (leaves.error_iff _).mpr ⟨"b", _, _, fails⟩, _, _, fails, by decide +kernel,
    (leaves.unchanged_iff fails).mpr ?_⟩
  intro halfway
  obtain ⟨port, member, attached⟩ := halfway.moved
  exact attached (controlsFree port member)

/-- A flip-flop with its clock and its data attached. -/
def clockedData : Netlist where
  cells :=
    let input (net : String) : Port := { direction := .input, net := some net }
    let register : Cell :=
      { name := "ff", cellType := "DFFER", ports := .ofList [("CLK", input "n"), ("D", input "m")] }
    .ofList [("ff", register)]
  nets :=
    let m : Net := { name := "m", users := [⟨"ff", "D"⟩] }
    let n : Net := { name := "n", users := [⟨"ff", "CLK"⟩] }
    .ofList [("m", m), ("n", n)]
  settings := ∅
  nextName := 0

/-- It loses its clock to a block that is never put into the netlist. -/
theorem clockedData_loses_clock :
    clockedData.check = .ok () ∧
      (∃ before after,
        FailsAt (.flipFlop 0) (clockedData.namesOf Cell.isFlipFlop)
          ((announce "Packing non-LUT FFs..").run ⟨clockedData, .empty⟩).2 "ff"
          (.missingPort "ff_DFF" "LUT1_I0") before after ∧
        before.netlist.portNet? ⟨"ff", "CLK"⟩ = some "n" ∧
        after.netlist.portNet? ⟨"ff", "CLK"⟩ = none ∧
        after.netlist.nets["n"]? = some { name := "n", users := [⟨"ff_DFF", "CLK"⟩] } ∧
        after.netlist ≠ before.netlist) ∧
      ((flipFlops 0).run ⟨clockedData, .empty⟩).2.netlist.check =
        .error (.unknownCell "ff_DFF") := by
  let start := ((announce "Packing non-LUT FFs..").run ⟨clockedData, .empty⟩).2
  let attempt := ((Replacement.flipFlop 0).replaceOne "ff").run start
  have stops : attempt.1 = .error (.missingPort "ff_DFF" "LUT1_I0") := by decide +kernel
  have order : clockedData.namesOf Cell.isFlipFlop = ["ff"] := by decide +kernel
  have fails : FailsAt (.flipFlop 0) (clockedData.namesOf Cell.isFlipFlop) start "ff"
      (.missingPort "ff_DFF" "LUT1_I0") start attempt.2 := by
    rw [order]
    exact ⟨⟨[], .nil _, rfl⟩, Prod.ext stops rfl⟩
  have clock : start.netlist.portNet? ⟨"ff", "CLK"⟩ = some "n" := by decide +kernel
  have lost : attempt.2.netlist.portNet? ⟨"ff", "CLK"⟩ = none := by decide +kernel
  refine ⟨by decide +kernel, ⟨start, attempt.2, fails, clock, lost, by decide +kernel, ?_⟩,
    by decide +kernel⟩
  intro same
  rw [same, clock] at lost
  cases lost

end Packing

end TileFabric
