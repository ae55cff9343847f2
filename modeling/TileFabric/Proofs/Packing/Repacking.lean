import TileFabric.Proofs.Packing.ClockBuffers
import TileFabric.Proofs.Packing.VirtualIo

/-!
# Packing again

A pass leaves nothing behind that it would replace, and no pass makes what another one replaces,
but for the flip-flops that stand in for IO buffers. Where the passes for flip-flops and for IO do
not come together, a second run therefore finds nothing to do. A buffer that was kept because it
drives a clock is kept again: the net, the flip-flop and its clock are still there.
-/

set_option autoImplicit false

namespace TileFabric

namespace Netlist

theorem namesOf_eq_nil {netlist : Netlist} {p : Cell → Bool} (lacks : netlist.Lacks p) :
    netlist.namesOf p = [] := by
  unfold namesOf
  rw [List.map_eq_nil_iff, List.filter_eq_nil_iff]
  intro cell member
  obtain ⟨key, there⟩ := (NameMap.mem_values_iff ..).mp member
  simp [lacks there]

theorem isDataBuffer_of_flipFlop (netlist : Netlist) {cell : Cell}
    (isType : cell.cellType = CellType.flipFlop) : netlist.isDataBuffer cell = false := by
  unfold isDataBuffer Cell.isIoBuffer
  rw [isType]
  rfl

/-- A buffer still drives a clock where it and the flip-flops are spared. -/
theorem DrivesClock.spared {before after : Netlist} (named : Named before)
    (namedAfter : Named after) {name : String} (drives : before.DrivesClock name)
    (buffer : ∀ net, Spares before after name net)
    (flipFlops : ∀ {key : String} {cell : Cell} (net : String), before.cells[key]? = some cell →
      cell.isFlipFlop = true → Spares before after key net) : after.DrivesClock name := by
  obtain ⟨net, member, driven, ⟨flipFlop, port⟩, listed, cell, there, isFlipFlop, onClock⟩ := drives
  obtain ⟨key, netThere⟩ := (NameMap.mem_values_iff ..).mp member
  obtain ⟨driver, drivenBy, rfl⟩ := Option.map_eq_some_iff.mp driven
  replace there : before.cells[flipFlop]? = some cell := there
  have spares : Spares before after flipFlop key := flipFlops key there isFlipFlop
  obtain ⟨sameNet, sameNetThere, sameDriver⟩ := (buffer key).driver netThere drivenBy
  obtain ⟨sameCell, sameCellThere, sameType⟩ := spares.cell there
  -- What the net lists of the flip-flop may be another port of it than the clock.
  rw [← usersOf_of_net netThere] at listed
  have stillListed := spares.user listed
  rw [usersOf_of_net sameNetThere] at stillListed
  have clock : before.portNet? ⟨flipFlop, "CLK"⟩ = some key :=
    (portNet?_of_cell there).trans (onClock.trans (congrArg some (named.net netThere)))
  have stillClock : sameCell.portNet? "CLK" = some key :=
    (portNet?_of_cell sameCellThere).symm.trans (spares.port clock)
  refine ⟨sameNet, (NameMap.mem_values_iff ..).mpr ⟨key, sameNetThere⟩, ?_, ⟨flipFlop, port⟩,
    stillListed, sameCell, sameCellThere, ?_, ?_⟩
  · rw [sameDriver]
    rfl
  · rw [sameCell.isFlipFlop_iff, sameType, ← cell.isFlipFlop_iff, isFlipFlop]
  · rw [stillClock, namedAfter.net sameNetThere]

end Netlist

namespace Packing

open Netlist

variable {k : UInt32} {stages : Stages} {netlist : Netlist} {w after : Workspace} {count : Nat}

section Idle

/-- A pass that finds nothing to do on a netlist: it only says in the log that it has run. -/
def Idle (pass : Packing Nat) (netlist : Netlist) : Prop :=
  ∀ log : Log, ∃ later, pass.run ⟨netlist, log⟩ = (.ok 0, ⟨netlist, later⟩)

theorem idle_luts (lacks : netlist.Lacks Cell.isLut) : Idle (luts k) netlist := by
  intro log
  rw [run_luts, namesOf_eq_nil lacks]
  exact ⟨_, rfl⟩

theorem idle_flipFlops (lacks : netlist.Lacks Cell.isFlipFlop) : Idle (flipFlops k) netlist := by
  intro log
  rw [run_flipFlops, namesOf_eq_nil lacks]
  exact ⟨_, rfl⟩

theorem idle_virtualIo (named : Named netlist) (lacks : netlist.Lacks netlist.isDataBuffer) :
    Idle virtualIo netlist := by
  intro log
  rw [run_virtualIo, namesOf_dataBuffers named, namesOf_eq_nil lacks]
  exact ⟨_, rfl⟩

theorem idle_stage {on : Bool} {pass : Packing Nat} (idle : on = true → Idle pass netlist) :
    Idle (stage on pass) netlist := by
  cases on with
  | true => exact idle rfl
  | false => exact fun log => ⟨log, rfl⟩

end Idle

/-- A netlist on which the stages have nothing to do. -/
structure Settled (stages : Stages) (netlist : Netlist) : Prop extends Named netlist where
  constants : stages.constants = false
  luts : stages.luts = true → netlist.Lacks Cell.isLut
  flipFlops : stages.flipFlops = true → netlist.Lacks Cell.isFlipFlop
  virtualIo : stages.virtualIo = true → netlist.Lacks netlist.isDataBuffer

/-- Nothing about what there is to do is in the settings. -/
theorem Settled.setSetting (settled : Settled stages netlist) (name : String) (value : Property) :
    Settled stages (netlist.setSetting name value) where
  cell := settled.cell
  net := settled.net
  constants := settled.constants
  luts := settled.luts
  flipFlops := settled.flipFlops
  virtualIo := settled.virtualIo

/-- Packing a settled netlist only marks it. -/
theorem pack_of_settled (settled : Settled stages netlist) (k : UInt32) (log : Log) :
    ∃ later, (pack k stages).run ⟨netlist, log⟩ =
      (.ok {}, ⟨netlist.setSetting "pack" (.int 1), later⟩) := by
  have noConstants : Idle (stage stages.constants (constants k)) netlist :=
    idle_stage fun on => by cases settled.constants.symm.trans on
  have noLuts : Idle (stage stages.luts (luts k)) netlist :=
    idle_stage fun on => idle_luts (settled.luts on)
  have noFlipFlops : Idle (stage stages.flipFlops (flipFlops k)) netlist :=
    idle_stage fun on => idle_flipFlops (settled.flipFlops on)
  have noBuffers : Idle (stage stages.virtualIo virtualIo) netlist :=
    idle_stage fun on => idle_virtualIo settled.toNamed (settled.virtualIo on)
  obtain ⟨first, one⟩ := noConstants log
  obtain ⟨second, two⟩ := noLuts first
  obtain ⟨third, three⟩ := noFlipFlops second
  obtain ⟨fourth, four⟩ := noBuffers third
  have staged : (runStages k stages).run ⟨netlist, log⟩ = (.ok {}, ⟨netlist, fourth⟩) := by
    rw [runStages_eq, run_bind_of_ok one, run_bind_of_ok two, run_bind_of_ok three,
      run_bind_of_ok four]
    rfl
  exact ⟨fourth, run_bind_of_ok (run_tryCatch_of_ok staged)⟩

/-- A mark is not put twice. -/
theorem setSetting_setSetting (netlist : Netlist) (name : String) (value : Property) :
    (netlist.setSetting name value).setSetting name value = netlist.setSetting name value := by
  have same : (netlist.settings.insert name value).insert name value =
      netlist.settings.insert name value := by
    apply Std.ExtTreeMap.ext_getElem?
    intro other
    simp only [NameMap.lookup_insert]
    split <;> rfl
  simp only [Netlist.setSetting, same]

section Passes

variable (named : Named w.netlist)

include named

/-- No pass makes lookup tables. -/
theorem lacks_lut_of_replaceCells {r : Replacement} {suffix cellType : String}
    (lawful : r.Lawful suffix) (makes : r.Makes cellType) (apart : cellType ≠ CellType.lut)
    {p : Cell → Bool} {log : Log}
    (done : (r.replaceCells (w.netlist.namesOf p)).run ⟨w.netlist, log⟩ = (.ok count, after))
    (old : ∀ {key : String} {cell : Cell}, w.netlist.cells[key]? = some cell → p cell = false →
      cell.isLut = false) : after.netlist.Lacks Cell.isLut := by
  refine lawful.lacks_of_replaceCells makes named done old fun cell isType => ?_
  rw [← isType] at apart
  exact beq_false_of_ne apart

theorem luts_settle (done : (luts k).run w = (.ok count, after)) :
    Named after.netlist ∧ after.netlist.Lacks Cell.isLut := by
  rw [run_luts] at done
  have lawful := Replacement.lut_lawful k
  exact ⟨lawful.named_of_replaceCells (nodup_namesOf named _) named done,
    lacks_lut_of_replaceCells named lawful (Replacement.lut_makes k) (by decide) done
      fun _ other => other⟩

theorem flipFlops_lack_lut (lacks : w.netlist.Lacks Cell.isLut)
    (done : (flipFlops k).run w = (.ok count, after)) : after.netlist.Lacks Cell.isLut := by
  rw [run_flipFlops] at done
  exact lacks_lut_of_replaceCells named (Replacement.flipFlop_lawful k)
    (Replacement.flipFlop_makes k) (by decide) done fun there _ => lacks there

theorem virtualIo_lacks_lut (lacks : w.netlist.Lacks Cell.isLut)
    (done : virtualIo.run w = (.ok count, after)) : after.netlist.Lacks Cell.isLut := by
  rw [run_virtualIo] at done
  exact lacks_lut_of_replaceCells named Replacement.buffer_lawful Replacement.buffer_makes
    (by decide) done fun there _ => lacks there

/-- The buffers that are kept still drive a clock. -/
theorem virtualIo_settles (done : virtualIo.run w = (.ok count, after)) :
    Named after.netlist ∧ after.netlist.Lacks after.netlist.isDataBuffer := by
  rw [run_virtualIo, namesOf_dataBuffers named] at done
  have lawful := Replacement.buffer_lawful
  have distinct := nodup_namesOf named w.netlist.isDataBuffer
  have namedAfter := lawful.named_of_replaceCells distinct named done
  have spares {key : String} {cell : Cell} (there : w.netlist.cells[key]? = some cell)
      (kept : w.netlist.isDataBuffer cell = false) (net : String) :
      Spares w.netlist after.netlist key net :=
    lawful.spares_of_replaceCells distinct named done net
      ((NameMap.mem_iff_lookup ..).mpr ⟨cell, there⟩) (not_mem_namesOf named there kept)
  refine ⟨namedAfter, ?_⟩
  refine lawful.lacks_of_replaceCells Replacement.buffer_makes named done ?_ ?_
  · intro key cell there kept
    cases isBuffer : cell.isIoBuffer with
    | false => simp [isDataBuffer, isBuffer]
    | true =>
      have drives : w.netlist.DrivesClock cell.name := by
        simpa [isDataBuffer, isBuffer] using kept
      have stillDrives : after.netlist.DrivesClock cell.name :=
        drives.spared named namedAfter (named.cell there ▸ spares there kept)
          fun net flipFlopThere isFlipFlop => spares flipFlopThere
            (isDataBuffer_of_flipFlop _ ((Cell.isFlipFlop_iff _).mp isFlipFlop)) net
      simp [isDataBuffer, stillDrives]
  · exact fun cell isType => isDataBuffer_of_flipFlop _ isType

end Passes

/-- Stages leave behind what they have nothing to do on, if those for flip-flops and for IO do not
come together: that for IO makes flip-flops, and it does so behind the other. -/
theorem settled_of_runStages (named : Named w.netlist) (constants : stages.constants = false)
    (apart : ¬ (stages.flipFlops = true ∧ stages.virtualIo = true)) {summary : PackSummary}
    (done : (runStages k stages).run w = (.ok summary, after)) : Settled stages after.netlist := by
  obtain ⟨first, second, third, one, two, three, four⟩ := runStages_ok done
  have firstNamed : Named first.netlist := by
    rcases stage_ok one with ⟨on, -⟩ | ⟨-, rfl⟩
    · cases constants.symm.trans on
    · exact named
  have secondSettled : Named second.netlist ∧
      (stages.luts = true → second.netlist.Lacks Cell.isLut) := by
    rcases stage_ok two with ⟨-, run⟩ | ⟨off, rfl⟩
    · have settled := luts_settle firstNamed run
      exact ⟨settled.1, fun _ => settled.2⟩
    · exact ⟨firstNamed, fun on => by cases off.symm.trans on⟩
  obtain ⟨secondNamed, secondLacks⟩ := secondSettled
  have thirdSettled : Named third.netlist ∧
      (stages.luts = true → third.netlist.Lacks Cell.isLut) ∧
      (stages.flipFlops = true → third.netlist.Lacks Cell.isFlipFlop) := by
    rcases stage_ok three with ⟨-, run⟩ | ⟨off, rfl⟩
    · exact ⟨named_after_flipFlops secondNamed run,
        fun on => flipFlops_lack_lut secondNamed (secondLacks on) run,
        fun _ => no_flipFlop_after_flipFlops secondNamed run⟩
    · exact ⟨secondNamed, secondLacks, fun on => by cases off.symm.trans on⟩
  obtain ⟨thirdNamed, thirdLacks, thirdClocks⟩ := thirdSettled
  rcases stage_ok four with ⟨on, run⟩ | ⟨off, rfl⟩
  · have settled := virtualIo_settles thirdNamed run
    exact
      { toNamed := settled.1
        constants
        luts := fun luts => virtualIo_lacks_lut thirdNamed (thirdLacks luts) run
        flipFlops := fun flipFlops => (apart ⟨flipFlops, on⟩).elim
        virtualIo := fun _ => settled.2 }
  · exact
      { toNamed := thirdNamed
        constants
        luts := thirdLacks
        flipFlops := thirdClocks
        virtualIo := fun on => by cases off.symm.trans on }

/-- Packing again what was packed without constants, and not with flip-flops and IO together, finds
nothing to do and leaves the netlist as it is. -/
theorem pack_again (constants : stages.constants = false)
    (apart : ¬ (stages.flipFlops = true ∧ stages.virtualIo = true))
    (checked : w.netlist.check = .ok ()) {summary : PackSummary}
    (done : (pack k stages).run w = (.ok summary, after)) (log : Log) :
    ∃ later, (pack k stages).run ⟨after.netlist, log⟩ = (.ok {}, ⟨after.netlist, later⟩) := by
  have named := ((check_eq_ok_iff _).mp checked).toNamed
  obtain ⟨staged, ran, left⟩ := pack_ok done
  have settled := settled_of_runStages named constants apart ran
  obtain ⟨later, again⟩ := pack_of_settled (settled.setSetting "pack" (.int 1)) k log
  rw [setSetting_setSetting] at again
  rw [left]
  exact ⟨later, again⟩

/-- Of four buffers three are converted, and then none. -/
theorem bufferedRegister_pack_again :
    bufferedRegister.check = .ok () ∧
      ∃ after, (pack 4 {}).run ⟨bufferedRegister, .empty⟩ = (.ok { virtualIo := 3 }, after) ∧
        ∃ later, (pack 4 {}).run ⟨after.netlist, .empty⟩ = (.ok {}, ⟨after.netlist, later⟩) := by
  have checked : bufferedRegister.check = .ok () := by decide +kernel
  have counts : ((pack 4 {}).run ⟨bufferedRegister, .empty⟩).1 = .ok { virtualIo := 3 } := by
    decide +kernel
  obtain ⟨after, done⟩ : ∃ after,
      (pack 4 {}).run ⟨bufferedRegister, .empty⟩ = (.ok { virtualIo := 3 }, after) := by
    generalize (pack 4 {}).run ⟨bufferedRegister, .empty⟩ = outcome at counts
    exact ⟨outcome.2, Prod.ext counts rfl⟩
  exact ⟨checked, after, done, pack_again rfl (by decide) checked done .empty⟩

end Packing

end TileFabric
