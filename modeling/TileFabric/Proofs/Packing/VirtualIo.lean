import TileFabric.Proofs.Packing.ConstantSweep
import TileFabric.Proofs.Packing.Conversion

/-!
# IO buffers become flip-flops

Which buffers stay is said by the nets: a buffer drives a clock if it drives a net that has among
its users a flip-flop whose clock is on that net. All other buffers are converted. The wiring of a
conversion depends on the kind of the buffer and has one port at most, so that the connections of a
buffer to the outside are dropped.
-/

set_option autoImplicit false

namespace TileFabric

namespace Netlist

/-- Some net that the cell drives has among its users a flip-flop with its clock on that net. -/
def DrivesClock (netlist : Netlist) (name : String) : Prop :=
  ∃ net ∈ netlist.nets.values, net.driver.map (·.cell) = some name ∧
    ∃ user ∈ net.users, ∃ cell ∈ netlist.cells[user.cell]?,
      cell.isFlipFlop = true ∧ cell.portNet? "CLK" = some net.name

instance (netlist : Netlist) (name : String) : Decidable (netlist.DrivesClock name) :=
  inferInstanceAs (Decidable (∃ net ∈ netlist.nets.values, net.driver.map (·.cell) = some name ∧
    ∃ user ∈ net.users, ∃ cell ∈ netlist.cells[user.cell]?,
      cell.isFlipFlop = true ∧ cell.portNet? "CLK" = some net.name))

/-- An IO buffer that drives no clock. -/
def isDataBuffer (netlist : Netlist) (cell : Cell) : Bool :=
  cell.isIoBuffer && !decide (netlist.DrivesClock cell.name)

theorem feedsClock_iff (netlist : Netlist) (net : Net) :
    netlist.feedsClock net = true ↔ ∃ user ∈ net.users, ∃ cell ∈ netlist.cells[user.cell]?,
      cell.isFlipFlop = true ∧ cell.portNet? "CLK" = some net.name := by
  unfold feedsClock
  rw [List.any_eq_true]
  refine exists_congr fun user => and_congr_right fun _ => ?_
  cases netlist.cells[user.cell]? <;> simp

/-- The pass finds exactly the buffers that drive a clock. -/
theorem mem_clockBuffers_iff {netlist : Netlist} (named : Named netlist) {name : String}
    {buffer : Cell} (there : netlist.cells[name]? = some buffer)
    (isBuffer : buffer.isIoBuffer = true) :
    name ∈ netlist.clockBuffers ↔ netlist.DrivesClock name := by
  have found : ∀ net ∈ netlist.nets.values, netlist.driverCell? net.name =
      net.driver.bind fun driver => netlist.cells[driver.cell]? := by
    intro net member
    obtain ⟨key, netThere⟩ := (NameMap.mem_values_iff ..).mp member
    rw [driverCell?_eq, named.net netThere, netThere]
    rfl
  unfold clockBuffers DrivesClock
  rw [List.mem_filterMap]
  refine exists_congr fun net => and_congr_right fun member => ?_
  rw [← feedsClock_iff, found net member]
  cases driven : net.driver with
  | none => simp
  | some driver =>
    cases driverThere : netlist.cells[driver.cell]? with
    | none =>
      have apart : driver.cell ≠ name := by
        rintro rfl
        rw [there] at driverThere
        cases driverThere
      simp [driverThere, apart]
    | some cell =>
      have sameName := named.cell driverThere
      by_cases same : driver.cell = name
      · subst same
        cases there.symm.trans driverThere
        simp [there, isBuffer, sameName]
      · simp [driverThere, same, sameName]

theorem namesOf_congr {netlist : Netlist} {p q : Cell → Bool}
    (same : ∀ {name : String} {cell : Cell}, netlist.cells[name]? = some cell → p cell = q cell) :
    netlist.namesOf p = netlist.namesOf q := by
  unfold namesOf
  rw [List.filter_congr]
  intro cell member
  obtain ⟨name, there⟩ := (NameMap.mem_values_iff ..).mp member
  exact same there

theorem namesOf_dataBuffers {netlist : Netlist} (named : Named netlist) :
    (netlist.namesOf fun cell => cell.isIoBuffer && !netlist.clockBuffers.contains cell.name) =
      netlist.namesOf netlist.isDataBuffer := by
  apply namesOf_congr
  intro name cell there
  unfold isDataBuffer
  cases isBuffer : cell.isIoBuffer with
  | false => rfl
  | true =>
    have clock := mem_clockBuffers_iff named there isBuffer
    rw [← named.cell there] at clock
    simp [clock]

end Netlist

/-- The port of a buffer that moves to a flip-flop, and where it moves. -/
def bufferWiring (buffer : Cell) : List (String × String) :=
  if buffer.cellType = CellType.inputBuffer then [("O", "Q")]
  else if buffer.cellType = CellType.outputBuffer then [("I", "D")]
  else []

/-- The flip-flop that stands in for a buffer. -/
structure VirtualBuffer (buffer flipFlop : Cell) : Prop where
  name : flipFlop.name = buffer.name ++ "_DFF"
  cellType : flipFlop.cellType = CellType.flipFlop
  attrs : flipFlop.attrs = ∅
  params : flipFlop.params = (∅ : NameMap Property).insert "INIT" (.int 1)
  ports : ∀ port : String, flipFlop.ports[port]?.map (·.direction) =
    if port ∈ FlipFlop.outputs then some .output
    else if port ∈ FlipFlop.inputs then some .input
    else none
  wired : WiredFrom (bufferWiring buffer) buffer flipFlop

theorem bufferWiring_cases (buffer : Cell) :
    bufferWiring buffer = [("O", "Q")] ∨ bufferWiring buffer = [("I", "D")] ∨
      bufferWiring buffer = [] := by
  unfold bufferWiring
  split
  · exact .inl rfl
  · split
    · exact .inr (.inl rfl)
    · exact .inr (.inr rfl)

namespace Conversion

/-- The conversion of IO buffers. -/
def buffer : Conversion where
  blank buffer := (FlipFlop.new (buffer.name ++ "_DFF")).setParam "INIT" (.int 1)
  wiring := bufferWiring
  fits _ := True

theorem ports_blank_buffer (cell : Cell) :
    (buffer.blank cell).ports = (FlipFlop.new (cell.name ++ "_DFF")).ports := rfl

/-- A buffer becomes the flip-flop that stands in for it. -/
theorem virtualBuffer_result (cell : Cell) : VirtualBuffer cell (buffer.result cell) := by
  have same := buffer.result_eq cell
  constructor
  case name => exact congrArg Cell.name same
  case cellType => exact congrArg Cell.cellType same
  case attrs => exact congrArg Cell.attrs same
  case params =>
    refine (congrArg Cell.params same).trans ?_
    apply Std.ExtTreeMap.ext_getElem?
    intro name
    change (((∅ : NameMap Property).insert "INIT" (.int 0)).insert "INIT" (.int 1))[name]? = _
    simp only [NameMap.lookup_insert]
    split <;> rfl
  case ports =>
    intro port
    rw [map_direction_result, ports_blank_buffer, FlipFlop.lookup_ports_new]
    split
    · rfl
    · split <;> rfl
  case wired =>
    have ends : ((bufferWiring cell).map (·.1)).Nodup ∧ ((bufferWiring cell).map (·.2)).Nodup ∧
        ∀ port ∈ (bufferWiring cell).map (·.2),
          port ∈ FlipFlop.outputs ∨ port ∈ FlipFlop.inputs := by
      rcases bufferWiring_cases cell with wiring | wiring | wiring <;> rw [wiring] <;> decide
    obtain ⟨sources, targets, isPort⟩ := ends
    apply wiredFrom_result (c := buffer) sources targets
    · intro port member
      rw [ports_blank_buffer, FlipFlop.lookup_ports_new]
      by_cases output : port ∈ FlipFlop.outputs
      · exact ⟨_, if_pos output, rfl⟩
      · exact ⟨_, (if_neg output).trans (if_pos ((isPort port member).resolve_left output)), rfl⟩
    · intro port
      rw [Cell.portNet?, ports_blank_buffer]
      exact FlipFlop.portNet?_new ..

end Conversion

namespace Replacement

theorem buffer_performs : buffer.Performs .buffer := by
  constructor
  intro source target nets after made done
  rw [buffer_make, Except.ok.injEq] at made
  subst made
  refine ⟨trivial, ?_⟩
  change Bench.bufferToFlipFlop.run _ = _ at done
  unfold Bench.bufferToFlipFlop at done
  simp only [run_get_bind, run_bind_of_ok (Bench.run_setTarget _ _ _)] at done
  change after = Bench.carried (bufferWiring source) _
  unfold bufferWiring
  split at done
  · rename_i input
    rw [if_pos input]
    exact (Bench.movable_of_movePort done).2
  · rename_i notInput
    rw [if_neg notInput]
    split at done
    · rename_i output
      rw [if_pos output]
      exact (Bench.movable_of_movePort done).2
    · rename_i notOutput
      rw [if_neg notOutput]
      cases done
      rfl

end Replacement

namespace Packing

open Netlist

/-- On a consistent netlist, packing IO that goes well keeps exactly the buffers that drive a clock
and replaces each of the others by a flip-flop, taking the references along in their order; nothing
else changes. -/
theorem buffers_become_flipFlops {w after : Workspace} {count : Nat}
    (checked : w.netlist.check = .ok ()) (done : virtualIo.run w = (.ok count, after)) :
    count = w.netlist.cells.values.countP w.netlist.isDataBuffer ∧
      (∀ (name : String) (buffer : Cell),
        (after.netlist.cells[name]? = some buffer ∧ buffer.isIoBuffer = true) ↔
          (w.netlist.cells[name]? = some buffer ∧ buffer.isIoBuffer = true ∧
            w.netlist.DrivesClock name)) ∧
      Replaced w.netlist.isDataBuffer "_DFF" bufferWiring VirtualBuffer w.netlist
        after.netlist := by
  have consistent := (check_eq_ok_iff _).mp checked
  have named := consistent.toNamed
  rw [run_virtualIo, namesOf_dataBuffers named] at done
  obtain ⟨counted, converted⟩ := Replacement.buffer_performs.converted_of_replaceCells
    Replacement.buffer_lawful consistent done
  have replaced : Replaced w.netlist.isDataBuffer "_DFF" bufferWiring VirtualBuffer w.netlist
      after.netlist :=
    converted.replaced named (fun _ => rfl) fun source _ _ => Conversion.virtualBuffer_result source
  refine ⟨counted, fun name buffer => ⟨?_, ?_⟩, replaced⟩
  · rintro ⟨there, isBuffer⟩
    rcases replaced.only there with ⟨wasThere, notData⟩ | ⟨_, old, _, _, _, isNew⟩
    · have clock : w.netlist.DrivesClock buffer.name := by
        simpa [isDataBuffer, isBuffer] using notData
      exact ⟨wasThere, isBuffer, named.cell wasThere ▸ clock⟩
    · unfold Cell.isIoBuffer at isBuffer
      rw [isNew.cellType] at isBuffer
      cases isBuffer
  · rintro ⟨there, isBuffer, clock⟩
    have notData : w.netlist.isDataBuffer buffer = false := by
      rw [← named.cell there] at clock
      simp [isDataBuffer, clock]
    exact ⟨replaced.kept there notData, isBuffer⟩

/-- A buffer for a clock, one for data that it feeds into a net with a buffer of each other kind,
and a net outside on which two of them meet. -/
def bufferedRegister : Netlist where
  cells :=
    let input (net : String) : Port := { direction := .input, net := some net }
    let output (net : String) : Port := { direction := .output, net := some net }
    let clock : Cell :=
      { name := "clk", cellType := "$nextpnr_ibuf", ports := .ofList [("O", output "c")] }
    let data : Cell :=
      { name := "d", cellType := "$nextpnr_ibuf",
        ports := .ofList [("O", output "n"), ("PAD", input "p")] }
    let result : Cell :=
      { name := "q", cellType := "$nextpnr_obuf",
        ports := .ofList [("I", input "n"), ("PAD", output "p")] }
    let both : Cell :=
      { name := "b", cellType := "$nextpnr_iobuf", ports := .ofList [("I", input "n")] }
    let register : Cell :=
      { name := "ff", cellType := "DFFER",
        ports := .ofList [("CLK", input "c"), ("D", input "n")] }
    .ofList [("clk", clock), ("d", data), ("q", result), ("b", both), ("ff", register)]
  nets :=
    let c : Net := { name := "c", driver := some ⟨"clk", "O"⟩, users := [⟨"ff", "CLK"⟩] }
    let n : Net :=
      { name := "n", driver := some ⟨"d", "O"⟩, users := [⟨"q", "I"⟩, ⟨"b", "I"⟩, ⟨"ff", "D"⟩] }
    let p : Net := { name := "p", driver := some ⟨"q", "PAD"⟩, users := [⟨"d", "PAD"⟩] }
    .ofList [("c", c), ("n", n), ("p", p)]
  settings := ∅
  nextName := 0

theorem bufferedRegister_become_flipFlops :
    bufferedRegister.check = .ok () ∧
      ∃ after, virtualIo.run ⟨bufferedRegister, .empty⟩ = (.ok 3, after) ∧
        after.netlist.cells["clk"]? = bufferedRegister.cells["clk"]? ∧
        after.netlist.nets["n"]? = some
          { name := "n", driver := some ⟨"d_DFF", "Q"⟩, users := [⟨"q_DFF", "D"⟩, ⟨"ff", "D"⟩] } ∧
        after.netlist.nets["p"]? = some { name := "p" } ∧
        ∃ flipFlop, after.netlist.cells["b_DFF"]? = some flipFlop ∧
          ∀ port, flipFlop.portNet? port = none := by
  have checked : bufferedRegister.check = .ok () := by decide +kernel
  have count : (virtualIo.run ⟨bufferedRegister, .empty⟩).1 = .ok 3 := by decide +kernel
  obtain ⟨after, done⟩ : ∃ after, virtualIo.run ⟨bufferedRegister, .empty⟩ = (.ok 3, after) := by
    generalize virtualIo.run ⟨bufferedRegister, .empty⟩ = outcome at count
    exact ⟨outcome.2, Prod.ext count rfl⟩
  obtain ⟨-, clocks, replaced⟩ :=
    buffers_become_flipFlops (w := ⟨bufferedRegister, .empty⟩) checked done
  have clock : bufferedRegister.cells["clk"]? =
      some (bufferedRegister.cells["clk"]?.getD default) := by decide +kernel
  have both : bufferedRegister.cells["b"]? = some (bufferedRegister.cells["b"]?.getD default) := by
    decide +kernel
  have kept := (clocks "clk" _).mpr ⟨clock, by decide +kernel, by decide +kernel⟩
  obtain ⟨flipFlop, there, isNew⟩ := replaced.new both (by decide +kernel)
  refine ⟨checked, after, done, kept.1.trans clock.symm, ?_, ?_, flipFlop, there, ?_⟩
  · exact (replaced.nets "n").trans (by decide +kernel)
  · exact (replaced.nets "p").trans (by decide +kernel)
  · have unwired : bufferWiring (bufferedRegister.cells["b"]?.getD default) = [] := by
      decide +kernel
    intro port
    exact isNew.wired.others port (by simp [unwired])

end Packing

end TileFabric
