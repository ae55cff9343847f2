import TileFabric.Proofs.Packing.ConstantConsistency
import TileFabric.Proofs.Packing.PassConsistency

/-!
# Buffers that drive a clock

`virtualIo` leaves a buffer alone if its net lists the clock of a flip-flop. The other passes keep
buffers, flip-flops and what connects them, with one exception: `flipFlops` puts every flip-flop
into a block, and then no net feeds a clock any more. A buffer that drives a clock is therefore
kept exactly when that pass is switched off.
-/

set_option autoImplicit false

namespace TileFabric

namespace Netlist

/-- What one netlist says of a cell and of its connections to a net, another one says as well. -/
structure Spares (before after : Netlist) (key name : String) : Prop where
  cell : ∀ {cell : Cell}, before.cells[key]? = some cell →
    ∃ same, after.cells[key]? = some same ∧ same.cellType = cell.cellType
  port : ∀ {port : String}, before.portNet? ⟨key, port⟩ = some name →
    after.portNet? ⟨key, port⟩ = some name
  driver : ∀ {net : Net} {port : String}, before.nets[name]? = some net →
    net.driver = some ⟨key, port⟩ →
    ∃ same, after.nets[name]? = some same ∧ same.driver = some ⟨key, port⟩
  user : ∀ {port : String}, ⟨key, port⟩ ∈ before.usersOf name → ⟨key, port⟩ ∈ after.usersOf name

/-- A cell of some type drives a net from one of its ports. -/
structure Drives (netlist : Netlist) (driver : PortRef) (cellType name : String) : Prop where
  cell : ∃ cell, netlist.cells[driver.cell]? = some cell ∧ cell.cellType = cellType
  net : ∃ net, netlist.nets[name]? = some net ∧ net.driver = some driver

/-- A flip-flop has its clock among the users of a net. -/
structure Clocks (netlist : Netlist) (name flipFlop : String) : Prop where
  cell : ∃ cell, netlist.cells[flipFlop]? = some cell ∧ cell.cellType = CellType.flipFlop
  listed : ⟨flipFlop, "CLK"⟩ ∈ netlist.usersOf name

theorem Drives.spared {before after : Netlist} {driver : PortRef} {cellType name : String}
    (drives : Drives before driver cellType name) (spares : Spares before after driver.cell name) :
    Drives after driver cellType name := by
  obtain ⟨cell, there, rfl⟩ := drives.cell
  obtain ⟨net, found, driven⟩ := drives.net
  exact ⟨spares.cell there, spares.driver found driven⟩

theorem Clocks.spared {before after : Netlist} {name flipFlop : String}
    (clocks : Clocks before name flipFlop) (spares : Spares before after flipFlop name) :
    Clocks after name flipFlop := by
  obtain ⟨cell, there, isFlipFlop⟩ := clocks.cell
  obtain ⟨same, sameThere, sameType⟩ := spares.cell there
  exact ⟨⟨same, sameThere, sameType.trans isFlipFlop⟩, spares.user clocks.listed⟩

/-- No cell of the netlist has the property. -/
def Lacks (netlist : Netlist) (p : Cell → Bool) : Prop :=
  ∀ {key : String} {cell : Cell}, netlist.cells[key]? = some cell → p cell = false

end Netlist

namespace Replacement

open Netlist

variable {r : Replacement} {suffix : String} {names : List String}

/-- A pass that goes well spares the cells that it does not replace. -/
theorem Lawful.spares_of_replaceCells (lawful : r.Lawful suffix) (distinct : names.Nodup)
    {netlist : Netlist} {log : Log} {after : Workspace} (named : Named netlist) {count : Nat}
    (done : (r.replaceCells names).run ⟨netlist, log⟩ = (.ok count, after)) {key : String}
    (name : String) (there : key ∈ netlist.cells) (apart : key ∉ names) :
    Spares netlist after.netlist key name := by
  obtain ⟨cells, between, frame, left⟩ := lawful.replaceCells_ok distinct named done
  obtain ⟨follow, fixed, nets⟩ := frame.nets
  have notNew : key ∉ cells.map (·.name) := by
    intro member
    obtain ⟨cell, isNew, rfl⟩ := List.mem_map.mp member
    exact frame.fresh cell isNew there
  have lookup : after.netlist.cells[key]? = netlist.cells[key]? := by
    rw [left, lookup_withCells_of_not_mem notNew, lookup_cells_withoutCells, if_neg apart,
      frame.others key apart]
  let kept (net : Net) : Net := (net.mapRefs (follow name)).keepRefs fun ref =>
    !decide (ref.cell ∈ names ∧ between.portNet? ref = some name)
  have net : after.netlist.nets[name]? = netlist.nets[name]?.map kept := by
    rw [left]
    change (between.withoutCells names).nets[name]? = _
    rw [lookup_nets_withoutCells, nets, Option.map_map]
    rfl
  have stays : ∀ port, follow name ⟨key, port⟩ = ⟨key, port⟩ := fun port => fixed name _ apart
  constructor
  case cell =>
    intro cell found
    exact ⟨cell, lookup.trans found, rfl⟩
  case port =>
    intro port attached
    rw [← attached]
    unfold portNet?
    rw [lookup]
  case driver =>
    intro old port found driven
    refine ⟨kept old, by rw [net, found]; rfl, ?_⟩
    simp [kept, Net.keepRefs, Net.mapRefs, driven, stays, apart]
  case user =>
    intro port listed
    cases found : netlist.nets[name]? with
    | none => simp [usersOf, found] at listed
    | some old =>
      rw [usersOf_of_net found] at listed
      rw [usersOf_of_net (net.trans (congrArg _ found))]
      have moved : ⟨key, port⟩ ∈ old.users.map (follow name) :=
        List.mem_map.mpr ⟨_, listed, stays port⟩
      exact List.mem_filter.mpr ⟨moved, by simp [apart]⟩

/-- All new cells are of this type. -/
def Makes (r : Replacement) (cellType : String) : Prop :=
  ∀ {source target : Cell}, r.make source = .ok target → target.cellType = cellType

theorem lut_makes (k : UInt32) : (lut k).Makes CellType.logicBlock := by
  intro source target made
  rw [lut_make, Except.ok.injEq] at made
  rw [← made]
  rfl

theorem flipFlop_makes (k : UInt32) : (flipFlop k).Makes CellType.logicBlock := by
  intro source target made
  rw [flipFlop_make, Except.ok.injEq] at made
  rw [← made]
  rfl

theorem buffer_makes : buffer.Makes CellType.flipFlop := by
  intro source target made
  rw [buffer_make, Except.ok.injEq] at made
  rw [← made]
  rfl

/-- A cell that a pass leaves behind was there before, or it comes from the pass. -/
theorem Lawful.origin_of_replaceCells (lawful : r.Lawful suffix) (distinct : names.Nodup)
    {netlist : Netlist} {log : Log} {after : Workspace} (named : Named netlist) {count : Nat}
    (done : (r.replaceCells names).run ⟨netlist, log⟩ = (.ok count, after)) {key : String}
    {cell : Cell} (found : after.netlist.cells[key]? = some cell) :
    (key ∉ names ∧ netlist.cells[key]? = some cell) ∨
      ∃ source target, r.make source = .ok target ∧ cell.cellType = target.cellType := by
  obtain ⟨cells, between, frame, left⟩ := lawful.replaceCells_ok distinct named done
  rw [left] at found
  by_cases isNew : key ∈ cells.map (·.name)
  · exact .inr (frame.made cell (lookup_withCells_of_mem isNew found).1)
  · rw [lookup_withCells_of_not_mem isNew, lookup_cells_withoutCells] at found
    split at found
    · cases found
    · rename_i apart
      exact .inl ⟨apart, (frame.others key apart).symm.trans found⟩

/-- A pass leaves no cell of a kind if it replaces all there are and its new cells are of another. -/
theorem Lawful.lacks_of_replaceCells (lawful : r.Lawful suffix) {cellType : String}
    (makes : r.Makes cellType) {netlist : Netlist} {log : Log} {after : Workspace}
    (named : Named netlist) {p q : Cell → Bool} {count : Nat}
    (done : (r.replaceCells (netlist.namesOf p)).run ⟨netlist, log⟩ = (.ok count, after))
    (old : ∀ {key : String} {cell : Cell}, netlist.cells[key]? = some cell → p cell = false →
      q cell = false)
    (new : ∀ cell : Cell, cell.cellType = cellType → q cell = false) : after.netlist.Lacks q := by
  intro key cell found
  rcases lawful.origin_of_replaceCells (nodup_namesOf named p) named done found with
    ⟨apart, there⟩ | ⟨source, target, made, isType⟩
  · refine old there (Bool.eq_false_iff.mpr fun selected => apart ?_)
    exact (mem_namesOf_iff named p key).mpr ⟨cell, there, selected⟩
  · exact new cell (isType.trans (makes made))

theorem Lawful.named_of_replaceCells (lawful : r.Lawful suffix) (distinct : names.Nodup)
    {netlist : Netlist} {log : Log} {after : Workspace} (named : Named netlist) {count : Nat}
    (done : (r.replaceCells names).run ⟨netlist, log⟩ = (.ok count, after)) :
    Named after.netlist := by
  obtain ⟨cells, between, frame, left⟩ := lawful.replaceCells_ok distinct named done
  rw [left]
  exact (frame.named.withoutCells names).withCells cells

end Replacement

namespace Packing

open Netlist

/-- A constants pass that goes well spares what has nothing to do with constants. -/
theorem spares_of_constants {k : UInt32} {w after : Workspace} {count : Nat}
    (consistent : Consistent w.netlist) (done : (constants k).run w = (.ok count, after))
    {key name : String} (there : key ∈ w.netlist.cells)
    (apart : w.netlist.drivesConstant key = false)
    (noConstant : w.netlist.constantOf? name = none) :
    Spares w.netlist after.netlist key name := by
  obtain ⟨installable, left⟩ := constants_ok_sweptWith consistent done
  obtain ⟨cell, found⟩ := (NameMap.mem_iff_lookup ..).mp there
  obtain ⟨swept, sweptFound, -, sameType⟩ :=
    (ConstantSweep.sweepState_ofNetlist consistent).cells.symm.cell found
  have inSwept : (ConstantSweep.ofNetlist w.netlist).swept.cells[key]? = some swept := by
    rw [ConstantSweep.lookup_cells_swept consistent, apart]
    exact sweptFound
  have notInstalled : ∀ c ∈ w.netlist.neededConstants, c.cell ≠ key := by
    rintro c needed rfl
    exact (installable.untaken c needed).2 ((NameMap.mem_iff_lookup ..).mpr ⟨swept, inSwept⟩)
  rw [left]
  constructor
  case cell =>
    intro same sameFound
    cases found.symm.trans sameFound
    refine ⟨swept, ?_, sameType⟩
    rw [sweptWith, lookup_cells_withConstants_of_not_mem _ _ _ notInstalled, inSwept]
  case port =>
    intro port attached
    exact (portNet?_sweptWith_iff consistent installable _ name).mpr
      (.inr ⟨apart, landing_of_not_constant _ attached noConstant⟩)
  case driver =>
    intro net port found driven
    refine ⟨_, (lookup_nets_sweptWith_iff consistent installable name _).mpr
      (.inr ⟨noConstant, net, found, rfl⟩), ?_⟩
    simp [Net.keepRefs, driven, apart]
  case user =>
    intro port listed
    cases found : w.netlist.nets[name]? with
    | none => simp [usersOf, found] at listed
    | some net =>
      have left := (lookup_nets_sweptWith_iff (k := k) consistent installable name _).mpr
        (.inr ⟨noConstant, net, found, rfl⟩)
      rw [usersOf_of_net found] at listed
      rw [usersOf_of_net left]
      exact List.mem_filter.mpr ⟨listed, by simp [apart]⟩

end Packing

namespace CellType

def buffers : List String := [inputBuffer, outputBuffer, bidirectionalBuffer]

end CellType

theorem Cell.isIoBuffer_iff (cell : Cell) :
    cell.isIoBuffer = true ↔ cell.cellType ∈ CellType.buffers := by
  simp [isIoBuffer, CellType.buffers, or_assoc]

theorem Cell.isFlipFlop_iff (cell : Cell) :
    cell.isFlipFlop = true ↔ cell.cellType = CellType.flipFlop := by
  simp [isFlipFlop]

namespace Netlist

theorem not_mem_namesOf {netlist : Netlist} (named : Named netlist) {key : String} {cell : Cell}
    (there : netlist.cells[key]? = some cell) {p : Cell → Bool} (fails : p cell = false) :
    key ∉ netlist.namesOf p := by
  rw [mem_namesOf_iff named]
  rintro ⟨same, sameThere, holds⟩
  cases there.symm.trans sameThere
  cases fails.symm.trans holds

/-- A buffer drives the net that the clock of a flip-flop is on. -/
structure ClockLine (netlist : Netlist) (driver : PortRef) (cellType name flipFlop : String) :
    Prop extends Named netlist where
  isBuffer : cellType ∈ CellType.buffers
  drives : Drives netlist driver cellType name
  clocks : Clocks netlist name flipFlop
  attached : netlist.portNet? ⟨flipFlop, "CLK"⟩ = some name

/-- The buffer of a clock line is one that drives a clock. -/
theorem ClockLine.mem_clockBuffers {netlist : Netlist} {driver : PortRef}
    {cellType name flipFlop : String} (line : ClockLine netlist driver cellType name flipFlop) :
    driver.cell ∈ netlist.clockBuffers := by
  obtain ⟨net, found, driven⟩ := line.drives.net
  obtain ⟨buffer, there, isType⟩ := line.drives.cell
  obtain ⟨clocked, clockedThere, isFlipFlop⟩ := line.clocks.cell
  have listed := line.clocks.listed
  have attached := line.attached
  rw [usersOf_of_net found] at listed
  rw [portNet?_of_cell clockedThere] at attached
  have netName : net.name = name := line.net found
  have feeds : netlist.feedsClock net = true := by
    unfold feedsClock
    rw [List.any_eq_true]
    refine ⟨_, listed, ?_⟩
    simp [clockedThere, (clocked.isFlipFlop_iff).mpr isFlipFlop, attached, netName]
  have isBuffer : buffer.isIoBuffer = true := (buffer.isIoBuffer_iff).mpr (isType ▸ line.isBuffer)
  have drives : netlist.driverCell? net.name = some buffer := by
    rw [driverCell?_eq, netName, found]
    simp [driven, there]
  unfold clockBuffers
  rw [List.mem_filterMap]
  refine ⟨net, (NameMap.mem_values_iff ..).mpr ⟨name, found⟩, ?_⟩
  simp [drives, isBuffer, feeds, line.cell there]

/-- Where there is no flip-flop, no buffer drives a clock. -/
theorem clockBuffers_eq_nil {netlist : Netlist} (none : netlist.Lacks Cell.isFlipFlop) :
    netlist.clockBuffers = [] := by
  have feeds : ∀ net, netlist.feedsClock net = false := by
    intro net
    unfold feedsClock
    rw [List.any_eq_false]
    intro user _
    cases there : netlist.cells[user.cell]? with
    | none => simp
    | some cell => simp [none there]
  unfold clockBuffers
  rw [List.filterMap_eq_nil_iff]
  intro net _
  cases netlist.driverCell? net.name <;> simp [feeds]

end Netlist

namespace Packing

open Netlist

variable {k : UInt32} {w after : Workspace} {count : Nat} {driver : PortRef}
  {cellType name flipFlop : String}

/-- No cell of a clock line is a ground or supply cell, so the line outlasts those. -/
theorem clockLine_after_constants (consistent : Consistent w.netlist)
    (line : ClockLine w.netlist driver cellType name flipFlop)
    (done : (constants k).run w = (.ok count, after)) :
    ClockLine after.netlist driver cellType name flipFlop := by
  obtain ⟨buffer, there, isType⟩ := line.drives.cell
  obtain ⟨net, found, driven⟩ := line.drives.net
  obtain ⟨clocked, clockedThere, isFlipFlop⟩ := line.clocks.cell
  have noSupply : ∀ cellType ∈ CellType.buffers, Constant.ofCellType? cellType = none := by decide
  have unsupplied : Constant.ofCellType? buffer.cellType = none :=
    noSupply _ (isType ▸ line.isBuffer)
  have noConstant : w.netlist.constantOf? name = none := by
    simp [constantOf?, driverCell?_eq, found, driven, there, unsupplied]
  have stays : ∀ {key : String} {cell : Cell}, w.netlist.cells[key]? = some cell →
      Constant.ofCellType? cell.cellType = none → w.netlist.drivesConstant key = false := by
    intro key cell there none
    rw [Bool.eq_false_iff]
    intro drives
    obtain ⟨same, sameThere, isConstant⟩ := cell_of_drivesConstant drives
    cases there.symm.trans sameThere
    rcases isConstant with isConstant | isConstant <;> rw [isConstant] at none <;> cases none
  have clockSpared : Spares w.netlist after.netlist flipFlop name :=
    spares_of_constants consistent done ((NameMap.mem_iff_lookup ..).mpr ⟨_, clockedThere⟩)
      (stays clockedThere (by rw [isFlipFlop]; rfl)) noConstant
  obtain ⟨installable, left⟩ := constants_ok_sweptWith consistent done
  refine ⟨left ▸ named_sweptWith consistent installable, line.isBuffer, ?_,
    line.clocks.spared clockSpared, clockSpared.port line.attached⟩
  exact line.drives.spared (spares_of_constants consistent done
    ((NameMap.mem_iff_lookup ..).mpr ⟨_, there⟩) (stays there unsupplied) noConstant)

/-- A pass that replaces other cells keeps a clock line. -/
theorem clockLine_after_replaceCells {r : Replacement} {suffix : String}
    (lawful : r.Lawful suffix) {netlist : Netlist} {log : Log} {p : Cell → Bool}
    (line : ClockLine netlist driver cellType name flipFlop)
    (apart : driver.cell ∉ netlist.namesOf p ∧ flipFlop ∉ netlist.namesOf p)
    (done : (r.replaceCells (netlist.namesOf p)).run ⟨netlist, log⟩ = (.ok count, after)) :
    ClockLine after.netlist driver cellType name flipFlop := by
  have distinct := nodup_namesOf line.toNamed p
  obtain ⟨buffer, there, -⟩ := line.drives.cell
  obtain ⟨clocked, clockedThere, -⟩ := line.clocks.cell
  have clockSpared := lawful.spares_of_replaceCells distinct line.toNamed done name
    ((NameMap.mem_iff_lookup ..).mpr ⟨_, clockedThere⟩) apart.2
  refine ⟨lawful.named_of_replaceCells distinct line.toNamed done, line.isBuffer, ?_,
    line.clocks.spared clockSpared, clockSpared.port line.attached⟩
  exact line.drives.spared (lawful.spares_of_replaceCells distinct line.toNamed done name
    ((NameMap.mem_iff_lookup ..).mpr ⟨_, there⟩) apart.1)

theorem clockLine_after_luts (line : ClockLine w.netlist driver cellType name flipFlop)
    (done : (luts k).run w = (.ok count, after)) :
    ClockLine after.netlist driver cellType name flipFlop := by
  rw [run_luts] at done
  refine clockLine_after_replaceCells (Replacement.lut_lawful k) line ⟨?_, ?_⟩ done
  · obtain ⟨buffer, there, isType⟩ := line.drives.cell
    apply not_mem_namesOf line.toNamed there
    have noLut : ∀ cellType ∈ CellType.buffers, (cellType == CellType.lut) = false := by decide
    exact noLut _ (isType ▸ line.isBuffer)
  · obtain ⟨clocked, clockedThere, isFlipFlop⟩ := line.clocks.cell
    apply not_mem_namesOf line.toNamed clockedThere
    unfold Cell.isLut
    rw [isFlipFlop]
    rfl

theorem clockLine_after_virtualIo (line : ClockLine w.netlist driver cellType name flipFlop)
    (done : virtualIo.run w = (.ok count, after)) :
    ClockLine after.netlist driver cellType name flipFlop := by
  rw [run_virtualIo] at done
  refine clockLine_after_replaceCells Replacement.buffer_lawful line ⟨?_, ?_⟩ done
  · obtain ⟨buffer, there, -⟩ := line.drives.cell
    apply not_mem_namesOf line.toNamed there
    simp [line.cell there, line.mem_clockBuffers]
  · obtain ⟨clocked, clockedThere, isFlipFlop⟩ := line.clocks.cell
    apply not_mem_namesOf line.toNamed clockedThere
    unfold Cell.isIoBuffer
    rw [isFlipFlop]
    rfl

/-- All flip-flops go into blocks. -/
theorem no_flipFlop_after_flipFlops (named : Named w.netlist)
    (done : (flipFlops k).run w = (.ok count, after)) : after.netlist.Lacks Cell.isFlipFlop := by
  rw [run_flipFlops] at done
  refine (Replacement.flipFlop_lawful k).lacks_of_replaceCells (Replacement.flipFlop_makes k)
    named done (fun _ other => other) ?_
  intro cell isType
  unfold Cell.isFlipFlop
  rw [isType]
  rfl

theorem named_after_flipFlops (named : Named w.netlist)
    (done : (flipFlops k).run w = (.ok count, after)) : Named after.netlist := by
  rw [run_flipFlops] at done
  exact (Replacement.flipFlop_lawful k).named_of_replaceCells (nodup_namesOf named _) named done

/-- All buffers become flip-flops where none drives a clock. -/
theorem no_buffer_after_virtualIo (named : Named w.netlist) (none : w.netlist.clockBuffers = [])
    (done : virtualIo.run w = (.ok count, after)) : after.netlist.Lacks Cell.isIoBuffer := by
  rw [run_virtualIo] at done
  refine Replacement.buffer_lawful.lacks_of_replaceCells Replacement.buffer_makes named done ?_ ?_
  · intro key cell _ other
    simpa [none] using other
  · intro cell isType
    unfold Cell.isIoBuffer
    rw [isType]
    rfl

/-- A pass that may be switched off. -/
def stage (on : Bool) (pass : Packing Nat) : Packing Nat := if on then pass else pure 0

theorem stage_ok {on : Bool} {pass : Packing Nat}
    (done : (stage on pass).run w = (.ok count, after)) :
    (on = true ∧ pass.run w = (.ok count, after)) ∨ (on = false ∧ after = w) := by
  cases on with
  | true => exact .inl ⟨rfl, done⟩
  | false =>
    cases done
    exact .inr ⟨rfl, rfl⟩

theorem runStages_eq (k : UInt32) (stages : Stages) : runStages k stages =
    (stage stages.constants (constants k) >>= fun constants =>
      stage stages.luts (luts k) >>= fun luts =>
        stage stages.flipFlops (flipFlops k) >>= fun flipFlops =>
          stage stages.virtualIo virtualIo >>= fun virtualIo =>
            pure { constants, luts, flipFlops, virtualIo }) := by
  cases stages with
  | mk constants luts flipFlops virtualIo =>
    cases constants <;> cases luts <;> cases flipFlops <;> cases virtualIo <;> rfl

/-- Stages that go well have run one after the other. -/
theorem runStages_ok {stages : Stages} {summary : PackSummary}
    (done : (runStages k stages).run w = (.ok summary, after)) :
    ∃ first second third,
      (stage stages.constants (constants k)).run w = (.ok summary.constants, first) ∧
      (stage stages.luts (luts k)).run first = (.ok summary.luts, second) ∧
      (stage stages.flipFlops (flipFlops k)).run second = (.ok summary.flipFlops, third) ∧
      (stage stages.virtualIo virtualIo).run third = (.ok summary.virtualIo, after) := by
  rw [runStages_eq] at done
  obtain ⟨_, first, one, done⟩ := run_bind_ok done
  obtain ⟨_, second, two, done⟩ := run_bind_ok done
  obtain ⟨_, third, three, done⟩ := run_bind_ok done
  obtain ⟨_, fourth, four, done⟩ := run_bind_ok done
  cases done
  exact ⟨first, second, third, one, two, three, four⟩

/-- Packing that goes well has run its stages and then marks the netlist. -/
theorem pack_ok {stages : Stages} {summary : PackSummary}
    (done : (pack k stages).run w = (.ok summary, after)) :
    ∃ staged, (runStages k stages).run w = (.ok summary, staged) ∧
      after.netlist = staged.netlist.setSetting "pack" (.int 1) := by
  obtain ⟨_, staged, ran, done⟩ := run_bind_ok done
  obtain ⟨_, marked, marking, done⟩ := run_bind_ok done
  cases done
  cases marking
  cases outcome : (runStages k stages).run w with
  | mk result between =>
    cases result with
    | ok counts =>
      rw [run_tryCatch_of_ok outcome] at ran
      cases ran
      exact ⟨staged, rfl, rfl⟩
    | error e =>
      rw [run_tryCatch_of_error outcome] at ran
      cases ran

/-- A buffer that drives a clock is kept by packing with the pass for IO switched on exactly when
the pass for flip-flops is switched off. -/
theorem pack_keeps_clockBuffer_iff {stages : Stages} (io : stages.virtualIo = true)
    (checked : w.netlist.check = .ok ()) {summary : PackSummary}
    (done : (pack k stages).run w = (.ok summary, after)) (isBuffer : cellType ∈ CellType.buffers)
    (drives : Drives w.netlist driver cellType name) (clocks : Clocks w.netlist name flipFlop) :
    Drives after.netlist driver cellType name ↔ stages.flipFlops = false := by
  have consistent := (check_eq_ok_iff _).mp checked
  have line : ClockLine w.netlist driver cellType name flipFlop :=
    ⟨consistent.toNamed, isBuffer, drives, clocks, consistent.portNet?_of_mem_usersOf clocks.listed⟩
  obtain ⟨staged, ran, left⟩ := pack_ok done
  obtain ⟨first, second, third, one, two, three, four⟩ := runStages_ok ran
  have firstLine : ClockLine first.netlist driver cellType name flipFlop := by
    rcases stage_ok one with ⟨-, run⟩ | ⟨-, rfl⟩
    · exact clockLine_after_constants consistent line run
    · exact line
  have secondLine : ClockLine second.netlist driver cellType name flipFlop := by
    rcases stage_ok two with ⟨-, run⟩ | ⟨-, rfl⟩
    · exact clockLine_after_luts firstLine run
    · exact firstLine
  have ranIo : virtualIo.run third = (.ok summary.virtualIo, staged) := by
    rwa [io] at four
  constructor
  · intro kept
    -- Without flip-flops the last pass sees no clock, and it leaves no buffer at all.
    rcases stage_ok three with ⟨-, run⟩ | ⟨off, -⟩
    · have noClocks : third.netlist.clockBuffers = [] :=
        clockBuffers_eq_nil (no_flipFlop_after_flipFlops secondLine.toNamed run)
      have thirdNamed : Named third.netlist := named_after_flipFlops secondLine.toNamed run
      obtain ⟨cell, there, isType⟩ := kept.cell
      rw [left] at there
      have noBuffer := no_buffer_after_virtualIo thirdNamed noClocks ranIo there
      rw [← isType, ← cell.isIoBuffer_iff, noBuffer] at isBuffer
      cases isBuffer
    · exact off
  · intro off
    rcases stage_ok three with ⟨on, -⟩ | ⟨-, rfl⟩
    · cases off.symm.trans on
    · have last := (clockLine_after_virtualIo secondLine ranIo).drives
      rw [left]
      exact ⟨last.cell, last.net⟩

def clockInput : Cell where
  name := "clk"
  cellType := "$nextpnr_ibuf"
  ports := .ofList [("O", ({ direction := .output, net := some "n" } : Port))]

def clockedRegister : Cell where
  name := "ff"
  cellType := "DFFER"
  ports := .ofList [("CLK", ({ direction := .input, net := some "n" } : Port))]

def clockNet : Net where
  name := "n"
  driver := some ⟨"clk", "O"⟩
  users := [⟨"ff", "CLK"⟩]

/-- An input buffer that drives the clock of a flip-flop. -/
def clockedDesign : Netlist where
  cells := .ofList [("clk", clockInput), ("ff", clockedRegister)]
  nets := .ofList [("n", clockNet)]
  settings := ∅
  nextName := 0

theorem clockedDesign_keeps_clockBuffer :
    ((pack 4 {}).run ⟨clockedDesign, .empty⟩).1 = .ok {} ∧
      Drives ((pack 4 {}).run ⟨clockedDesign, .empty⟩).2.netlist ⟨"clk", "O"⟩ "$nextpnr_ibuf" "n" := by
  have checked : clockedDesign.check = .ok () := by decide +kernel
  have done : ((pack 4 {}).run ⟨clockedDesign, .empty⟩).1 = .ok {} := by decide +kernel
  have drives : Drives clockedDesign ⟨"clk", "O"⟩ "$nextpnr_ibuf" "n" :=
    ⟨⟨clockInput, by decide +kernel, rfl⟩, ⟨clockNet, by decide +kernel, rfl⟩⟩
  have clocks : Clocks clockedDesign "n" "ff" :=
    ⟨⟨clockedRegister, by decide +kernel, rfl⟩, by decide +kernel⟩
  have io : ({} : Stages).virtualIo = true := rfl
  have kept := pack_keeps_clockBuffer_iff io checked (Prod.ext done rfl) (by decide) drives clocks
  exact ⟨done, kept.mpr rfl⟩

/-- With the pass for flip-flops the buffer is converted although it drives a clock. -/
theorem clockedDesign_loses_clockBuffer :
    clockedDesign.check = .ok () ∧ clockedDesign.clockBuffers = ["clk"] ∧
      ((pack 4 { flipFlops := true }).run ⟨clockedDesign, .empty⟩).1 =
        .ok { flipFlops := 1, virtualIo := 1 } ∧
      ((pack 4 { flipFlops := true }).run ⟨clockedDesign, .empty⟩).2.netlist.cells["clk"]? = none := by
  decide +kernel

end Packing

end TileFabric
