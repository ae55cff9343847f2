import TileFabric.Proofs.Packing.FlipFlopBlocks
import TileFabric.Proofs.Packing.TableBlocks
import TileFabric.Proofs.Packing.VirtualIo

/-!
# Where a pass ends

A cell is not replaced if its new name is taken, or if it is refused for itself. Neither depends on
how far a pass has come: no name of a cell changes before the commit, and a refusal looks at the
cell alone. So a pass fails exactly if one of its cells has an obstacle, it fails with the obstacle
of the first such cell in the order of names, and it leaves the netlist in which the cells in front
of that one, and no others, are replaced.
-/

set_option autoImplicit false

namespace TileFabric

namespace Netlist

/-- Why a cell is not replaced: its new name is taken, or it is refused for itself. -/
def obstacle? (netlist : Netlist) (suffix : String) (refusal? : Cell → Option NetlistError)
    (cell : Cell) : Option NetlistError :=
  if cell.name ++ suffix ∈ netlist.cells then some (.duplicateCell (cell.name ++ suffix))
  else refusal? cell

theorem obstacle?_congr {first second : Netlist}
    (keys : ∀ key, key ∈ first.cells ↔ key ∈ second.cells) (suffix : String)
    (refusal? : Cell → Option NetlistError) (cell : Cell) :
    first.obstacle? suffix refusal? cell = second.obstacle? suffix refusal? cell := by
  simp only [obstacle?, keys]

/-- In an ordered list, the entries in front of one are those that are less. -/
theorem take_eq_filter {names : List String} (sorted : names.Pairwise (· < ·)) {n : Nat}
    {name : String} (there : names[n]? = some name) :
    names.take n = names.filter fun other => decide (other < name) := by
  induction names generalizing n with
  | nil => simp at there
  | cons first rest ih =>
    obtain ⟨least, sorted⟩ := List.pairwise_cons.mp sorted
    cases n with
    | zero =>
      cases there
      rw [List.take_zero, eq_comm, List.filter_eq_nil_iff]
      intro other member
      rcases List.mem_cons.mp member with rfl | later
      · simp
      · simpa using String.lt_asymm (least other later)
    | succ n =>
      rw [List.getElem?_cons_succ] at there
      have less := least name (List.mem_of_getElem? there)
      rw [List.take_succ_cons, ih sorted there, List.filter_cons_of_pos (by simpa using less)]

/-- The cells in front of a name, among those with a property. -/
theorem namesOf_before (netlist : Netlist) (p : Cell → Bool) (name : String) :
    ((netlist.namesOf p).filter fun other => decide (other < name)) =
      netlist.namesOf fun cell => p cell && decide (cell.name < name) := by
  unfold namesOf
  rw [List.filter_map, List.filter_filter]
  congr 2
  funext cell
  exact Bool.and_comm ..

end Netlist

/-- A pass over the cells with a property replaces all of them or, where some have an obstacle,
fails with that of the first and replaces those in front of it. -/
structure EndsAtObstacle (p : Cell → Bool) (suffix : String)
    (wiring : Cell → List (String × String)) (becomes : Cell → Cell → Prop)
    (obstacle? : Cell → Option NetlistError) (before : Netlist)
    (result : Except NetlistError Nat) (after : Netlist) : Prop where
  fails_iff : (∃ e, result = .error e) ↔
    ∃ (name : String) (cell : Cell), before.cells[name]? = some cell ∧ p cell = true ∧
      obstacle? cell ≠ none
  failed : ∀ e, result = .error e → ∃ (name : String) (cell : Cell),
    before.cells[name]? = some cell ∧ p cell = true ∧ obstacle? cell = some e ∧
      (∀ (earlier : String) (other : Cell), before.cells[earlier]? = some other →
        p other = true → earlier < name → obstacle? other = none) ∧
      Replaced (fun other => p other && decide (other.name < name)) suffix wiring becomes
        before after
  done : ∀ count, result = .ok count → Replaced p suffix wiring becomes before after

namespace EndsAtObstacle

variable {p : Cell → Bool} {suffix : String} {wiring : Cell → List (String × String)}
  {becomes : Cell → Cell → Prop} {obstacle? : Cell → Option NetlistError} {before after : Netlist}

theorem of_done {count : Nat}
    (clear : ∀ {name : String} {cell : Cell}, before.cells[name]? = some cell → p cell = true →
      obstacle? cell = none)
    (replaced : Replaced p suffix wiring becomes before after) :
    EndsAtObstacle p suffix wiring becomes obstacle? before (.ok count) after where
  fails_iff := by
    constructor
    · rintro ⟨e, isError⟩
      cases isError
    · rintro ⟨name, cell, there, selected, blocked⟩
      exact absurd (clear there selected) blocked
  failed e isError := by cases isError
  done _ _ := replaced

theorem of_failed {name : String} {cell : Cell} {e : NetlistError}
    (there : before.cells[name]? = some cell) (selected : p cell = true)
    (obstacle : obstacle? cell = some e)
    (clear : ∀ {earlier : String} {other : Cell}, before.cells[earlier]? = some other →
      p other = true → earlier < name → obstacle? other = none)
    (replaced : Replaced (fun other => p other && decide (other.name < name)) suffix wiring becomes
      before after) :
    EndsAtObstacle p suffix wiring becomes obstacle? before (.error e) after where
  fails_iff := by
    refine ⟨fun _ => ⟨name, cell, there, selected, ?_⟩, fun _ => ⟨e, rfl⟩⟩
    rw [obstacle]
    exact Option.some_ne_none e
  failed reason isError := by
    cases isError
    exact ⟨name, cell, there, selected, obstacle, fun _ _ => clear, replaced⟩
  done count isOk := by cases isOk

end EndsAtObstacle

namespace Replacement

open Netlist

variable {r : Replacement} {c : Conversion} {suffix : String}
  {refusal? : Cell → Option NetlistError}

/-- A replacement fails with the obstacle of the cell. -/
theorem Refuses.obstacle_of_replaceOne (refuses : r.Refuses refusal?) (lawful : r.Lawful suffix)
    {name : String} {w after : Workspace} {source : Cell} {e : NetlistError}
    (there : w.netlist.cells[name]? = some source) (sourceKey : source.name = name)
    (known : ∀ {port net : String}, source.portNet? port = some net → net ∈ w.netlist.nets)
    (failed : (r.replaceOne name).run w = (.error e, after)) :
    w.netlist.obstacle? suffix refusal? source = some e := by
  obtain ⟨target, made⟩ := refuses.makes source
  unfold obstacle?
  rw [sourceKey]
  rcases lawful.taken_or_stopped_of_error there sourceKey made failed with
    ⟨taken, clash, -⟩ | ⟨fresh, bench, stopped, -⟩
  · rw [if_pos taken, clash]
  · rw [if_neg fresh]
    cases refusal : refusal? source with
    | none =>
      obtain ⟨_, run⟩ := refuses.moves made known refusal
      rw [run] at stopped
      cases stopped
    | some reason =>
      obtain ⟨_, run, -⟩ := refuses.refused w.netlist.nets made refusal
      rw [run] at stopped
      cases stopped
      rfl

/-- Cells that have been replaced had no obstacle. -/
theorem Frame.clear {names : List String} {cells : List Cell} {before stop after : Netlist}
    (frame : Frame r suffix before names cells stop) (converted : Converted c names before after)
    (named : Named before) (fits : ∀ source, c.fits source → refusal? source = none) {name : String}
    {source : Cell} (member : name ∈ names) (there : before.cells[name]? = some source) :
    before.obstacle? suffix refusal? source = none := by
  have fresh : source.name ++ suffix ∉ before.cells := by
    have isNew : name ++ suffix ∈ cells.map (·.name) := by
      rw [frame.new_names]
      exact List.mem_map_of_mem member
    obtain ⟨cell, isCell, newName⟩ := List.mem_map.mp isNew
    rw [named.cell there, ← newName]
    exact frame.fresh cell isCell
  rw [obstacle?, if_neg fresh]
  exact fits source (converted.fits member there)

/-- A pass ends at the first obstacle, or replaces all its cells. -/
theorem Performs.endsAtObstacle (performs : r.Performs c) (lawful : r.Lawful suffix)
    (refuses : r.Refuses refusal?) (fits : ∀ source, c.fits source → refusal? source = none)
    (renamed : ∀ source, (c.blank source).name = source.name ++ suffix)
    {becomes : Cell → Cell → Prop}
    (result : ∀ source, c.fits source → becomes source (c.result source))
    {before : Netlist} (consistent : Consistent before) (p : Cell → Bool) (log : Log) :
    EndsAtObstacle p suffix c.wiring becomes (before.obstacle? suffix refusal?) before
      ((r.replaceCells (before.namesOf p)).run ⟨before, log⟩).1
      ((r.replaceCells (before.namesOf p)).run ⟨before, log⟩).2.netlist := by
  have named := consistent.toNamed
  have distinct := nodup_namesOf named p
  have present : ∀ name ∈ before.namesOf p, name ∈ before.cells := by
    intro name member
    obtain ⟨cell, there, -⟩ := (mem_namesOf_iff named p name).mp member
    exact (NameMap.mem_iff_lookup ..).mpr ⟨cell, there⟩
  obtain ⟨cells, stop, progress, ends⟩ :=
    lawful.run_replaceCells (w := ⟨before, log⟩) distinct named
  have frame := lawful.frame_of_progress named progress
  have distinctDone := distinct.sublist (List.take_sublist cells.length _)
  have converted := performs.converted_of_commit lawful progress distinctDone
    (fun name member => present name (List.mem_of_mem_take member)) consistent
  have clear : ∀ {name : String} {source : Cell}, name ∈ (before.namesOf p).take cells.length →
      before.cells[name]? = some source → before.obstacle? suffix refusal? source = none :=
    fun member there => frame.clear converted named fits member there
  rcases ends with ⟨all, run⟩ | ⟨name, e, after, there, failed, run⟩
  · rw [all, List.take_length] at converted clear
    rw [run]
    refine .of_done (fun there selected => ?_)
      (converted.replaced named renamed fun source _ => result source)
    exact clear ((mem_namesOf_iff named p _).mpr ⟨_, there, selected⟩) there
  · have inFront := (take_eq_filter (pairwise_namesOf named p) there).trans
      (namesOf_before before p name)
    obtain ⟨source, sourceThere, selected⟩ :=
      (mem_namesOf_iff named p name).mp (List.mem_of_getElem? there)
    rw [inFront] at progress frame distinctDone converted clear
    have waiting : name ∉ before.namesOf fun cell => p cell && decide (cell.name < name) := by
      rw [mem_namesOf_iff named]
      rintro ⟨cell, cellThere, holds⟩
      rw [named.cell cellThere] at holds
      exact String.lt_irrefl name (of_decide_eq_true (Bool.and_eq_true_iff.mp holds).2)
    have sourceLeft := (frame.others name waiting).trans sourceThere
    have known : ∀ {port net : String}, source.portNet? port = some net →
        net ∈ stop.netlist.nets :=
      lawful.known_of_progress progress distinctDone consistent sourceLeft
    have obstacle : before.obstacle? suffix refusal? source = some e := by
      rw [← obstacle?_congr frame.keys]
      exact refuses.obstacle_of_replaceOne lawful sourceLeft (named.cell sourceThere) known failed
    have left : after.netlist = stop.netlist :=
      Atomic.unchanged_of_error refuses.atomic sourceLeft known failed
    rw [run]
    dsimp only
    rw [left, inFront]
    refine .of_failed sourceThere selected obstacle (fun otherThere otherSelected less => ?_)
      (converted.replaced named renamed fun source _ => result source)
    refine clear ((mem_namesOf_iff named _ _).mpr ⟨_, otherThere, ?_⟩) otherThere
    simp [otherSelected, named.cell otherThere, less]

end Replacement

namespace Packing

/-- On a consistent netlist, each pass that replaces cells fails exactly if one of its cells has an
obstacle: a new name that is taken or, for a lookup table, more inputs than the block has. It fails
with the first obstacle, and the cells in front of it, and no others, are replaced. -/
theorem passes_end_at_obstacles {k : UInt32} (positive : 1 ≤ k) {w : Workspace}
    (checked : w.netlist.check = .ok ()) :
    EndsAtObstacle Cell.isLut "_LUT4" (fun table => tableWiring table.tableWidth) (TableBlock k)
        (w.netlist.obstacle? "_LUT4" (Replacement.tooWide? k)) w.netlist
        ((luts k).run w).1 ((luts k).run w).2.netlist ∧
      EndsAtObstacle Cell.isFlipFlop "_DFF" (fun _ => flipFlopWiring) (FlipFlopBlock k)
        (w.netlist.obstacle? "_DFF" fun _ => none) w.netlist
        ((flipFlops k).run w).1 ((flipFlops k).run w).2.netlist ∧
      EndsAtObstacle w.netlist.isDataBuffer "_DFF" bufferWiring VirtualBuffer
        (w.netlist.obstacle? "_DFF" fun _ => none) w.netlist
        (virtualIo.run w).1 (virtualIo.run w).2.netlist := by
  have consistent := (Netlist.check_eq_ok_iff _).mp checked
  have narrow : ∀ table, (Conversion.table k).fits table → Replacement.tooWide? k table = none :=
    fun _ fits => if_neg (Int.not_lt.mpr fits)
  refine ⟨?_, ?_, ?_⟩
  · rw [run_luts]
    exact (Replacement.lut_performs k).endsAtObstacle (Replacement.lut_lawful k)
      (Replacement.lut_refuses k) narrow (fun _ => rfl) (fun _ => Conversion.tableBlock_result)
      consistent _ _
  · rw [run_flipFlops]
    exact (Replacement.flipFlop_performs k).endsAtObstacle (Replacement.flipFlop_lawful k)
      (Replacement.flipFlop_refuses positive) (fun _ _ => rfl) (fun _ => rfl)
      (fun source _ => Conversion.flipFlopBlock_result positive source) consistent _ _
  · rw [run_virtualIo, Netlist.namesOf_dataBuffers consistent.toNamed]
    exact Replacement.buffer_performs.endsAtObstacle Replacement.buffer_lawful
      Replacement.buffer_refuses (fun _ _ => rfl) (fun _ => rfl)
      (fun source _ => Conversion.virtualBuffer_result source) consistent _ _

/-- Three tables in a row: the second has its new name taken, and is too wide like the third. -/
def clashingTables : Netlist where
  cells :=
    let input (net : String) : Port := { direction := .input, net := some net }
    let output (net : String) : Port := { direction := .output, net := some net }
    let wide : NameMap Property := .ofList [("K", Property.int 6)]
    let first : Cell :=
      { name := "a", cellType := "LUT4", ports := .ofList [("I0", input "n"), ("O", output "m")] }
    let second : Cell :=
      { name := "b", cellType := "LUT4", ports := .ofList [("I0", input "m")], params := wide }
    let third : Cell :=
      { name := "c", cellType := "LUT4", ports := .ofList [("O", output "n")], params := wide }
    let taken : Cell := { name := "b_LUT4", cellType := "PROBE" }
    .ofList [("a", first), ("b", second), ("b_LUT4", taken), ("c", third)]
  nets :=
    let m : Net := { name := "m", driver := some ⟨"a", "O"⟩, users := [⟨"b", "I0"⟩] }
    let n : Net := { name := "n", driver := some ⟨"c", "O"⟩, users := [⟨"a", "I0"⟩] }
    .ofList [("m", m), ("n", n)]
  settings := ∅
  nextName := 0

theorem clashingTables_end_at_obstacles :
    (1 : UInt32) ≤ 4 ∧ clashingTables.check = .ok () ∧
      ((luts 4).run ⟨clashingTables, .empty⟩).1 = .error (.duplicateCell "b_LUT4") ∧
      ((luts 4).run ⟨clashingTables, .empty⟩).2.netlist.cells["b"]? = clashingTables.cells["b"]? ∧
      ((luts 4).run ⟨clashingTables, .empty⟩).2.netlist.nets["m"]? = some
        { name := "m", driver := some ⟨"a_LUT4", "COMB1_O"⟩, users := [⟨"b", "I0"⟩] } := by
  have checked : clashingTables.check = .ok () := by decide +kernel
  have stopped : ((luts 4).run ⟨clashingTables, .empty⟩).1 = .error (.duplicateCell "b_LUT4") := by
    decide +kernel
  have only : ∀ key ∈ clashingTables.cells.keys, (clashingTables.cells[key]?.bind
      (clashingTables.obstacle? "_LUT4" (Replacement.tooWide? 4))) =
        some (.duplicateCell "b_LUT4") → key = "b" := by decide +kernel
  have second : clashingTables.cells["b"]? = some (clashingTables.cells["b"]?.getD default) := by
    decide +kernel
  obtain ⟨ends, -, -⟩ :=
    passes_end_at_obstacles (k := 4) (by decide) (w := ⟨clashingTables, .empty⟩) checked
  obtain ⟨name, cell, there, -, obstacle, -, replaced⟩ := ends.failed _ stopped
  obtain rfl := only name ((NameMap.mem_keys_iff ..).mpr ⟨cell, there⟩)
    ((congrArg (Option.bind · _) there).trans obstacle)
  refine ⟨by decide, checked, stopped, ?_, ?_⟩
  · exact (replaced.kept second (by decide +kernel)).trans second.symm
  · exact (replaced.nets "m").trans (by decide +kernel)

end Packing

end TileFabric
