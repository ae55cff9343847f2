import TileFabric.Packing.Passes
import TileFabric.Proofs.Packing.Replacement

/-!
# Passes keep netlists consistent

While cells are replaced, nets already refer to new cells that the netlist does not hold yet. The
invariant is therefore about the netlist together with the pending cells, and it is the commit,
also the one behind a failure, that makes it a statement about the netlist alone.
-/

set_option autoImplicit false

namespace TileFabric

namespace Replacement

open Netlist

variable {r : Replacement} {suffix : String}

theorem not_mem_pending {netlist : Netlist} {pending : List Cell} {name : String} {cell : Cell}
    (fresh : ∀ new ∈ pending, new.name ∉ netlist.cells)
    (there : netlist.cells[name]? = some cell) : name ∉ pending.map (·.name) := by
  intro member
  obtain ⟨new, isPending, rfl⟩ := List.mem_map.mp member
  exact fresh new isPending ((NameMap.mem_iff_lookup ..).mpr ⟨cell, there⟩)

/-- Replacing one cell keeps the netlist consistent together with the pending cells. -/
theorem Lawful.consistent_of_replaceOne (lawful : r.Lawful suffix) {name : String}
    {w after : Workspace} {cell : Cell} {pending : List Cell}
    (done : (r.replaceOne name).run w = (.ok cell, after)) (named : Named w.netlist)
    (fresh : ∀ new ∈ pending, new.name ∉ w.netlist.cells)
    (unused : name ++ suffix ∉ pending.map (·.name))
    (consistent : Consistent (w.netlist.withCells pending)) :
    Consistent (after.netlist.withCells (pending ++ [cell])) := by
  have frame := lawful.frame_of_replaceOne named done
  obtain ⟨source, target, bench, there, made, -, moved, rfl, left⟩ := replaceOne_ok done
  have rewired := lawful.rewires moved
  obtain ⟨⟨sourceName, -⟩, targetName, -⟩ := rewired.cells
  have sourceKey : source.name = name := named.cell there
  have targetKey : target.name = name ++ suffix := sourceKey ▸ lawful.renamed made
  have notPending := not_mem_pending fresh there
  have targetAbsent : (w.netlist.withCells pending).cells[target.name]? = none := by
    rw [lookup_withCells_of_not_mem (targetKey ▸ unused), ← NameMap.not_mem_iff_lookup,
      ← targetName]
    exact frame.fresh bench.target List.mem_cons_self
  have sourceThere : (w.netlist.withCells pending).cells[source.name]? = some source := by
    rw [sourceKey, lookup_withCells_of_not_mem notPending, there]
  -- Seen from its bench, the move is between two cells that stand in a netlist of all the others.
  have linked : Linked (bench.attached (w.netlist.withCells pending).portNet?) bench.nets := by
    apply rewired.linked
    · rw [targetKey, sourceKey]
      exact (lawful.name_ne name).symm
    · rw [Bench.attached_of_unattached _ sourceThere targetAbsent (lawful.unattached made)]
      exact consistent.linked
  have lookup : ∀ key : String, (after.netlist.withCells (pending ++ [bench.target])).cells[key]? =
      if bench.target.name = key then some bench.target
      else if bench.source.name = key then some bench.source
      else (w.netlist.withCells pending).cells[key]? := by
    intro key
    rw [withCells_append]
    refine (NameMap.lookup_insert ..).trans ?_
    congr 1
    by_cases same : bench.source.name = key
    · rw [if_pos same, ← same, sourceName, sourceKey, lookup_withCells_of_not_mem notPending, left]
      simp [putBack]
    · rw [if_neg same]
      apply lookup_withCells_congr
      apply frame.others
      intro member
      rw [sourceName, sourceKey] at same
      exact same (List.mem_singleton.mp member).symm
  have nets : (after.netlist.withCells (pending ++ [bench.target])).nets = bench.nets := by
    change after.netlist.nets = bench.nets
    rw [left]
    rfl
  refine ⟨frame.named.withCells _, ?_⟩
  rw [Bench.portNet?_eq_attached lookup, nets]
  exact linked

theorem Lawful.consistent_of_progress (lawful : r.Lawful suffix) {names : List String}
    {w after : Workspace} {cells : List Cell} (progress : Progress r w names cells after)
    (distinct : names.Nodup) (named : Named w.netlist) (pending : List Cell)
    (fresh : ∀ new ∈ pending, new.name ∉ w.netlist.cells)
    (unused : ∀ name ∈ names, name ++ suffix ∉ pending.map (·.name))
    (consistent : Consistent (w.netlist.withCells pending)) :
    Consistent (after.netlist.withCells (pending ++ cells)) := by
  induction progress generalizing pending with
  | nil => simpa using consistent
  | @cons w between after name names cell cells done _ ih =>
    have frame := lawful.frame_of_replaceOne named done
    have newName : cell.name = name ++ suffix := by simpa using frame.new_names
    obtain ⟨apart, distinct⟩ := List.nodup_cons.mp distinct
    have step := lawful.consistent_of_replaceOne done named fresh
      (unused name List.mem_cons_self) consistent
    have rest := ih distinct frame.named (pending ++ [cell]) ?_ ?_ step
    · simpa using rest
    · intro new member
      rw [frame.keys]
      rcases List.mem_append.mp member with early | late
      · exact fresh new early
      · exact frame.fresh new late
    · intro other member
      rw [List.map_append, List.mem_append, not_or]
      refine ⟨unused other (List.mem_cons_of_mem _ member), ?_⟩
      rw [List.map_singleton, List.mem_singleton, newName, String.append_left_inj]
      rintro rfl
      exact apart member

/-- Committing the cells of a progress keeps a netlist consistent. -/
theorem Lawful.consistent_of_commit (lawful : r.Lawful suffix) {names : List String}
    {w stop : Workspace} {cells : List Cell} (progress : Progress r w names cells stop)
    (distinct : names.Nodup) (present : ∀ name ∈ names, name ∈ w.netlist.cells)
    (consistent : Consistent w.netlist) :
    Consistent ((stop.netlist.withoutCells names).withCells cells) := by
  have frame := lawful.frame_of_progress consistent.toNamed progress
  have together : Consistent (stop.netlist.withCells cells) :=
    lawful.consistent_of_progress progress distinct consistent.toNamed [] (by simp) (by simp)
      consistent
  rw [withoutCells_withCells]
  · exact together.withoutCells names
  · intro cell member old
    exact frame.fresh cell member (present cell.name old)

/-- The nets of a cell are there while other cells are pending. -/
private theorem known_of_pending {netlist : Netlist} {pending : List Cell} {name : String}
    {source : Cell} (fresh : ∀ new ∈ pending, new.name ∉ netlist.cells)
    (there : netlist.cells[name]? = some source)
    (consistent : Consistent (netlist.withCells pending)) {port net : String}
    (attached : source.portNet? port = some net) : net ∈ netlist.nets := by
  have notPending := not_mem_pending fresh there
  have stillThere : (netlist.withCells pending).cells[name]? = some source := by
    rw [lookup_withCells_of_not_mem notPending, there]
  have onPort : (netlist.withCells pending).portNet? ⟨name, port⟩ = some net :=
    (portNet?_of_cell stillThere).trans attached
  exact consistent.linked.present onPort

/-- The nets of every cell are there however far a pass has come. -/
theorem Lawful.known_of_progress (lawful : r.Lawful suffix) {names : List String}
    {w stop : Workspace} {cells : List Cell} (progress : Progress r w names cells stop)
    (distinct : names.Nodup) (consistent : Consistent w.netlist) {name : String} {source : Cell}
    (there : stop.netlist.cells[name]? = some source) {port net : String}
    (attached : source.portNet? port = some net) : net ∈ stop.netlist.nets := by
  have frame := lawful.frame_of_progress consistent.toNamed progress
  have together : Consistent (stop.netlist.withCells cells) :=
    lawful.consistent_of_progress progress distinct consistent.toNamed [] (by simp) (by simp)
      consistent
  have fresh : ∀ new ∈ cells, new.name ∉ stop.netlist.cells := by
    intro new member
    rw [frame.keys]
    exact frame.fresh new member
  exact known_of_pending fresh there together attached

/-- A pass that replaces cells keeps a netlist consistent, whether it goes well or fails. -/
theorem Lawful.consistent_of_replaceCells (lawful : r.Lawful suffix) (atomic : r.Atomic)
    {names : List String} (distinct : names.Nodup) {w : Workspace}
    (present : ∀ name ∈ names, name ∈ w.netlist.cells) (consistent : Consistent w.netlist) :
    Consistent ((r.replaceCells names).run w).2.netlist := by
  obtain ⟨cells, stop, progress, ends⟩ :=
    lawful.run_replaceCells distinct consistent.toNamed
  have frame := lawful.frame_of_progress consistent.toNamed progress
  have distinctDone := distinct.sublist (List.take_sublist cells.length names)
  have presentDone : ∀ name ∈ names.take cells.length, name ∈ w.netlist.cells :=
    fun name member => present name (List.mem_of_mem_take member)
  have committed := lawful.consistent_of_commit progress distinctDone presentDone consistent
  rcases ends with ⟨all, run⟩ | ⟨name, e, after, there, failed, run⟩
  · rw [run]
    rwa [all, List.take_length] at committed
  · obtain ⟨source, sourceThere⟩ := (NameMap.mem_iff_lookup ..).mp
      ((frame.keys name).mpr (present name (List.mem_of_getElem? there)))
    -- The cell that fails has moved nothing, so the commit is the same as without it.
    have left : after.netlist = stop.netlist := atomic.unchanged_of_error sourceThere
      (lawful.known_of_progress progress distinctDone consistent sourceThere) failed
    rw [run]
    dsimp only
    rw [left]
    exact committed

end Replacement

namespace LogicBlock

theorem free_new {name port : String} {k : UInt32} {attrs : NameMap Property}
    (isPort : port ∈ outputs ∨ port ∈ sharedInputs ∨ port ∈ lutInputs k) :
    ∃ p, (new name k attrs).ports[port]? = some p ∧ p.net = none := by
  rw [lookup_ports_new]
  by_cases output : port ∈ outputs
  · exact ⟨_, if_pos output, rfl⟩
  · exact ⟨_, (if_neg output).trans (if_pos (isPort.resolve_left output)), rfl⟩

/-- With at least one table input there is a port for every connection of a flip-flop. -/
theorem free_new_of_flipFlop {name : String} {k : UInt32} {attrs : NameMap Property}
    (positive : 1 ≤ k) {port : String}
    (member : port ∈ ["CLK", "CE", "RST", lutInput 1 0, syncOutput 1]) :
    ∃ p, (new name k attrs).ports[port]? = some p ∧ p.net = none := by
  have data : lutInput 1 0 ∈ lutInputs k :=
    lutInput_mem (by decide) (by have := UInt32.le_iff_toNat_le.mp positive; simpa)
  apply free_new
  simp only [List.mem_cons, List.not_mem_nil, or_false] at member
  rcases member with rfl | rfl | rfl | rfl | rfl
  · exact .inr (.inl (by decide))
  · exact .inr (.inl (by decide))
  · exact .inr (.inl (by decide))
  · exact .inr (.inr data)
  · exact .inl (by decide +kernel)

end LogicBlock

namespace Replacement

theorem lut_make (k : UInt32) (cell : Cell) : (lut k).make cell =
    .ok (LogicBlock.new (cell.name ++ "_LUT4") k cell.attrs) := by
  change (LogicBlock.make (cell.name ++ "_LUT4") k).map ({ · with attrs := cell.attrs }) = _
  rw [LogicBlock.make_eq]
  rfl

theorem flipFlop_make (k : UInt32) (cell : Cell) : (flipFlop k).make cell =
    .ok (LogicBlock.new (cell.name ++ "_DFF") k cell.attrs) := by
  change (LogicBlock.make (cell.name ++ "_DFF") k).map ({ · with attrs := cell.attrs }) = _
  rw [LogicBlock.make_eq]
  rfl

theorem buffer_make (cell : Cell) :
    buffer.make cell = .ok (FlipFlop.new (cell.name ++ "_DFF")) :=
  FlipFlop.make_eq _

theorem lut_lawful (k : UInt32) : (lut k).Lawful "_LUT4" where
  suffix_ne := by decide
  renamed made := by
    rw [lut_make, Except.ok.injEq] at made
    rw [← made]
    rfl
  unattached made port := by
    rw [lut_make, Except.ok.injEq] at made
    rw [← made]
    exact LogicBlock.portNet?_new ..
  rewires := Bench.rewired_of_lutToBlock

theorem flipFlop_lawful (k : UInt32) : (flipFlop k).Lawful "_DFF" where
  suffix_ne := by decide
  renamed made := by
    rw [flipFlop_make, Except.ok.injEq] at made
    rw [← made]
    rfl
  unattached made port := by
    rw [flipFlop_make, Except.ok.injEq] at made
    rw [← made]
    exact LogicBlock.portNet?_new ..
  rewires := Bench.rewired_of_flipFlopToBlock

theorem buffer_lawful : buffer.Lawful "_DFF" where
  suffix_ne := by decide
  renamed made := by
    rw [buffer_make, Except.ok.injEq] at made
    rw [← made]
    rfl
  unattached made port := by
    rw [buffer_make, Except.ok.injEq] at made
    rw [← made]
    exact FlipFlop.portNet?_new ..
  rewires := Bench.rewired_of_bufferToFlipFlop

/-- Why a lookup table does not go into a block of some width. -/
def tooWide? (k : UInt32) (table : Cell) : Option NetlistError :=
  if (k.toNat : Int) < table.intParam "K" 4 then
    some (.lutTooWide table.name (Bench.shownWidth (table.intParam "K" 4)) k.toNat)
  else none

theorem lut_refuses (k : UInt32) : (lut k).Refuses (tooWide? k) := by
  have width : ∀ {source target}, (lut k).make source = .ok target →
      target.intParam "K" 4 = k.toNat := by
    intro source target made
    rw [lut_make, Except.ok.injEq] at made
    rw [← made]
    exact LogicBlock.intParam_new ..
  constructor
  case makes => exact fun source => ⟨_, lut_make k source⟩
  case refused =>
    intro nets source target e made refused
    unfold tooWide? at refused
    split at refused
    · rename_i wide
      cases refused
      have shown : Bench.shownWidth (k.toNat : Int) = k.toNat := by
        have bound : k.toNat < UInt32.size := k.toNat_lt
        rw [Bench.shownWidth, if_pos (by omega)]
        rfl
      have wider : target.intParam "K" 4 < source.intParam "K" 4 := by rwa [width made]
      have run : (lut k).move.run ⟨nets, source, target⟩ = _ := Bench.lutToBlock_refused wider
      rw [width made, shown] at run
      exact ⟨_, run, rfl, rfl⟩
    · cases refused
  case moves =>
    intro source target nets made known fits
    have narrow : source.intParam "K" 4 ≤ target.intParam "K" 4 := by
      rw [width made]
      simpa [tooWide?] using fits
    refine Bench.lutToBlock_done (k := k) ⟨known, fun member => ?_⟩ (width made) narrow
    rw [lut_make, Except.ok.injEq] at made
    rw [← made]
    exact LogicBlock.free_new ((List.mem_append.mp member).elim (fun h => .inr (.inr h)) .inl)

theorem lut_atomic (k : UInt32) : (lut k).Atomic := (lut_refuses k).atomic

theorem flipFlop_refuses {k : UInt32} (positive : 1 ≤ k) :
    (flipFlop k).Refuses fun _ => none where
  makes source := ⟨_, flipFlop_make k source⟩
  refused _ _ _ _ _ refused := by cases refused
  moves made known _ := by
    rw [flipFlop_make, Except.ok.injEq] at made
    rw [← made]
    exact Bench.flipFlopToBlock_done ⟨known, LogicBlock.free_new_of_flipFlop positive⟩

theorem flipFlop_atomic {k : UInt32} (positive : 1 ≤ k) : (flipFlop k).Atomic :=
  (flipFlop_refuses positive).atomic

theorem buffer_refuses : buffer.Refuses fun _ => none where
  makes source := ⟨_, buffer_make source⟩
  refused _ _ _ _ _ refused := by cases refused
  moves made known _ := by
    rw [buffer_make, Except.ok.injEq] at made
    rw [← made]
    refine Bench.bufferToFlipFlop_done ⟨known, fun {port} member => ?_⟩
    unfold Bench.Free
    rw [FlipFlop.lookup_ports_new]
    simp only [List.mem_cons, List.not_mem_nil, or_false] at member
    rcases member with rfl | rfl
    · exact ⟨_, rfl, rfl⟩
    · exact ⟨_, rfl, rfl⟩

theorem buffer_atomic : buffer.Atomic := buffer_refuses.atomic

end Replacement

namespace Netlist

theorem mem_namesOf_iff {netlist : Netlist} (named : Named netlist) (p : Cell → Bool)
    (name : String) : name ∈ netlist.namesOf p ↔
      ∃ cell, netlist.cells[name]? = some cell ∧ p cell = true := by
  simp only [namesOf, List.mem_map, List.mem_filter, NameMap.mem_values_iff]
  constructor
  · rintro ⟨cell, ⟨⟨key, there⟩, holds⟩, rfl⟩
    exact ⟨cell, by rw [named.cell there]; exact there, holds⟩
  · rintro ⟨cell, there, holds⟩
    exact ⟨cell, ⟨⟨name, there⟩, holds⟩, named.cell there⟩

/-- Cells are selected in the order of their names. -/
theorem pairwise_namesOf {netlist : Netlist} (named : Named netlist) (p : Cell → Bool) :
    (netlist.namesOf p).Pairwise (· < ·) := by
  have ordered : netlist.cells.values.Pairwise fun first second => first.name < second.name := by
    rw [NameMap.values_eq, List.pairwise_map]
    refine Std.ExtTreeMap.ordered_keys_toList.imp_of_mem ?_
    rintro ⟨key, cell⟩ ⟨other, otherCell⟩ member otherMember less
    rw [Std.ExtTreeMap.mem_toList_iff_getElem?_eq_some] at member otherMember
    dsimp only
    rw [named.cell member, named.cell otherMember]
    exact compareOfLessAndEq_eq_lt.mp less
  unfold namesOf
  rw [List.pairwise_map]
  exact ordered.filter p

theorem nodup_namesOf {netlist : Netlist} (named : Named netlist) (p : Cell → Bool) :
    (netlist.namesOf p).Nodup := by
  apply (pairwise_namesOf named p).imp
  rintro name _ less rfl
  exact String.lt_irrefl name less

end Netlist

namespace Packing

theorem run_luts (k : UInt32) (w : Workspace) : (luts k).run w =
    ((Replacement.lut k).replaceCells (w.netlist.namesOf Cell.isLut)).run
      { w with log := w.log.add (.note .info 2 "Packing LUTs..") } := rfl

theorem run_flipFlops (k : UInt32) (w : Workspace) : (flipFlops k).run w =
    ((Replacement.flipFlop k).replaceCells (w.netlist.namesOf Cell.isFlipFlop)).run
      { w with log := w.log.add (.note .info 2 "Packing non-LUT FFs..") } := rfl

theorem run_virtualIo (w : Workspace) : virtualIo.run w =
    (Replacement.buffer.replaceCells (w.netlist.namesOf fun cell =>
      cell.isIoBuffer && !w.netlist.clockBuffers.contains cell.name)).run
      { w with log := w.log.add (.note .info 2 "Packing IOs..") } := rfl

/-- Each pass that replaces cells keeps a netlist that passes its check one that does, whether
the pass goes well or fails. -/
theorem check_after_pass {k : UInt32} (positive : 1 ≤ k) {w : Workspace}
    (checked : w.netlist.check = .ok ()) :
    ((luts k).run w).2.netlist.check = .ok () ∧ ((flipFlops k).run w).2.netlist.check = .ok () ∧
      (virtualIo.run w).2.netlist.check = .ok () := by
  have consistent := (Netlist.check_eq_ok_iff _).mp checked
  have named := consistent.toNamed
  have present : ∀ (p : Cell → Bool), ∀ name ∈ w.netlist.namesOf p, name ∈ w.netlist.cells := by
    intro p name member
    obtain ⟨cell, there, -⟩ := (Netlist.mem_namesOf_iff named p name).mp member
    exact (NameMap.mem_iff_lookup ..).mpr ⟨cell, there⟩
  simp only [Netlist.check_eq_ok_iff]
  refine ⟨?_, ?_, ?_⟩
  · rw [run_luts]
    exact (Replacement.lut_lawful k).consistent_of_replaceCells (Replacement.lut_atomic k)
      (Netlist.nodup_namesOf named _) (present _) consistent
  · rw [run_flipFlops]
    exact (Replacement.flipFlop_lawful k).consistent_of_replaceCells
      (Replacement.flipFlop_atomic positive) (Netlist.nodup_namesOf named _) (present _) consistent
  · rw [run_virtualIo]
    exact Replacement.buffer_lawful.consistent_of_replaceCells Replacement.buffer_atomic
      (Netlist.nodup_namesOf named _) (present _) consistent

/-- Two tables on one net: the first fits into a block of width 4, the second does not. -/
def narrowAndWideTable : Netlist where
  cells :=
    let input : Port := { direction := .input, net := some "n" }
    let output : Port := { direction := .output, net := some "n" }
    let narrow : Cell := { name := "a", cellType := "LUT4", ports := .ofList [("I0", input)] }
    let wide : Cell :=
      { name := "b", cellType := "LUT4", ports := .ofList [("O", output)],
        params := .ofList [("K", Property.int 6)] }
    .ofList [("a", narrow), ("b", wide)]
  nets :=
    let net : Net := { name := "n", driver := some ⟨"b", "O"⟩, users := [⟨"a", "I0"⟩] }
    .ofList [("n", net)]
  settings := ∅
  nextName := 0

theorem narrowAndWideTable_check_after_pass :
    ((luts 4).run ⟨narrowAndWideTable, .empty⟩).1 = .error (.lutTooWide "b" 6 4) ∧
      ((luts 4).run ⟨narrowAndWideTable, .empty⟩).2.netlist.check = .ok () ∧
      ((flipFlops 4).run ⟨narrowAndWideTable, .empty⟩).2.netlist.check = .ok () ∧
      (virtualIo.run ⟨narrowAndWideTable, .empty⟩).2.netlist.check = .ok () := by
  have failed : ((luts 4).run ⟨narrowAndWideTable, .empty⟩).1 = .error (.lutTooWide "b" 6 4) := by
    decide +kernel
  have checked : narrowAndWideTable.check = .ok () := by decide +kernel
  exact ⟨failed, check_after_pass (k := 4) (by decide) (w := ⟨narrowAndWideTable, .empty⟩) checked⟩

end Packing

end TileFabric
