import TileFabric.Proofs.Packing.Conversion

/-!
# Lookup tables become blocks

Packing lookup tables is the conversion whose wiring takes the inputs of a table, as far as its
width goes, and its output to slot 1 of a block. Every reference of a net follows the wiring or,
where it is to another port of a table, is dropped; the order of the references stays.
-/

set_option autoImplicit false

namespace TileFabric

/-- The inputs that a lookup table uses. -/
def Cell.tableWidth (table : Cell) : Nat := (table.intParam "K" 4).toNat

def tableInput (i : Nat) : String := s!"I{i}"

/-- The ports of a lookup table that move to a block, and where they move. -/
def tableWiring (width : Nat) : List (String × String) :=
  (List.range width).map (fun i => (tableInput i, LogicBlock.lutInput 1 i)) ++
    [("O", LogicBlock.combOutput 1)]

/-- What becomes of a reference when lookup tables become blocks. -/
def tableImage (netlist : Netlist) (ref : PortRef) : Option PortRef :=
  match netlist.cells[ref.cell]? with
  | some cell =>
    if cell.isLut then
      ((tableWiring cell.tableWidth).lookup ref.port).map (⟨ref.cell ++ "_LUT4", ·⟩)
    else some ref
  | none => some ref

/-- The block that a lookup table becomes. -/
structure TableBlock (k : UInt32) (table block : Cell) : Prop where
  name : block.name = table.name ++ "_LUT4"
  cellType : block.cellType = CellType.logicBlock
  attrs : block.attrs = table.attrs
  params : block.params =
    ((LogicBlock.newParams k).insert "LUT_INIT" (table.params["INIT"]?.getD (.int 0))).insert
      "FF_USED" (.int 0)
  ports : ∀ port : String, block.ports[port]?.map (·.direction) =
    if port ∈ LogicBlock.outputs then some .output
    else if port ∈ LogicBlock.sharedInputs ∨ port ∈ LogicBlock.lutInputs k then some .input
    else none
  inputs : ∀ i < table.tableWidth,
    block.portNet? (LogicBlock.lutInput 1 i) = table.portNet? (tableInput i)
  output : block.portNet? (LogicBlock.combOutput 1) = table.portNet? "O"
  others : ∀ port, port ≠ LogicBlock.combOutput 1 →
    (∀ i < table.tableWidth, port ≠ LogicBlock.lutInput 1 i) → block.portNet? port = none

theorem tableInput_inj {i j : Nat} (same : tableInput i = tableInput j) : i = j := by
  have lists := congrArg String.toList same
  have digits : Nat.toDigits 10 i = Nat.toDigits 10 j := by
    simpa [tableInput, toString] using lists
  exact toDigits_inj digits

theorem tableInput_ne_output (i : Nat) : tableInput i ≠ "O" := by
  intro same
  have lists := congrArg String.toList same
  simp [tableInput, toString] at lists

theorem tableWiring_targets (width : Nat) :
    (tableWiring width).map (·.2) = Bench.tablePorts width := by
  simp [tableWiring, Bench.tablePorts]

theorem nodup_tableWiring_sources (width : Nat) : ((tableWiring width).map (·.1)).Nodup := by
  have sources : (tableWiring width).map (·.1) = (List.range width).map tableInput ++ ["O"] := by
    simp [tableWiring]
  rw [sources, List.nodup_append]
  refine ⟨?_, by simp, ?_⟩
  · rw [List.Nodup, List.pairwise_map]
    exact List.nodup_range.imp fun apart same => apart (tableInput_inj same)
  · intro input inputMem output outputMem
    obtain ⟨i, -, rfl⟩ := List.mem_map.mp inputMem
    rw [List.mem_singleton.mp outputMem]
    exact tableInput_ne_output i

namespace Conversion

/-- The conversion of lookup tables. -/
def table (k : UInt32) : Conversion where
  blank table :=
    ((LogicBlock.new (table.name ++ "_LUT4") k table.attrs).setParam "LUT_INIT"
      (table.params["INIT"]?.getD (.int 0))).setParam "FF_USED" (.int 0)
  wiring table := tableWiring table.tableWidth
  fits table := table.intParam "K" 4 ≤ k.toNat

theorem ports_blank_table (k : UInt32) (cell : Cell) : ((table k).blank cell).ports =
    (LogicBlock.new (cell.name ++ "_LUT4") k cell.attrs).ports := rfl

/-- A table that fits becomes its block. -/
theorem tableBlock_result {k : UInt32} {cell : Cell} (fits : (table k).fits cell) :
    TableBlock k cell ((table k).result cell) := by
  have narrow : cell.tableWidth ≤ k.toNat := by
    change cell.intParam "K" 4 ≤ k.toNat at fits
    unfold Cell.tableWidth
    omega
  have targets : ((tableWiring cell.tableWidth).map (·.2)).Nodup := by
    rw [tableWiring_targets]
    exact Bench.nodup_tablePorts narrow
  have onNet : ∀ {sourcePort targetPort : String},
      (sourcePort, targetPort) ∈ tableWiring cell.tableWidth →
        ((table k).result cell).portNet? targetPort = cell.portNet? sourcePort := by
    intro sourcePort targetPort member
    refine portNet?_result_of_mem member (nodup_tableWiring_sources _) targets ?_
    have isTarget : targetPort ∈ Bench.tablePorts cell.tableWidth := by
      rw [← tableWiring_targets]
      exact List.mem_map_of_mem member
    rw [ports_blank_table]
    apply LogicBlock.free_new
    rcases List.mem_append.mp (Bench.tablePorts_subset narrow _ isTarget) with input | output
    · exact .inr (.inr input)
    · exact .inl output
  have same := (table k).result_eq cell
  constructor
  case name => exact congrArg Cell.name same
  case cellType => exact congrArg Cell.cellType same
  case attrs => exact (congrArg Cell.attrs same).trans rfl
  case params => exact congrArg Cell.params same
  case ports =>
    intro port
    rw [map_direction_result, ports_blank_table, LogicBlock.lookup_ports_new]
    split
    · rfl
    · split <;> rfl
  case inputs =>
    intro i bound
    apply onNet
    exact List.mem_append_left _ (List.mem_map.mpr ⟨i, List.mem_range.mpr bound, rfl⟩)
  case output => exact onNet (List.mem_append_right _ List.mem_cons_self)
  case others =>
    intro port notOutput notInput
    rw [portNet?_result_of_not_mem]
    · rw [Cell.portNet?, ports_blank_table]
      exact LogicBlock.portNet?_new ..
    · change port ∉ (tableWiring cell.tableWidth).map (·.2)
      rw [tableWiring_targets, Bench.tablePorts, List.mem_append, not_or]
      refine ⟨fun member => ?_, by simpa using notOutput⟩
      obtain ⟨i, inRange, rfl⟩ := List.mem_map.mp member
      exact notInput i (List.mem_range.mp inRange) rfl

theorem image_table {netlist : Netlist} (named : Netlist.Named netlist) (k : UInt32) :
    (table k).image netlist (netlist.namesOf Cell.isLut) = tableImage netlist := by
  funext ref
  rw [image_namesOf _ named, tableImage]
  cases there : netlist.cells[ref.cell]? with
  | none => rfl
  | some cell =>
    rw [← named.cell there]
    rfl

end Conversion

namespace Replacement

theorem lut_performs (k : UInt32) : (lut k).Performs (.table k) := by
  constructor
  intro source target nets after made done
  rw [lut_make, Except.ok.injEq] at made
  subst made
  have width := LogicBlock.intParam_new (source.name ++ "_LUT4") k source.attrs 4
  change (Bench.lutToBlock true).run _ = _ at done
  unfold Bench.lutToBlock at done
  simp only [run_get_bind, run_bind_of_ok (Bench.run_setTarget _ _ _), width] at done
  split at done
  · cases done
  · rename_i narrow
    refine ⟨by simpa [Conversion.table] using narrow, ?_⟩
    obtain ⟨_, between, inputs, rest⟩ := run_bind_ok done
    obtain rfl := Bench.carried_of_forM _ _ _ inputs
    simp only [if_true, run_bind_of_ok (Bench.run_setTarget _ _ _)] at rest
    obtain ⟨-, rfl⟩ := Bench.movable_of_movePort rest
    -- Parameters can be set before anything moves.
    rw [← Bench.carried_withParam]
    exact (Bench.carried_append _ [("O", LogicBlock.combOutput 1)] _).symm

end Replacement

namespace Packing

/-- On a consistent netlist, packing lookup tables that goes well replaces each of them by its block
and takes the references along in their order; nothing else changes. -/
theorem tables_become_blocks {k : UInt32} {w after : Workspace} {count : Nat}
    (checked : w.netlist.check = .ok ()) (done : (luts k).run w = (.ok count, after)) :
    count = w.netlist.cells.values.countP Cell.isLut ∧
      (∀ (name : String) (cell : Cell), w.netlist.cells[name]? = some cell → cell.isLut = false →
        after.netlist.cells[name]? = some cell) ∧
      (∀ (name : String) (table : Cell), w.netlist.cells[name]? = some table →
        table.isLut = true → after.netlist.cells[name]? = none ∧
          ∃ block, after.netlist.cells[name ++ "_LUT4"]? = some block ∧
            TableBlock k table block) ∧
      (∀ (name : String) (cell : Cell), after.netlist.cells[name]? = some cell →
        (w.netlist.cells[name]? = some cell ∧ cell.isLut = false) ∨
          ∃ (old : String) (table : Cell), w.netlist.cells[old]? = some table ∧
            table.isLut = true ∧ name = old ++ "_LUT4") ∧
      (∀ name : String, after.netlist.nets[name]? =
        w.netlist.nets[name]?.map (·.filterMapRefs (tableImage w.netlist))) ∧
      after.netlist.settings = w.netlist.settings ∧
      after.netlist.nextName = w.netlist.nextName := by
  have consistent := (Netlist.check_eq_ok_iff _).mp checked
  have named := consistent.toNamed
  rw [run_luts] at done
  obtain ⟨counted, converted⟩ := (Replacement.lut_performs k).converted_of_replaceCells
    (Replacement.lut_lawful k) consistent done
  obtain ⟨kept, new, only⟩ := converted.cells_of_namesOf named
  refine ⟨counted, fun _ _ => kept, ?_, ?_, ?_, converted.settings, converted.nextName⟩
  · intro name table there isLut
    obtain ⟨gone, fits, newThere⟩ := new there isLut
    have block := Conversion.tableBlock_result fits
    rw [block.name, named.cell there] at newThere
    exact ⟨gone, _, newThere, block⟩
  · intro name cell there
    rcases only there with old | ⟨old, table, tableThere, isLut, rfl, rfl⟩
    · exact .inl old
    · have block := Conversion.tableBlock_result (new tableThere isLut).2.1
      exact .inr ⟨old, table, tableThere, isLut, block.name.trans (by rw [named.cell tableThere])⟩
  · intro name
    rw [converted.nets, Conversion.image_table named]

/-- Two tables that feed each other, one of them narrower than its ports, and another cell. -/
def chainedTables : Netlist where
  cells :=
    let input (net : String) : Port := { direction := .input, net := some net }
    let output (net : String) : Port := { direction := .output, net := some net }
    let narrow : Cell :=
      { name := "a", cellType := "LUT4",
        ports := .ofList [("I0", input "n"), ("I1", input "n"), ("I2", input "n"), ("O", output "m")],
        params := .ofList [("K", Property.int 2), ("INIT", Property.int 9)] }
    let wide : Cell :=
      { name := "b", cellType := "LUT4", ports := .ofList [("I3", input "m"), ("O", output "n")] }
    let probe : Cell := { name := "c", cellType := "PROBE", ports := .ofList [("P", input "m")] }
    .ofList [("a", narrow), ("b", wide), ("c", probe)]
  nets :=
    let n : Net :=
      { name := "n", driver := some ⟨"b", "O"⟩, users := [⟨"a", "I1"⟩, ⟨"a", "I2"⟩, ⟨"a", "I0"⟩] }
    let m : Net := { name := "m", driver := some ⟨"a", "O"⟩, users := [⟨"c", "P"⟩, ⟨"b", "I3"⟩] }
    .ofList [("n", n), ("m", m)]
  settings := ∅
  nextName := 0

theorem chainedTables_become_blocks :
    chainedTables.check = .ok () ∧
      ∃ after, (luts 4).run ⟨chainedTables, .empty⟩ = (.ok 2, after) ∧
        after.netlist.nets["n"]? = some
          { name := "n"
            driver := some ⟨"b_LUT4", "COMB1_O"⟩
            users := [⟨"a_LUT4", "LUT1_I1"⟩, ⟨"a_LUT4", "LUT1_I0"⟩] } ∧
        ∃ block, after.netlist.cells["a_LUT4"]? = some block ∧
          block.portNet? "LUT1_I1" = some "n" ∧ block.portNet? "LUT1_I2" = none := by
  have checked : chainedTables.check = .ok () := by decide +kernel
  have count : ((luts 4).run ⟨chainedTables, .empty⟩).1 = .ok 2 := by decide +kernel
  obtain ⟨after, done⟩ : ∃ after, (luts 4).run ⟨chainedTables, .empty⟩ = (.ok 2, after) := by
    generalize (luts 4).run ⟨chainedTables, .empty⟩ = outcome at count
    exact ⟨outcome.2, Prod.ext count rfl⟩
  obtain ⟨-, -, new, -, nets, -⟩ := tables_become_blocks (w := ⟨chainedTables, .empty⟩) checked done
  have there : chainedTables.cells["a"]? = some (chainedTables.cells["a"]?.getD default) := by
    decide +kernel
  obtain ⟨-, block, blockThere, isBlock⟩ := new "a" _ there (by decide +kernel)
  have used : LogicBlock.lutInput 1 1 = "LUT1_I1" := by decide +kernel
  refine ⟨checked, after, done, ?_, block, blockThere, ?_, ?_⟩
  · exact (nets "n").trans (by decide +kernel)
  · rw [← used, isBlock.inputs 1 (by decide +kernel)]
    decide +kernel
  · exact isBlock.others _ (by decide +kernel) (by decide +kernel)

end Packing

end TileFabric
