import Mathlib.Data.List.Sort
import TileFabric.Proofs.Packing.ClockBuffers
import TileFabric.Proofs.Packing.FlipFlopBlocks
import TileFabric.Proofs.Packing.TableBlocks
import TileFabric.Proofs.Packing.VirtualIo

/-!
# Passes in either order

A pass leaves another one alone if it changes neither what the other selects nor makes what the
other would select. Two passes that leave each other alone commute: of each cell, and of each
reference to it, at most one of them decides what becomes of it. What the pass for IO selects
depends on the nets, and there it matters that the new names are fresh: a reference to a cell that
stays is then one that has not moved.
-/

set_option autoImplicit false

namespace TileFabric

theorem Net.filterMapRefs_filterMapRefs (first second : PortRef → Option PortRef) (net : Net) :
    (net.filterMapRefs first).filterMapRefs second =
      net.filterMapRefs fun ref => (first ref).bind second := by
  simp only [filterMapRefs, Option.bind_assoc, List.filterMap_filterMap]

namespace Conversion

/-- What one of the cells with a property is converted to, under its name. -/
def Makes (c : Conversion) (netlist : Netlist) (p : Cell → Bool) (key : String) (cell : Cell) :
    Prop :=
  ∃ (name : String) (source : Cell), netlist.cells[name]? = some source ∧ p source = true ∧
    cell = c.result source ∧ key = cell.name

/-- Converting the cells with property `p` leaves it alone which cells are selected: `q` selects
them before and `q'` afterwards. -/
structure LeavesAlone (c : Conversion) (netlist : Netlist) (p q q' : Cell → Bool) : Prop where
  exclusive : ∀ cell, p cell = true → q cell = false
  same : ∀ {key : String} {cell : Cell}, netlist.cells[key]? = some cell → p cell = false →
    q' cell = q cell
  new : ∀ source, q' (c.result source) = false

/-- The new names are none that the netlist has. -/
def Fresh (c : Conversion) (netlist : Netlist) (p : Cell → Bool) : Prop :=
  ∀ {key : String} {source : Cell}, netlist.cells[key]? = some source → p source = true →
    (c.result source).name ∉ netlist.cells

theorem cellType_result (c : Conversion) (source : Cell) :
    (c.result source).cellType = (c.blank source).cellType := by
  rw [c.result_eq]

end Conversion

theorem Netlist.drivesClock_iff (netlist : Netlist) (name : String) : netlist.DrivesClock name ↔
    ∃ (key : String) (net : Net), netlist.nets[key]? = some net ∧
      net.driver.map (·.cell) = some name ∧ ∃ user ∈ net.users, ∃ flipFlop,
        netlist.cells[user.cell]? = some flipFlop ∧ flipFlop.isFlipFlop = true ∧
          flipFlop.portNet? "CLK" = some net.name := by
  simp only [DrivesClock, NameMap.mem_values_iff, Option.mem_def]
  constructor
  · rintro ⟨net, ⟨key, there⟩, drives⟩
    exact ⟨key, net, there, drives⟩
  · rintro ⟨key, net, there, drives⟩
    exact ⟨net, ⟨key, there⟩, drives⟩

namespace Converted

variable {c d : Conversion} {p p' q q' : Cell → Bool} {before between after : Netlist}

theorem lookup_cells_iff (named : Netlist.Named before)
    (converted : Converted c (before.namesOf p) before after) {key : String} {cell : Cell} :
    after.cells[key]? = some cell ↔ (before.cells[key]? = some cell ∧ p cell = false) ∨
      c.Makes before p key cell := by
  obtain ⟨kept, new, only⟩ := converted.cells_of_namesOf named
  refine ⟨only, ?_⟩
  rintro (⟨there, other⟩ | ⟨name, source, there, selected, rfl, rfl⟩)
  · exact kept there other
  · exact (new there selected).2.2

section Behind

variable (named : Netlist.Named before) (first : Converted c (before.namesOf p) before between)
  (alone : c.LeavesAlone before p q q')

include named first alone

theorem selected_iff (key : String) (cell : Cell) :
    (between.cells[key]? = some cell ∧ q' cell = true) ↔
      (before.cells[key]? = some cell ∧ q cell = true) := by
  rw [first.lookup_cells_iff named]
  constructor
  · rintro ⟨⟨there, other⟩ | ⟨_, source, -, -, rfl, -⟩, selected⟩
    · exact ⟨there, (alone.same there other).symm.trans selected⟩
    · cases (alone.new source).symm.trans selected
  · rintro ⟨there, selected⟩
    have other : p cell = false := by
      rw [Bool.eq_false_iff]
      intro now
      cases (alone.exclusive cell now).symm.trans selected
    exact ⟨.inl ⟨there, other⟩, (alone.same there other).trans selected⟩

theorem namesOf_eq (namedBetween : Netlist.Named between) :
    between.namesOf q' = before.namesOf q := by
  apply List.Pairwise.eq_of_mem_iff (Netlist.pairwise_namesOf namedBetween q')
    (Netlist.pairwise_namesOf named q)
  intro name
  rw [Netlist.mem_namesOf_iff namedBetween, Netlist.mem_namesOf_iff named]
  exact exists_congr fun cell => first.selected_iff named alone name cell

variable (namedBetween : Netlist.Named between)
  (second : Converted d (between.namesOf q') between after)

include namedBetween second

/-- Of each cell that two conversions find, one of them at most decides what becomes of it. -/
theorem lookup_cells_behind_iff {key : String} {cell : Cell} : after.cells[key]? = some cell ↔
    (before.cells[key]? = some cell ∧ p cell = false ∧ q cell = false) ∨
      c.Makes before p key cell ∨ d.Makes before q key cell := by
  have later : d.Makes between q' key cell ↔ d.Makes before q key cell := by
    refine exists_congr fun name => exists_congr fun source => ?_
    rw [← and_assoc, first.selected_iff named alone, and_assoc]
  rw [second.lookup_cells_iff namedBetween, first.lookup_cells_iff named, later, ← or_assoc]
  refine or_congr_left ⟨?_, ?_⟩
  · rintro ⟨⟨there, other⟩ | new, unselected⟩
    · exact .inl ⟨there, other, (alone.same there other).symm.trans unselected⟩
    · exact .inr new
  · rintro (⟨there, other, unselected⟩ | new)
    · exact ⟨.inl ⟨there, other⟩, (alone.same there other).trans unselected⟩
    · refine ⟨.inr new, ?_⟩
      obtain ⟨_, source, -, -, rfl, -⟩ := new
      exact alone.new source

/-- Of each reference, only the conversion of the cell that it is to decides what becomes of it. -/
theorem nets_behind (name : String) : after.nets[name]? =
    before.nets[name]?.map (·.filterMapRefs fun ref =>
      if ref.cell ∈ before.namesOf p then c.image before (before.namesOf p) ref
      else d.image before (before.namesOf q) ref) := by
  rw [second.nets, first.nets, Option.map_map, first.namesOf_eq named alone namedBetween]
  congr 1
  funext net
  rw [Function.comp_apply, Net.filterMapRefs_filterMapRefs]
  congr 1
  funext ref
  by_cases now : ref.cell ∈ before.namesOf p
  · obtain ⟨source, there, selected⟩ := (Netlist.mem_namesOf_iff named p _).mp now
    rw [if_pos now, Conversion.image_of_mem now there]
    cases (c.wiring source).lookup ref.port with
    | none => rfl
    | some port =>
      -- The new cell stands where the reference now leads, and it is not selected.
      refine Conversion.image_of_not_mem fun listed => ?_
      rw [← first.namesOf_eq named alone namedBetween,
        Netlist.mem_namesOf_iff namedBetween] at listed
      obtain ⟨cell, cellThere, chosen⟩ := listed
      have newThere := first.new now there
      rw [c.name_result] at newThere
      cases newThere.symm.trans cellThere
      cases (alone.new source).symm.trans chosen
  · rw [if_neg now, Conversion.image_of_not_mem now, Option.bind_some]
    by_cases later : ref.cell ∈ before.namesOf q
    · obtain ⟨source, there, selected⟩ := (Netlist.mem_namesOf_iff named q _).mp later
      have stays := ((first.selected_iff named alone _ source).mpr ⟨there, selected⟩).1
      rw [Conversion.image_of_mem later there, Conversion.image_of_mem later stays]
    · rw [Conversion.image_of_not_mem later, Conversion.image_of_not_mem later]

end Behind

/-- Two conversions that leave each other alone come to the same in either order. -/
theorem either_order (named : Netlist.Named before) {betweenToo last : Netlist}
    (first : Converted c (before.namesOf p) before between)
    (second : Converted d (between.namesOf q') between after)
    (firstToo : Converted d (before.namesOf q) before betweenToo)
    (secondToo : Converted c (betweenToo.namesOf p') betweenToo last)
    (alone : c.LeavesAlone before p q q') (aloneToo : d.LeavesAlone before q p p')
    (namedBetween : Netlist.Named between) (namedToo : Netlist.Named betweenToo) :
    after = last := by
  apply Netlist.eq_of_lookups
  · intro key
    ext cell
    rw [first.lookup_cells_behind_iff named alone namedBetween second,
      firstToo.lookup_cells_behind_iff named aloneToo namedToo secondToo]
    exact or_congr (and_congr_right fun _ => and_comm) or_comm
  · intro name
    rw [first.nets_behind named alone namedBetween second,
      firstToo.nets_behind named aloneToo namedToo secondToo]
    congr 2
    funext net
    congr 1
    funext ref
    by_cases isP : ref.cell ∈ before.namesOf p
    · have notQ : ref.cell ∉ before.namesOf q := by
        obtain ⟨source, there, selected⟩ := (Netlist.mem_namesOf_iff named p _).mp isP
        exact Netlist.not_mem_namesOf named there (alone.exclusive source selected)
      rw [if_pos isP, if_neg notQ]
    · rw [if_neg isP]
      split
      · rfl
      · rename_i notQ
        rw [Conversion.image_of_not_mem isP, Conversion.image_of_not_mem notQ]
  · rw [second.settings, first.settings, secondToo.settings, firstToo.settings]
  · rw [second.nextName, first.nextName, secondToo.nextName, firstToo.nextName]

section Staying

variable (named : Netlist.Named before) (fresh : c.Fresh before p)

include named fresh

/-- A reference leads to a cell that stays only if it has not moved. -/
theorem image_eq_some_iff {ref : PortRef} {cell : Cell}
    (there : before.cells[ref.cell]? = some cell) (stays : p cell = false) (old : PortRef) :
    c.image before (before.namesOf p) old = some ref ↔ old = ref := by
  constructor
  · intro leads
    by_cases listed : old.cell ∈ before.namesOf p
    · obtain ⟨source, sourceThere, selected⟩ := (Netlist.mem_namesOf_iff named p _).mp listed
      rw [Conversion.image_of_mem listed sourceThere, Option.map_eq_some_iff] at leads
      obtain ⟨_, -, rfl⟩ := leads
      have absent := fresh sourceThere selected
      rw [c.name_result] at absent
      exact absurd ((NameMap.mem_iff_lookup ..).mpr ⟨cell, there⟩) absent
    · rw [Conversion.image_of_not_mem listed, Option.some.injEq] at leads
      exact leads
  · rintro rfl
    exact Conversion.image_of_not_mem (Netlist.not_mem_namesOf named there stays)

/-- A cell that stays drives the nets that it drove. -/
theorem driver_filterMapRefs_iff {name : String} {cell : Cell}
    (there : before.cells[name]? = some cell) (stays : p cell = false) (net : Net) :
    (net.filterMapRefs (c.image before (before.namesOf p))).driver.map (·.cell) = some name ↔
      net.driver.map (·.cell) = some name := by
  simp only [Net.filterMapRefs, Option.map_eq_some_iff, Option.bind_eq_some_iff]
  constructor
  · rintro ⟨ref, ⟨old, driven, leads⟩, rfl⟩
    rw [image_eq_some_iff named fresh there stays] at leads
    exact ⟨ref, leads ▸ driven, rfl⟩
  · rintro ⟨ref, driven, rfl⟩
    exact ⟨ref, ⟨ref, driven, (image_eq_some_iff named fresh there stays ref).mpr rfl⟩, rfl⟩

/-- A conversion of other cells than flip-flops, to other cells than flip-flops, does not change
which of the cells that stay drive a clock. -/
theorem drivesClock_iff (converted : Converted c (before.namesOf p) before after)
    (flipFlops : ∀ cell, cell.isFlipFlop = true → p cell = false)
    (new : ∀ source, (c.result source).isFlipFlop = false) {name : String} {cell : Cell}
    (there : before.cells[name]? = some cell) (stays : p cell = false) :
    after.DrivesClock name ↔ before.DrivesClock name := by
  have kept {key : String} {flipFlop : Cell} (isFlipFlop : flipFlop.isFlipFlop = true) :
      after.cells[key]? = some flipFlop ↔ before.cells[key]? = some flipFlop := by
    rw [converted.lookup_cells_iff named]
    constructor
    · rintro (⟨found, -⟩ | ⟨_, source, -, -, rfl, -⟩)
      · exact found
      · cases (new source).symm.trans isFlipFlop
    · exact fun found => .inl ⟨found, flipFlops flipFlop isFlipFlop⟩
  have users (net : Net) : (∃ user ∈ (net.filterMapRefs (c.image before (before.namesOf p))).users,
      ∃ flipFlop, after.cells[user.cell]? = some flipFlop ∧ flipFlop.isFlipFlop = true ∧
        flipFlop.portNet? "CLK" = some net.name) ↔
      ∃ user ∈ net.users, ∃ flipFlop, before.cells[user.cell]? = some flipFlop ∧
        flipFlop.isFlipFlop = true ∧ flipFlop.portNet? "CLK" = some net.name := by
    refine exists_congr fun user => ?_
    rw [← exists_and_left, ← exists_and_left]
    refine exists_congr fun flipFlop => ?_
    constructor
    · rintro ⟨listed, found, isFlipFlop, onClock⟩
      rw [kept isFlipFlop] at found
      obtain ⟨old, oldListed, leads⟩ := List.mem_filterMap.mp listed
      rw [image_eq_some_iff named fresh found (flipFlops _ isFlipFlop)] at leads
      exact ⟨leads ▸ oldListed, found, isFlipFlop, onClock⟩
    · rintro ⟨listed, found, isFlipFlop, onClock⟩
      have stands := (image_eq_some_iff named fresh found (flipFlops _ isFlipFlop) user).mpr rfl
      exact ⟨List.mem_filterMap.mpr ⟨user, listed, stands⟩, (kept isFlipFlop).mpr found, isFlipFlop,
        onClock⟩
  rw [Netlist.drivesClock_iff, Netlist.drivesClock_iff]
  refine exists_congr fun key => ?_
  rw [converted.nets]
  constructor
  · rintro ⟨_, found, driven, clocked⟩
    obtain ⟨net, netThere, rfl⟩ := Option.map_eq_some_iff.mp found
    exact ⟨net, netThere, (driver_filterMapRefs_iff named fresh there stays net).mp driven,
      (users net).mp clocked⟩
  · rintro ⟨net, found, driven, clocked⟩
    exact ⟨_, congrArg _ found, (driver_filterMapRefs_iff named fresh there stays net).mpr driven,
      (users net).mpr clocked⟩

end Staying

end Converted

namespace Cell

theorem isFlipFlop_of_isLut {cell : Cell} (isLut : cell.isLut = true) :
    cell.isFlipFlop = false := by
  unfold Cell.isLut at isLut
  unfold isFlipFlop
  rw [eq_of_beq isLut]
  rfl

theorem isIoBuffer_of_isLut {cell : Cell} (isLut : cell.isLut = true) :
    cell.isIoBuffer = false := by
  unfold Cell.isLut at isLut
  unfold isIoBuffer
  rw [eq_of_beq isLut]
  rfl

/-- A logic block is neither a lookup table nor a flip-flop nor a buffer. -/
theorem unselected_of_logicBlock {cell : Cell} (isBlock : cell.cellType = CellType.logicBlock) :
    cell.isLut = false ∧ cell.isFlipFlop = false ∧ cell.isIoBuffer = false := by
  unfold isLut isFlipFlop isIoBuffer
  rw [isBlock]
  decide

end Cell

namespace Replacement

open Netlist

/-- What a pass over the cells with a property has done if it went well. -/
structure Passed (c : Conversion) (p : Cell → Bool) (before after : Netlist) (count : Nat) :
    Prop where
  consistent : Consistent after
  counted : count = (before.namesOf p).length
  converted : Converted c (before.namesOf p) before after
  fresh : c.Fresh before p

theorem Performs.passed {r : Replacement} {c : Conversion} {suffix : String}
    (performs : r.Performs c) (lawful : r.Lawful suffix) (atomic : r.Atomic)
    (renamed : ∀ source, (c.blank source).name = source.name ++ suffix) {p : Cell → Bool}
    {before : Netlist} {log : Log} {after : Workspace} {count : Nat}
    (consistent : Consistent before)
    (done : (r.replaceCells (before.namesOf p)).run ⟨before, log⟩ = (.ok count, after)) :
    Passed c p before after.netlist count := by
  have named := consistent.toNamed
  have distinct := nodup_namesOf named p
  have present : ∀ name ∈ before.namesOf p, name ∈ before.cells := by
    intro name member
    obtain ⟨cell, there, -⟩ := (mem_namesOf_iff named p name).mp member
    exact (NameMap.mem_iff_lookup ..).mpr ⟨cell, there⟩
  obtain ⟨counted, converted⟩ := performs.converted_of_replaceCells lawful consistent done
  constructor
  case consistent =>
    have kept := lawful.consistent_of_replaceCells atomic (w := ⟨before, log⟩) distinct present
      consistent
    rwa [done] at kept
  case counted =>
    rw [counted, namesOf, List.length_map, List.countP_eq_length_filter]
  case converted => exact converted
  case fresh =>
    intro key source there selected
    obtain ⟨cells, between, frame, -⟩ :=
      lawful.replaceCells_ok distinct (w := ⟨before, log⟩) named done
    have isNew : source.name ++ suffix ∈ cells.map (·.name) := by
      rw [frame.new_names, named.cell there]
      exact List.mem_map_of_mem ((mem_namesOf_iff named p key).mpr ⟨source, there, selected⟩)
    obtain ⟨cell, isCell, sameName⟩ := List.mem_map.mp isNew
    rw [c.name_result, renamed, ← sameName]
    exact frame.fresh cell isCell

end Replacement

namespace Packing

open Netlist Replacement

/-- A pass that converts the cells that it selects. -/
def Converts (pass : Packing Nat) (c : Conversion) (selects : Netlist → Cell → Bool) : Prop :=
  ∀ {w after : Workspace} {count : Nat}, Consistent w.netlist → pass.run w = (.ok count, after) →
    Passed c (selects w.netlist) w.netlist after.netlist count

theorem luts_convert (k : UInt32) : Converts (luts k) (.table k) fun _ => Cell.isLut := by
  intro w after count consistent done
  rw [run_luts] at done
  exact (lut_performs k).passed (lut_lawful k) (lut_atomic k) (fun _ => rfl) consistent done

theorem flipFlops_convert {k : UInt32} (positive : 1 ≤ k) :
    Converts (flipFlops k) (.flipFlop k) fun _ => Cell.isFlipFlop := by
  intro w after count consistent done
  rw [run_flipFlops] at done
  exact (flipFlop_performs k).passed (flipFlop_lawful k) (flipFlop_atomic positive) (fun _ => rfl)
    consistent done

theorem virtualIo_converts : Converts virtualIo .buffer isDataBuffer := by
  intro w after count consistent done
  rw [run_virtualIo, namesOf_dataBuffers consistent.toNamed] at done
  exact buffer_performs.passed buffer_lawful buffer_atomic (fun _ => rfl) consistent done

/-- Two passes come to the same netlist and the same counts in either order, if both orders go
well. -/
def Commute (first second : Packing Nat) (w : Workspace) : Prop :=
  ∀ {between after betweenToo last : Workspace} {m n m' n' : Nat},
    first.run w = (.ok m, between) → second.run between = (.ok n, after) →
    second.run w = (.ok n', betweenToo) → first.run betweenToo = (.ok m', last) →
      after.netlist = last.netlist ∧ m = m' ∧ n = n'

/-- Passes that leave each other alone commute. -/
theorem commute_of_leavesAlone {first second : Packing Nat} {c d : Conversion}
    {p q : Netlist → Cell → Bool} (converts : Converts first c p)
    (convertsToo : Converts second d q) {w : Workspace} (consistent : Consistent w.netlist)
    (alone : ∀ {after : Netlist} {count : Nat}, Passed c (p w.netlist) w.netlist after count →
      c.LeavesAlone w.netlist (p w.netlist) (q w.netlist) (q after))
    (aloneToo : ∀ {after : Netlist} {count : Nat}, Passed d (q w.netlist) w.netlist after count →
      d.LeavesAlone w.netlist (q w.netlist) (p w.netlist) (p after)) : Commute first second w := by
  intro between after betweenToo last m n m' n' ran ranBehind ranToo ranTooBehind
  have named := consistent.toNamed
  have one := converts consistent ran
  have two := convertsToo one.consistent ranBehind
  have oneToo := convertsToo consistent ranToo
  have twoToo := converts oneToo.consistent ranTooBehind
  have namedBetween := one.consistent.toNamed
  have namedToo := oneToo.consistent.toNamed
  refine ⟨?_, ?_, ?_⟩
  · exact one.converted.either_order named two.converted oneToo.converted twoToo.converted
      (alone one) (aloneToo oneToo) namedBetween namedToo
  · rw [one.counted, twoToo.counted,
      oneToo.converted.namesOf_eq named (aloneToo oneToo) namedToo]
  · rw [two.counted, oneToo.counted, one.converted.namesOf_eq named (alone one) namedBetween]

section Apart

variable (k : UInt32) (netlist : Netlist)

theorem table_leaves_flipFlops :
    (Conversion.table k).LeavesAlone netlist Cell.isLut Cell.isFlipFlop Cell.isFlipFlop where
  exclusive _ := Cell.isFlipFlop_of_isLut
  same _ _ := rfl
  new source := (Cell.unselected_of_logicBlock ((Conversion.table k).cellType_result source)).2.1

theorem flipFlop_leaves_luts :
    (Conversion.flipFlop k).LeavesAlone netlist Cell.isFlipFlop Cell.isLut Cell.isLut where
  exclusive cell isFlipFlop := by
    cases isLut : cell.isLut with
    | false => rfl
    | true => cases (Cell.isFlipFlop_of_isLut isLut).symm.trans isFlipFlop
  same _ _ := rfl
  new source := (Cell.unselected_of_logicBlock ((Conversion.flipFlop k).cellType_result source)).1

theorem buffer_leaves_luts :
    Conversion.buffer.LeavesAlone netlist netlist.isDataBuffer Cell.isLut Cell.isLut where
  exclusive cell isData := by
    cases isLut : cell.isLut with
    | false => rfl
    | true => simp [isDataBuffer, Cell.isIoBuffer_of_isLut isLut] at isData
  same _ _ := rfl
  new source := by
    unfold Cell.isLut
    rw [Conversion.cellType_result]
    rfl

variable {k netlist}

/-- Converting tables changes neither which buffers there are nor which of them drive a clock. -/
theorem table_leaves_buffers (named : Named netlist) {after : Netlist} {count : Nat}
    (passed : Passed (.table k) Cell.isLut netlist after count) :
    (Conversion.table k).LeavesAlone netlist Cell.isLut netlist.isDataBuffer
      after.isDataBuffer where
  exclusive cell isLut := by simp [isDataBuffer, Cell.isIoBuffer_of_isLut isLut]
  same {key cell} there stays := by
    have clock := passed.converted.drivesClock_iff named passed.fresh
      (fun cell isFlipFlop => (flipFlop_leaves_luts k netlist).exclusive cell isFlipFlop)
      (table_leaves_flipFlops k netlist).new there stays
    rw [← named.cell there] at clock
    simp only [isDataBuffer, clock]
  new source := by
    have block := Cell.unselected_of_logicBlock ((Conversion.table k).cellType_result source)
    simp [isDataBuffer, block.2.2]

end Apart

/-- On a consistent netlist, packing lookup tables commutes with packing flip-flops and with
packing IO. -/
theorem luts_commute {k : UInt32} (positive : 1 ≤ k) {w : Workspace}
    (checked : w.netlist.check = .ok ()) :
    Commute (luts k) (flipFlops k) w ∧ Commute (luts k) virtualIo w := by
  have consistent := (check_eq_ok_iff _).mp checked
  constructor
  · exact commute_of_leavesAlone (p := fun _ => Cell.isLut) (q := fun _ => Cell.isFlipFlop)
      (luts_convert k) (flipFlops_convert positive) consistent
      (fun _ => table_leaves_flipFlops k _) (fun _ => flipFlop_leaves_luts k _)
  · exact commute_of_leavesAlone (p := fun _ => Cell.isLut) (luts_convert k) virtualIo_converts
      consistent
      (table_leaves_buffers consistent.toNamed) (fun _ => buffer_leaves_luts _)

/-- A table between a buffer and a register with a buffer behind it, all on shared nets. -/
def tableAndRegister : Netlist where
  cells :=
    let input (net : String) : Port := { direction := .input, net := some net }
    let output (net : String) : Port := { direction := .output, net := some net }
    let clock : Cell :=
      { name := "clk", cellType := "$nextpnr_ibuf", ports := .ofList [("O", output "c")] }
    let data : Cell :=
      { name := "d", cellType := "$nextpnr_ibuf", ports := .ofList [("O", output "n")] }
    let table : Cell :=
      { name := "t", cellType := "LUT4", ports := .ofList [("I0", input "n"), ("O", output "m")] }
    let register : Cell :=
      { name := "ff", cellType := "DFFER",
        ports := .ofList [("CLK", input "c"), ("CE", input "m"), ("D", input "n")] }
    let result : Cell :=
      { name := "q", cellType := "$nextpnr_obuf", ports := .ofList [("I", input "m")] }
    .ofList [("clk", clock), ("d", data), ("t", table), ("ff", register), ("q", result)]
  nets :=
    let c : Net := { name := "c", driver := some ⟨"clk", "O"⟩, users := [⟨"ff", "CLK"⟩] }
    let n : Net := { name := "n", driver := some ⟨"d", "O"⟩, users := [⟨"t", "I0"⟩, ⟨"ff", "D"⟩] }
    let m : Net := { name := "m", driver := some ⟨"t", "O"⟩, users := [⟨"ff", "CE"⟩, ⟨"q", "I"⟩] }
    .ofList [("c", c), ("n", n), ("m", m)]
  settings := ∅
  nextName := 0

theorem run_eq_of_fst {pass : Packing Nat} {w : Workspace} {count : Nat}
    (isOk : (pass.run w).1 = .ok count) : pass.run w = (.ok count, (pass.run w).2) :=
  Prod.ext isOk rfl

theorem tableAndRegister_commute :
    (1 : UInt32) ≤ 4 ∧ tableAndRegister.check = .ok () ∧
      (∃ between after betweenToo last,
        (luts 4).run ⟨tableAndRegister, .empty⟩ = (.ok 1, between) ∧
        (flipFlops 4).run between = (.ok 1, after) ∧
        (flipFlops 4).run ⟨tableAndRegister, .empty⟩ = (.ok 1, betweenToo) ∧
        (luts 4).run betweenToo = (.ok 1, last) ∧ after.netlist = last.netlist) ∧
      ∃ between after betweenToo last,
        (luts 4).run ⟨tableAndRegister, .empty⟩ = (.ok 1, between) ∧
        virtualIo.run between = (.ok 2, after) ∧
        virtualIo.run ⟨tableAndRegister, .empty⟩ = (.ok 2, betweenToo) ∧
        (luts 4).run betweenToo = (.ok 1, last) ∧ after.netlist = last.netlist := by
  have checked : tableAndRegister.check = .ok () := by decide +kernel
  have commute := luts_commute (k := 4) (by decide) (w := ⟨tableAndRegister, .empty⟩) checked
  have table : ((luts 4).run ⟨tableAndRegister, .empty⟩).1 = .ok 1 := by decide +kernel
  refine ⟨by decide, checked, ?_, ?_⟩
  · have behind : ((flipFlops 4).run ((luts 4).run ⟨tableAndRegister, .empty⟩).2).1 = .ok 1 := by
      decide +kernel
    have register : ((flipFlops 4).run ⟨tableAndRegister, .empty⟩).1 = .ok 1 := by decide +kernel
    have tableBehind :
        ((luts 4).run ((flipFlops 4).run ⟨tableAndRegister, .empty⟩).2).1 = .ok 1 := by
      decide +kernel
    have same := commute.1 (run_eq_of_fst table) (run_eq_of_fst behind) (run_eq_of_fst register)
      (run_eq_of_fst tableBehind)
    exact ⟨_, _, _, _, run_eq_of_fst table, run_eq_of_fst behind, run_eq_of_fst register,
      run_eq_of_fst tableBehind, same.1⟩
  · have behind : (virtualIo.run ((luts 4).run ⟨tableAndRegister, .empty⟩).2).1 = .ok 2 := by
      decide +kernel
    have buffers : (virtualIo.run ⟨tableAndRegister, .empty⟩).1 = .ok 2 := by decide +kernel
    have tableBehind : ((luts 4).run (virtualIo.run ⟨tableAndRegister, .empty⟩).2).1 = .ok 1 := by
      decide +kernel
    have same := commute.2 (run_eq_of_fst table) (run_eq_of_fst behind) (run_eq_of_fst buffers)
      (run_eq_of_fst tableBehind)
    exact ⟨_, _, _, _, run_eq_of_fst table, run_eq_of_fst behind, run_eq_of_fst buffers,
      run_eq_of_fst tableBehind, same.1⟩

end Packing

end TileFabric
