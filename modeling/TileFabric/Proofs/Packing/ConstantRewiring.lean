import Mathlib.Data.List.Nodup
import TileFabric.Proofs.Packing.ConstantConsistency

/-!
# What replacing constants does to a netlist

Where every attached port is listed exactly once by its net, a constants pass that goes well takes
every user of a constant net to the net of its constant, listed there once, or leaves it
unconnected if it is a table input at ground. The ground and supply cells that drove nets go,
together with those nets, and everything else stays as it was.
-/

set_option autoImplicit false

namespace TileFabric

theorem occursIn_iff (word text : List Char) : occursIn word text = true ↔ word <:+: text := by
  induction text with
  | nil => simp [occursIn, List.infix_nil]
  | cons c rest ih =>
    rw [occursIn, Bool.or_eq_true, List.isPrefixOf_iff_prefix, ih, List.infix_cons_iff]

namespace Cell

/-- A port with the name of a table's data input: of one, or of one inside a logic block. -/
def IsTableInput (cell : Cell) (port : String) : Prop :=
  (cell.cellType = CellType.lut ∧ ['I'] <+: port.toList) ∨
    (cell.cellType = CellType.logicBlock ∧ ['L', 'U', 'T'] <+: port.toList ∧
      ['_', 'I'] <:+: port.toList)

theorem isLutInput_iff (cell : Cell) (port : String) :
    cell.isLutInput port = true ↔ cell.IsTableInput port := by
  have apart : CellType.logicBlock ≠ CellType.lut := by decide
  unfold isLutInput IsTableInput isLut isLogicBlock
  by_cases lut : cell.cellType = CellType.lut
  · simp only [lut, beq_self_eq_true, if_true, List.isPrefixOf_iff_prefix]
    simp [apart.symm]
  · by_cases block : cell.cellType = CellType.logicBlock
    · simp [block, apart, occursIn_iff]
    · simp [lut, block]

end Cell

namespace Netlist

/-- A cell that stays when constants are replaced. -/
def KeepsCell (netlist : Netlist) (key : String) : Prop :=
  key ∈ netlist.cells ∧ netlist.drivesConstant key = false

/-- A net that stays when constants are replaced. -/
def KeepsNet (netlist : Netlist) (name : String) : Prop :=
  name ∈ netlist.nets ∧ netlist.constantOf? name = none

/-- A port is on a net, which lists it exactly once. -/
structure OnceOn (netlist : Netlist) (name : String) (ref : PortRef) : Prop where
  attached : netlist.portNet? ref = some name
  listed : ∃ net, netlist.nets[name]? = some net ∧ net.references.count ref = 1

/-- Every attached port is listed exactly once by its net. -/
def EachOnce (netlist : Netlist) : Prop :=
  ∀ ref name, netlist.portNet? ref = some name → netlist.OnceOn name ref

instance (netlist : Netlist) : Decidable netlist.EachOnce :=
  decidable_of_iff
    (∀ entry ∈ netlist.cells.toList, ∀ port ∈ entry.2.ports.toList, ∀ name ∈ port.2.net,
      netlist.nets[name]?.map (·.references.count ⟨entry.1, port.1⟩) = some 1) <| by
    constructor
    · intro counts ref name attached
      obtain ⟨cell, there, onPort⟩ := cell_of_portNet? attached
      obtain ⟨p, portThere, onNet⟩ := Option.bind_eq_some_iff.mp onPort
      have count := counts (ref.cell, cell)
        (Std.ExtTreeMap.mem_toList_iff_getElem?_eq_some.mpr there) (ref.port, p)
        (Std.ExtTreeMap.mem_toList_iff_getElem?_eq_some.mpr portThere) name onNet
      exact ⟨attached, Option.map_eq_some_iff.mp count⟩
    · rintro once ⟨key, cell⟩ there ⟨port, p⟩ portThere name onNet
      rw [Std.ExtTreeMap.mem_toList_iff_getElem?_eq_some] at there portThere
      have attached : netlist.portNet? ⟨key, port⟩ = some name :=
        (portNet?_of_cell there).trans (Option.bind_eq_some_iff.mpr ⟨p, portThere, onNet⟩)
      exact Option.map_eq_some_iff.mpr (once _ name attached).listed

/-- A port is a user of a net that a cell drives to a constant. -/
def UserAt (netlist : Netlist) (c : Constant) (ref : PortRef) : Prop :=
  ∃ name, netlist.constantOf? name = some c ∧ ref ∈ netlist.usersOf name

/-- What is there, and where each port of a cell that stays is, when constants are replaced. -/
structure ConstantsRewired (k : UInt32) (before after : Netlist) : Prop where
  needsGround : .ground ∈ before.neededConstants ↔ ∃ name, before.constantOf? name = some .ground
  needsSupply : .supply ∈ before.neededConstants
  installed : ∀ c ∈ before.neededConstants, ¬ before.KeepsCell c.cell ∧ ¬ before.KeepsNet c.net ∧
    after.cells[c.cell]? = some (c.block k) ∧ ∃ users : List PortRef,
      (∀ ref ∈ users, before.UserAt c ref) ∧ after.nets[c.net]? = some (c.drivenNet users)
  cells : ∀ key : String, key ∈ after.cells ↔
    before.KeepsCell key ∨ ∃ c ∈ before.neededConstants, c.cell = key
  nets : ∀ name : String, name ∈ after.nets ↔
    before.KeepsNet name ∨ ∃ c ∈ before.neededConstants, c.net = name
  keptCells : ∀ key : String, before.KeepsCell key →
    after.cells[key]?.map Cell.freed = before.cells[key]?.map Cell.freed
  keptNets : ∀ name : String, before.KeepsNet name → after.nets[name]? =
    before.nets[name]?.map (·.keepRefs fun ref => !before.drivesConstant ref.cell)
  grounded : ∀ ref cell, before.KeepsCell ref.cell → before.cells[ref.cell]? = some cell →
    before.UserAt .ground ref →
      (cell.IsTableInput ref.port → after.portNet? ref = none) ∧
      (¬ cell.IsTableInput ref.port → after.OnceOn Constant.ground.net ref)
  supplied : ∀ ref, before.KeepsCell ref.cell → before.UserAt .supply ref →
    after.OnceOn Constant.supply.net ref
  others : ∀ ref name, before.KeepsCell ref.cell → before.portNet? ref = some name →
    (∀ c, ¬ before.UserAt c ref) → after.OnceOn name ref
  free : ∀ ref, before.KeepsCell ref.cell → before.portNet? ref = none →
    after.portNet? ref = none
  unsupplied : ∀ name, after.constantOf? name = none

/-- A port of a cell that stays drives no net at a constant. -/
theorem driver_ne_of_keepsCell {netlist : Netlist} {name : String} {net : Net} {c : Constant}
    {ref : PortRef} (there : netlist.nets[name]? = some net)
    (supplied : netlist.constantOf? name = some c) (keeps : netlist.KeepsCell ref.cell) :
    net.driver ≠ some ref := by
  intro driver
  have drives := (drivesConstant_iff netlist ref.cell).mpr
    ⟨name, net, ref, c, there, driver, rfl, supplied⟩
  cases drives.symm.trans keeps.2

section Users

variable {netlist : Netlist} (consistent : Consistent netlist)

include consistent

theorem userAt_of_mem_sweptUsers {c : Constant} {ref : PortRef}
    (member : ref ∈ Packing.sweptUsers netlist c) : netlist.UserAt c ref := by
  obtain ⟨name, supplied, user, -⟩ := (mem_sweptUsers_iff consistent).mp member
  exact ⟨name, supplied, user⟩

/-- Of the nets at a constant only one lists a port, so the constant gets it from there alone. -/
theorem count_sweptUsers {name : String} {c : Constant} {ref : PortRef}
    (supplied : netlist.constantOf? name = some c) (user : ref ∈ netlist.usersOf name)
    (connects : netlist.floats c.high ref = false) :
    (Packing.sweptUsers netlist c).count ref = (netlist.usersOf name).count ref := by
  have attached := consistent.portNet?_of_mem_usersOf user
  obtain ⟨earlier, later, split⟩ := List.append_of_mem
    (Std.ExtTreeMap.mem_keys.mpr (consistent.linked.present attached))
  have distinct : (earlier ++ name :: later).Nodup := split ▸ Std.ExtTreeMap.nodup_keys
  have apart := (List.nodup_cons.mp (List.nodup_middle.mp distinct)).1
  rw [List.mem_append, not_or] at apart
  -- A port is on the net that lists it, and that is one net.
  have elsewhere : ∀ names : List String, name ∉ names →
      (netlist.usersAt names c).count ref = 0 := by
    intro names absent
    refine List.count_eq_zero.mpr fun member => absent ?_
    obtain ⟨other, among, -, otherUser, -⟩ := (mem_usersAt_iff ..).mp member
    cases attached.symm.trans (consistent.portNet?_of_mem_usersOf otherUser)
    exact among
  have own : (netlist.usersAt [name] c).count ref = (netlist.usersOf name).count ref := by
    rw [usersAt_singleton, if_pos supplied, List.count_filter (by simp [connects])]
  rw [Packing.sweptUsers, split, List.append_cons, usersAt_append, usersAt_append,
    List.count_append, List.count_append, own, elsewhere earlier apart.1, elsewhere later apart.2]
  omega

omit consistent in
/-- A port of a cell that stays is listed once by its net, as a user if the net is at a constant. -/
theorem count_usersOf {name : String} {c : Constant} {ref : PortRef} (once : netlist.EachOnce)
    (keeps : netlist.KeepsCell ref.cell) (attached : netlist.portNet? ref = some name)
    (supplied : netlist.constantOf? name = some c) : (netlist.usersOf name).count ref = 1 := by
  obtain ⟨net, there, listed⟩ := (once ref name attached).listed
  have notDriver := driver_ne_of_keepsCell there supplied keeps
  rw [Net.references, List.count_append] at listed
  have noDriver : net.driver.toList.count ref = 0 := by
    refine List.count_eq_zero.mpr fun member => notDriver ?_
    simpa using member
  rw [usersOf_of_net there]
  omega

end Users

section Rewired

variable {netlist : Netlist} {installed : List Constant} {k : UInt32}
  (consistent : Consistent netlist) (installable : Installable netlist installed)

include consistent

/-- A sweep changes nothing of the cells that stay but the nets of their ports. -/
theorem map_freed_swept {key : String} (keeps : netlist.KeepsCell key) :
    (ConstantSweep.ofNetlist netlist).swept.cells[key]?.map Cell.freed =
      netlist.cells[key]?.map Cell.freed := by
  rw [ConstantSweep.lookup_cells_swept consistent, if_neg (by simp [keeps.2])]
  exact (ConstantSweep.sweepState_ofNetlist consistent).cells key

theorem mem_cells_swept_iff (key : String) :
    key ∈ (ConstantSweep.ofNetlist netlist).swept.cells ↔ netlist.KeepsCell key := by
  have same := congrArg Option.isSome ((ConstantSweep.sweepState_ofNetlist consistent).cells key)
  rw [Option.isSome_map, Option.isSome_map] at same
  rw [KeepsCell, Std.ExtTreeMap.mem_iff_isSome_getElem?, Std.ExtTreeMap.mem_iff_isSome_getElem?,
    ConstantSweep.lookup_cells_swept consistent]
  cases netlist.drivesConstant key <;> simp [same]

include installable

/-- A constant that is installed has the name of no cell that stays. -/
theorem cell_ne_of_keepsCell {key : String} (keeps : netlist.KeepsCell key) :
    ∀ c ∈ installed, c.cell ≠ key := by
  rintro c member rfl
  exact (installable.untaken c member).2 ((mem_cells_swept_iff consistent _).mpr keeps)

/-- A constant that is installed has the name of no net that stays. -/
theorem net_ne_of_keepsNet {name : String} (keeps : netlist.KeepsNet name) :
    ∀ c ∈ installed, c.net ≠ name := by
  rintro c member rfl
  obtain ⟨net, there⟩ := (NameMap.mem_iff_lookup ..).mp keeps.1
  refine (installable.untaken c member).1 ((NameMap.mem_iff_lookup ..).mpr ?_)
  simp [ConstantSweep.lookup_nets_swept consistent, keeps.2, there]

theorem lookup_nets_of_keepsNet {name : String} (keeps : netlist.KeepsNet name) :
    (sweptWith k netlist installed).nets[name]? =
      netlist.nets[name]?.map (·.keepRefs fun ref => !netlist.drivesConstant ref.cell) := by
  rw [sweptWith, lookup_nets_withConstants_of_not_mem _ _ _
    (net_ne_of_keepsNet consistent installable keeps), ConstantSweep.lookup_nets_swept consistent,
    keeps.2]
  rfl

theorem map_freed_sweptWith {key : String} (keeps : netlist.KeepsCell key) :
    (sweptWith k netlist installed).cells[key]?.map Cell.freed =
      netlist.cells[key]?.map Cell.freed := by
  rw [sweptWith, lookup_cells_withConstants_of_not_mem _ _ _
    (cell_ne_of_keepsCell consistent installable keeps), map_freed_swept consistent keeps]

theorem mem_cells_sweptWith_iff (key : String) : key ∈ (sweptWith k netlist installed).cells ↔
    netlist.KeepsCell key ∨ ∃ c ∈ installed, c.cell = key := by
  by_cases isNew : ∃ c ∈ installed, c.cell = key
  · obtain ⟨c, member, rfl⟩ := isNew
    have there := lookup_cells_withConstants k (Packing.sweptUsers netlist)
      (ConstantSweep.ofNetlist netlist).swept installable.apart member
    exact iff_of_true ((NameMap.mem_iff_lookup ..).mpr ⟨_, there⟩) (.inr ⟨c, member, rfl⟩)
  · have elsewhere : ∀ c ∈ installed, c.cell ≠ key := fun c member same => isNew ⟨c, member, same⟩
    rw [or_iff_left isNew, ← mem_cells_swept_iff consistent, NameMap.mem_iff_lookup, sweptWith,
      lookup_cells_withConstants_of_not_mem _ _ _ elsewhere, NameMap.mem_iff_lookup]

/-- Where a port of a cell that stays is afterwards. -/
theorem portNet?_of_keepsCell {ref : PortRef} (keeps : netlist.KeepsCell ref.cell) :
    (sweptWith k netlist installed).portNet? ref = netlist.landing netlist.nets.keys ref := by
  ext name
  rw [portNet?_sweptWith_iff consistent installable]
  constructor
  · rintro (⟨c, member, rfl, -⟩ | ⟨-, landed⟩)
    · exact absurd rfl (cell_ne_of_keepsCell consistent installable keeps c member)
    · exact landed
  · exact fun landed => .inr ⟨keeps.2, landed⟩

/-- Where a user of a constant net is afterwards. -/
theorem portNet?_of_userAt {c : Constant} {ref : PortRef} (keeps : netlist.KeepsCell ref.cell)
    (user : netlist.UserAt c ref) : (sweptWith k netlist installed).portNet? ref =
      if netlist.floats c.high ref then none else some c.net := by
  obtain ⟨name, supplied, listed⟩ := user
  have attached := consistent.portNet?_of_mem_usersOf listed
  have seen := Std.ExtTreeMap.mem_keys.mpr (consistent.linked.present attached)
  rw [portNet?_of_keepsCell consistent installable keeps,
    landing_of_listed attached supplied seen listed]

/-- A user of a constant net that does not float is listed once by the net of the constant. -/
theorem onceOn_of_userAt (once : netlist.EachOnce) {c : Constant} (member : c ∈ installed)
    {ref : PortRef} (keeps : netlist.KeepsCell ref.cell) (user : netlist.UserAt c ref)
    (connects : netlist.floats c.high ref = false) :
    (sweptWith k netlist installed).OnceOn c.net ref := by
  constructor
  · rw [portNet?_of_userAt consistent installable keeps user, connects]
    rfl
  · refine ⟨_, (lookup_nets_sweptWith_iff consistent installable c.net _).mpr
      (.inl ⟨c, member, rfl, rfl⟩), ?_⟩
    have notDriver : c.driver ≠ ref := by
      rintro rfl
      exact cell_ne_of_keepsCell consistent installable keeps c member rfl
    obtain ⟨name, supplied, listed⟩ := user
    have attached := consistent.portNet?_of_mem_usersOf listed
    have users := (count_sweptUsers consistent supplied listed connects).trans
      (count_usersOf once keeps attached supplied)
    simp [Net.references, Constant.drivenNet, users, notDriver]

/-- A port that is a user of no constant net stays where it is. -/
theorem onceOn_of_not_userAt (once : netlist.EachOnce) {ref : PortRef} {name : String}
    (keeps : netlist.KeepsCell ref.cell) (attached : netlist.portNet? ref = some name)
    (noUser : ∀ c, ¬ netlist.UserAt c ref) : (sweptWith k netlist installed).OnceOn name ref := by
  have supplied : netlist.constantOf? name = none := by
    cases supplied : netlist.constantOf? name with
    | none => rfl
    | some c =>
      have listed := count_usersOf once keeps attached supplied
      have user : ref ∈ netlist.usersOf name := List.one_le_count_iff.mp (by omega)
      exact absurd ⟨name, supplied, user⟩ (noUser c)
  obtain ⟨net, there, listed⟩ := (once ref name attached).listed
  constructor
  · rw [portNet?_of_keepsCell consistent installable keeps,
      landing_of_not_constant _ attached supplied]
  · refine ⟨_, (lookup_nets_sweptWith_iff consistent installable name _).mpr
      (.inr ⟨supplied, net, there, rfl⟩), ?_⟩
    rw [Net.references_keepRefs, List.count_filter (by simp [keeps.2]), listed]

/-- The blocks that are installed are no ground or supply cells, and of the others none drives a net
that stays. -/
theorem constantOf?_sweptWith (name : String) :
    (sweptWith k netlist installed).constantOf? name = none := by
  refine Option.eq_none_iff_forall_ne_some.mpr fun c supplied => ?_
  obtain ⟨driver, drives, supplies⟩ := constantOf?_eq_some_iff.mp supplied
  obtain ⟨net, ref, found, driven, there⟩ := net_of_driverCell? drives
  rcases (lookup_nets_sweptWith_iff consistent installable name net).mp found with
    ⟨other, member, rfl, rfl⟩ | ⟨none, old, oldFound, rfl⟩
  · cases driven
    cases (lookup_cells_withConstants _ _ _ installable.apart member).symm.trans there
    have noConstant : Constant.ofCellType? (other.block k).cellType = none := rfl
    cases noConstant.symm.trans supplies
  -- The driver of a net that stays is a cell that stays, so its type drove the net before.
  · obtain ⟨oldDriven, stays⟩ := Option.filter_eq_some_iff.mp driven
    have listed : ref ∈ old.references := (old.mem_references_iff ref).mpr (.inl oldDriven)
    obtain ⟨cell, cellThere, -⟩ :=
      cell_of_portNet? (consistent.linked.resolved oldFound listed)
    have keeps : netlist.KeepsCell ref.cell :=
      ⟨(NameMap.mem_iff_lookup ..).mpr ⟨cell, cellThere⟩, by simpa using stays⟩
    have same := map_freed_sweptWith (k := k) consistent installable keeps
    rw [there, cellThere, Option.map_some, Option.map_some, Option.some.injEq] at same
    have cellType : driver.freed.cellType = cell.freed.cellType := congrArg Cell.cellType same
    have oldSupplies : Constant.ofCellType? cell.cellType = some c :=
      (congrArg Constant.ofCellType? cellType).symm.trans supplies
    have oldDrives : netlist.driverCell? name = some cell := by
      simp [driverCell?_eq, oldFound, oldDriven, cellThere]
    cases none.symm.trans (constantOf?_eq_some_iff.mpr ⟨cell, oldDrives, oldSupplies⟩)

end Rewired

theorem ground_mem_neededConstants_iff (netlist : Netlist) :
    .ground ∈ netlist.neededConstants ↔ ∃ name, netlist.constantOf? name = some .ground := by
  refine ⟨fun needed => ?_, fun ⟨_, supplied⟩ => mem_neededConstants supplied⟩
  have apart : Constant.ground ≠ Constant.supply := by decide
  unfold neededConstants at needed
  split at needed
  · rename_i some
    obtain ⟨name, -, supplied⟩ := List.any_eq_true.mp some
    exact ⟨name, by simpa using supplied⟩
  · exact absurd (List.mem_singleton.mp needed) apart

theorem supply_mem_neededConstants (netlist : Netlist) : .supply ∈ netlist.neededConstants := by
  unfold neededConstants
  split <;> simp

theorem constantsRewired_sweptWith {netlist : Netlist} {k : UInt32}
    (consistent : Consistent netlist) (installable : Installable netlist netlist.neededConstants)
    (once : netlist.EachOnce) :
    ConstantsRewired k netlist (sweptWith k netlist netlist.neededConstants) where
  needsGround := ground_mem_neededConstants_iff netlist
  needsSupply := supply_mem_neededConstants netlist
  installed := by
    intro c member
    refine ⟨fun keeps => ?_, fun keeps => ?_, ?_, Packing.sweptUsers netlist c, ?_, ?_⟩
    · exact cell_ne_of_keepsCell consistent installable keeps c member rfl
    · exact net_ne_of_keepsNet consistent installable keeps c member rfl
    · exact lookup_cells_withConstants _ _ _ installable.apart member
    · exact fun ref => userAt_of_mem_sweptUsers consistent
    · exact lookup_nets_withConstants _ _ _ installable.apart member
  cells := mem_cells_sweptWith_iff consistent installable
  nets := fun name => (mem_nets_sweptWith_iff consistent installable name).trans or_comm
  keptCells := fun _ => map_freed_sweptWith consistent installable
  keptNets := fun _ => lookup_nets_of_keepsNet consistent installable
  grounded := by
    intro ref cell keeps there user
    have floats : netlist.floats Constant.ground.high ref = cell.isLutInput ref.port := by
      simp [Netlist.floats, there, Constant.ground]
    obtain ⟨_, supplied, -⟩ := id user
    rw [← Cell.isLutInput_iff, ← floats]
    refine ⟨fun table => ?_, fun other => ?_⟩
    · rw [portNet?_of_userAt consistent installable keeps user, if_pos table]
    · exact onceOn_of_userAt consistent installable once (mem_neededConstants supplied) keeps user
        (by simpa using other)
  supplied := fun _ keeps user =>
    onceOn_of_userAt consistent installable once (supply_mem_neededConstants netlist) keeps user rfl
  others := fun _ _ => onceOn_of_not_userAt consistent installable once
  free := by
    intro ref keeps free
    rw [portNet?_of_keepsCell consistent installable keeps, landing_of_free _ free]
  unsupplied := constantOf?_sweptWith consistent installable

/-- As many cells are taken away as drive a net at a constant. -/
theorem size_deadCells {netlist : Netlist} (consistent : Consistent netlist) :
    (ConstantSweep.ofNetlist netlist).deadCells.size =
      (netlist.cells.keys.filter netlist.drivesConstant).length := by
  rw [← Std.ExtTreeSet.length_toList]
  refine List.Perm.length_eq ((List.perm_ext_iff_of_nodup ?_ ?_).mpr fun key => ?_)
  · exact Std.ExtTreeSet.distinct_toList.imp fun apart same => apart (by simp [same])
  · exact Std.ExtTreeMap.nodup_keys.filter _
  · rw [ConstantSweep.mem_deadCells_iff consistent, List.mem_filter, NameMap.mem_keys_iff]
    refine ⟨fun drives => ⟨?_, drives⟩, And.right⟩
    obtain ⟨cell, there, -⟩ := cell_of_drivesConstant drives
    exact ⟨cell, there⟩

end Netlist

namespace Packing

open Netlist

end Packing

end TileFabric
