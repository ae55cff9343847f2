import TileFabric.Proofs.Packing.Blocks
import TileFabric.Proofs.Packing.ConstantSweep
import TileFabric.Proofs.Packing.Replacement

/-!
# Installing constants

`Packing.constants` sweeps the netlist and installs the constants that it needs, ground before
supply. It can fail only on a name that is taken, and what it leaves is the swept netlist with the
constants before that one.
-/

set_option autoImplicit false

namespace TileFabric

namespace Constant

/-- The block of a constant before it is attached to its net. -/
def freeBlock (c : Constant) (k : UInt32) : Cell :=
  (LogicBlock.new c.cell k ∅).setParam "LUT_INIT" (c.table k)

def block (c : Constant) (k : UInt32) : Cell := (c.freeBlock k).withPortNet outputPort (some c.net)

/-- The reference by which a constant's net names its driver. -/
def driver (c : Constant) : PortRef := ⟨c.cell, outputPort⟩

/-- The net of a constant with its driver and some users. -/
def drivenNet (c : Constant) (users : List PortRef) : Net :=
  { name := c.net, driver := some c.driver, users }

theorem makeBlock_eq (c : Constant) (k : UInt32) : c.makeBlock k = .ok (c.freeBlock k) := by
  unfold makeBlock
  rw [LogicBlock.make_eq]
  simp only [Except.map, freeBlock]

theorem portNet?_block (c : Constant) (k : UInt32) (port : String) :
    (c.block k).portNet? port = if outputPort = port then some c.net else none := by
  have there : outputPort ∈ (c.freeBlock k).ports := by
    rw [NameMap.mem_iff_lookup]
    have isOutput : outputPort ∈ LogicBlock.outputs := by decide +kernel
    exact ⟨_, (LogicBlock.lookup_ports_new c.cell k ∅ outputPort).trans (if_pos isOutput)⟩
  have free : (c.freeBlock k).portNet? port = none := LogicBlock.portNet?_new c.cell k ∅ port
  rw [block, Cell.portNet?_attach there, free]

end Constant

namespace Netlist

open Constant

/-- The netlist with constants that have got some users. -/
def withConstants (k : UInt32) (users : Constant → List PortRef) (installed : List Constant)
    (netlist : Netlist) : Netlist :=
  { netlist with
    cells := netlist.cells.insertMany (installed.map fun c => (c.cell, c.block k))
    nets := netlist.nets.insertMany (installed.map fun c => (c.net, c.drivenNet (users c))) }

/-- Constants whose names are apart from each other. -/
structure Apart (constants : List Constant) : Prop where
  cells : (constants.map (·.cell)).Nodup
  nets : (constants.map (·.net)).Nodup

/-- The names of a constant are not taken in a netlist. -/
def Untaken (netlist : Netlist) (c : Constant) : Prop :=
  c.net ∉ netlist.nets ∧ c.cell ∉ netlist.cells

section WithConstants

variable {installed : List Constant} {c : Constant} (k : UInt32)
  (users : Constant → List PortRef) (netlist : Netlist)

theorem lookup_cells_withConstants (apart : Apart installed) (member : c ∈ installed) :
    (netlist.withConstants k users installed).cells[c.cell]? = some (c.block k) := by
  have distinct : ((installed.map fun c => (c.cell, c.block k)).map (·.1)).Nodup := by
    simpa [Function.comp_def] using apart.cells
  exact NameMap.lookup_insertMany distinct (List.mem_map.mpr ⟨c, member, rfl⟩) netlist.cells

theorem lookup_cells_withConstants_of_not_mem {key : String}
    (other : ∀ c ∈ installed, c.cell ≠ key) :
    (netlist.withConstants k users installed).cells[key]? = netlist.cells[key]? :=
  NameMap.lookup_insertMany_of_not_mem (by simpa [Function.comp_def] using other) _

theorem lookup_nets_withConstants (apart : Apart installed) (member : c ∈ installed) :
    (netlist.withConstants k users installed).nets[c.net]? =
      some (c.drivenNet (users c)) := by
  have distinct : ((installed.map fun c => (c.net, c.drivenNet (users c))).map (·.1)).Nodup := by
    simpa [Function.comp_def] using apart.nets
  exact NameMap.lookup_insertMany distinct (List.mem_map.mpr ⟨c, member, rfl⟩) netlist.nets

theorem lookup_nets_withConstants_of_not_mem {name : String}
    (other : ∀ c ∈ installed, c.net ≠ name) :
    (netlist.withConstants k users installed).nets[name]? = netlist.nets[name]? :=
  NameMap.lookup_insertMany_of_not_mem (by simpa [Function.comp_def] using other) _

end WithConstants

theorem withConstants_nil (k : UInt32) (users : Constant → List PortRef) (netlist : Netlist) :
    netlist.withConstants k users [] = netlist := by
  simp [withConstants]

theorem withConstants_cons (k : UInt32) (users : Constant → List PortRef) (c : Constant)
    (rest : List Constant) (netlist : Netlist) : netlist.withConstants k users (c :: rest) =
      (netlist.withConstants k users [c]).withConstants k users rest := by
  simp [withConstants, Std.ExtTreeMap.insertMany_cons]

/-- The error of a constant one of whose names is taken. -/
def takenError (netlist : Netlist) (c : Constant) : NetlistError :=
  if c.net ∈ netlist.nets then .duplicateNet c.net else .duplicateCell c.cell

section OneMore

variable {c other : Constant} (nets : c.net ≠ other.net) (cells : c.cell ≠ other.cell)
  (k : UInt32) (users : Constant → List PortRef) (netlist : Netlist)

include nets in
theorem mem_nets_withConstants_iff : other.net ∈ (netlist.withConstants k users [c]).nets ↔
    other.net ∈ netlist.nets := by
  rw [NameMap.mem_iff_lookup, NameMap.mem_iff_lookup,
    lookup_nets_withConstants_of_not_mem _ _ _ (by simpa using nets)]

include nets cells in
/-- Installing a constant takes none of the names of another. -/
theorem untaken_withConstants_iff :
    (netlist.withConstants k users [c]).Untaken other ↔ netlist.Untaken other := by
  have cell : other.cell ∈ (netlist.withConstants k users [c]).cells ↔
      other.cell ∈ netlist.cells := by
    rw [NameMap.mem_iff_lookup, NameMap.mem_iff_lookup,
      lookup_cells_withConstants_of_not_mem _ _ _ (by simpa using cells)]
  rw [Untaken, Untaken, mem_nets_withConstants_iff nets, cell]

include nets in
theorem takenError_withConstants :
    (netlist.withConstants k users [c]).takenError other = netlist.takenError other := by
  simp only [takenError, mem_nets_withConstants_iff nets]

end OneMore

end Netlist

namespace Constant

open Netlist

theorem run_install {c : Constant} {netlist : Netlist} (untaken : netlist.Untaken c)
    (k : UInt32) (users : Constant → List PortRef) :
    (install (c.freeBlock k) { name := c.net, users := users c }).run netlist =
      (.ok (), netlist.withConstants k users [c]) := by
  unfold install
  rw [run_get_bind]
  simp only [Std.ExtTreeMap.contains_iff_mem, if_neg untaken.1]
  have fresh : (c.block k).name ∉ netlist.cells := untaken.2
  exact run_bind_of_ok (run_addCell fresh)

theorem run_install_of_taken {c : Constant} {netlist : Netlist} (taken : ¬ netlist.Untaken c)
    (k : UInt32) (users : List PortRef) :
    (install (c.freeBlock k) { name := c.net, users }).run netlist =
      (.error (netlist.takenError c), netlist) := by
  unfold install takenError
  rw [run_get_bind]
  by_cases net : c.net ∈ netlist.nets
  · simp only [Std.ExtTreeMap.contains_iff_mem, if_pos net]
    rfl
  · have cell : (c.block k).name ∈ netlist.cells :=
      Decidable.byContradiction fun cell => taken ⟨net, cell⟩
    simp only [Std.ExtTreeMap.contains_iff_mem, if_neg net]
    exact run_bind_of_error (run_addCell_of_taken cell)

end Constant

namespace Packing

open Netlist

/-- Installs constants in order, each with its users. -/
def installAll (k : UInt32) (users : Constant → List PortRef) (pending : List Constant) :
    Packing Unit :=
  pending.forM fun c => edit (Constant.install (c.freeBlock k) { name := c.net, users := users c })

/-- Installing constants goes well with all of them or stops at the first one that has a name that
is taken, behind the constants before it. -/
theorem run_installAll (k : UInt32) (users : Constant → List PortRef) {pending : List Constant}
    (apart : Apart pending) (w : Workspace) :
    ((∀ c ∈ pending, w.netlist.Untaken c) ∧ (installAll k users pending).run w =
        (.ok (), { w with netlist := w.netlist.withConstants k users pending })) ∨
      ∃ installed c rest, pending = installed ++ c :: rest ∧
        (∀ c ∈ installed, w.netlist.Untaken c) ∧ ¬ w.netlist.Untaken c ∧
        (installAll k users pending).run w = (.error (w.netlist.takenError c),
          { w with netlist := w.netlist.withConstants k users installed }) := by
  induction pending generalizing w with
  | nil => exact .inl ⟨by simp, by rw [withConstants_nil]; rfl⟩
  | cons c rest ih =>
    have cells := List.nodup_cons.mp apart.cells
    have nets := List.nodup_cons.mp apart.nets
    by_cases untaken : w.netlist.Untaken c
    · let next := w.netlist.withConstants k users [c]
      have one : (edit (Constant.install (c.freeBlock k)
          { name := c.net, users := users c })).run w = (.ok (), { w with netlist := next }) :=
        run_edit (Constant.run_install untaken k users)
      -- The names of the constants that follow are taken now only if they were before.
      have same : ∀ other ∈ rest, (next.Untaken other ↔ w.netlist.Untaken other) ∧
          next.takenError other = w.netlist.takenError other := by
        intro other member
        have netApart : c.net ≠ other.net := fun same =>
          nets.1 (List.mem_map.mpr ⟨other, member, same.symm⟩)
        have cellApart : c.cell ≠ other.cell := fun same =>
          cells.1 (List.mem_map.mpr ⟨other, member, same.symm⟩)
        exact ⟨untaken_withConstants_iff netApart cellApart k users w.netlist,
          takenError_withConstants netApart k users w.netlist⟩
      rcases ih ⟨cells.2, nets.2⟩ { w with netlist := next } with
        ⟨all, run⟩ | ⟨installed, taken, later, split, before, isTaken, run⟩
      · refine .inl ⟨?_, ?_⟩
        · intro other member
          rcases List.mem_cons.mp member with rfl | member
          · exact untaken
          · exact (same other member).1.mp (all other member)
        · rw [withConstants_cons]
          exact (run_bind_of_ok one).trans run
      · have takenLater : taken ∈ rest := by simp [split]
        have installedLater : ∀ other ∈ installed, other ∈ rest := by
          intro other member
          simp [split, member]
        refine .inr ⟨c :: installed, taken, later, by rw [split]; rfl, ?_, ?_, ?_⟩
        · intro other member
          rcases List.mem_cons.mp member with rfl | member
          · exact untaken
          · exact (same other (installedLater other member)).1.mp (before other member)
        · exact fun still => isTaken ((same taken takenLater).1.mpr still)
        · rw [withConstants_cons, ← (same taken takenLater).2]
          exact (run_bind_of_ok one).trans run
    · refine .inr ⟨[], c, rest, rfl, by simp, untaken, ?_⟩
      rw [withConstants_nil]
      exact run_bind_of_error (run_edit (Constant.run_install_of_taken untaken k (users c)))

end Packing

namespace Netlist

/-- The constants that a netlist needs: ground when some net is at ground, supply always. -/
def neededConstants (netlist : Netlist) : List Constant :=
  if netlist.nets.keys.any fun name => netlist.constantOf? name = some .ground then
    [.ground, .supply]
  else [.supply]

theorem apart_neededConstants (netlist : Netlist) : Apart netlist.neededConstants := by
  unfold neededConstants
  split
  · exact ⟨by decide, by decide⟩
  · exact ⟨by decide, by decide⟩

/-- A constant that drives a net is needed. -/
theorem mem_neededConstants {netlist : Netlist} {name : String} {c : Constant}
    (supplied : netlist.constantOf? name = some c) : c ∈ netlist.neededConstants := by
  obtain ⟨driver, drives, -⟩ := constantOf?_eq_some_iff.mp supplied
  obtain ⟨net, -, found, -⟩ := net_of_driverCell? drives
  have key : name ∈ netlist.nets.keys := (NameMap.mem_keys_iff ..).mpr ⟨net, found⟩
  unfold neededConstants
  rcases known_of_constantOf? supplied with rfl | rfl
  · rw [if_pos (List.any_eq_true.mpr ⟨name, key, by simp [supplied]⟩)]
    exact List.mem_cons_self
  · split <;> simp

end Netlist

namespace Packing

open Netlist

/-- What a sweep of the whole netlist has collected for a constant. -/
def sweptUsers (netlist : Netlist) (c : Constant) : List PortRef :=
  netlist.usersAt netlist.nets.keys c

theorem run_constants (k : UInt32) {w : Workspace} (consistent : Consistent w.netlist) :
    (constants k).run w =
      (do
        installAll k (sweptUsers w.netlist) w.netlist.neededConstants
        pure (ConstantSweep.ofNetlist w.netlist).deadCells.size : Packing Nat).run
      ⟨(ConstantSweep.ofNetlist w.netlist).swept,
        w.log.add (.note .info 2 "Packing constants..")⟩ := by
  have state := ConstantSweep.sweepState_ofNetlist consistent
  have ground : (ConstantSweep.ofNetlist w.netlist).groundNet =
      { name := Constant.ground.net, users := sweptUsers w.netlist .ground } :=
    state.collected .ground (.inl rfl)
  have supply : (ConstantSweep.ofNetlist w.netlist).supplyNet =
      { name := Constant.supply.net, users := sweptUsers w.netlist .supply } :=
    state.collected .supply (.inr rfl)
  unfold constants
  refine (run_bind_of_ok rfl).trans ?_
  rw [Constant.makeBlock_eq, Constant.makeBlock_eq]
  refine (run_bind_of_ok (run_liftExcept ..)).trans ?_
  refine (run_bind_of_ok (run_liftExcept ..)).trans ?_
  refine (run_bind_of_ok (run_netlist _)).trans ?_
  refine (run_bind_of_ok (run_setNetlist ..)).trans ?_
  rw [state.groundUsed, ground, supply]
  unfold neededConstants
  by_cases used : (w.netlist.nets.keys.any fun name => w.netlist.constantOf? name = some .ground)
  · rw [if_pos used, if_pos used]
    simp only [installAll, List.forM_eq_forM, List.forM_cons, List.forM_nil, bind_assoc,
      pure_bind]
  · rw [if_neg used, if_neg used]
    simp only [installAll, List.forM_eq_forM, List.forM_cons, List.forM_nil, bind_assoc,
      pure_bind]

/-- Constants that are swept and go well are all installed. -/
theorem constants_ok {k : UInt32} {w after : Workspace} {count : Nat}
    (consistent : Consistent w.netlist) (done : (constants k).run w = (.ok count, after)) :
    (∀ c ∈ w.netlist.neededConstants, (ConstantSweep.ofNetlist w.netlist).swept.Untaken c) ∧
      after.netlist = (ConstantSweep.ofNetlist w.netlist).swept.withConstants k
        (sweptUsers w.netlist) w.netlist.neededConstants := by
  rw [run_constants k consistent] at done
  obtain ⟨⟨⟩, between, went, counted⟩ := run_bind_ok done
  rcases run_installAll k (sweptUsers w.netlist) (apart_neededConstants w.netlist) _ with
    ⟨all, run⟩ | ⟨_, _, _, -, -, -, run⟩
  · rw [run] at went
    cases went
    cases counted
    exact ⟨all, rfl⟩
  · rw [run] at went
    cases went

/-- Constants fail at the first one that has a name that is taken once the netlist is swept. -/
theorem constants_error {k : UInt32} {w after : Workspace} {e : NetlistError}
    (consistent : Consistent w.netlist) (failed : (constants k).run w = (.error e, after)) :
    ∃ installed c rest, w.netlist.neededConstants = installed ++ c :: rest ∧
      (∀ c ∈ installed, (ConstantSweep.ofNetlist w.netlist).swept.Untaken c) ∧
      ¬ (ConstantSweep.ofNetlist w.netlist).swept.Untaken c ∧
      e = (ConstantSweep.ofNetlist w.netlist).swept.takenError c ∧
      after.netlist = (ConstantSweep.ofNetlist w.netlist).swept.withConstants k
        (sweptUsers w.netlist) installed := by
  rw [run_constants k consistent] at failed
  rcases run_installAll k (sweptUsers w.netlist) (apart_neededConstants w.netlist) _ with
    ⟨-, run⟩ | ⟨installed, c, rest, split, before, taken, run⟩
  · rw [run_bind_of_ok run] at failed
    cases failed
  · rw [run_bind_of_error run] at failed
    cases failed
    exact ⟨installed, c, rest, split, before, taken, rfl, rfl⟩

end Packing

end TileFabric
