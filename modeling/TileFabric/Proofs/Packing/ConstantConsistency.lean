import TileFabric.Proofs.Packing.ConstantInstall

/-!
# When replacing constants keeps a netlist consistent

The constants pass does not keep every netlist consistent: a cell that is removed may itself be a
user of a constant net, a port may be attached to a net that does not list it, and a pass that
fails has moved ports onto a net that it never installs. `SweepSafe` excludes just these, so that
the check passes afterwards exactly when it holds.
-/

set_option autoImplicit false

namespace TileFabric

namespace Netlist

/-- A port that moves onto an installed constant is not removed with its cell, unless it is the
very port that drives the constant. -/
def DriversApart (netlist : Netlist) (installed : List Constant) : Prop :=
  ∀ ⦃name : String⦄ ⦃c : Constant⦄ ⦃ref : PortRef⦄, netlist.constantOf? name = some c →
    c ∈ installed → ref ∈ netlist.usersOf name → netlist.drivesConstant ref.cell = true →
      ref = c.driver

/-- A port that moves onto the net of a constant finds it installed, or finds a net that already
has its name. -/
def UsersCarried (netlist : Netlist) (installed : List Constant) : Prop :=
  ∀ ⦃name : String⦄ ⦃c : Constant⦄ ⦃ref : PortRef⦄, netlist.constantOf? name = some c →
    ref ∈ netlist.usersOf name → netlist.drivesConstant ref.cell = false →
      netlist.floats c.high ref = false →
        c ∈ installed ∨ (c.net ∈ netlist.nets ∧ netlist.constantOf? c.net = none)

/-- A port that stays on a net at a constant is listed there, or the net has the name of a net
that is installed. -/
def UsersListed (netlist : Netlist) (installed : List Constant) : Prop :=
  ∀ ⦃name : String⦄ ⦃c : Constant⦄ ⦃ref : PortRef⦄, netlist.constantOf? name = some c →
    netlist.portNet? ref = some name → netlist.drivesConstant ref.cell = false →
      ref ∉ netlist.usersOf name → ∃ other ∈ installed, other.net = name

/-- Nothing that a sweep takes away is missing once some constants have been installed. -/
structure SweepSafe (netlist : Netlist) (installed : List Constant) : Prop where
  drivers_apart : DriversApart netlist installed
  carried : UsersCarried netlist installed
  listed : UsersListed netlist installed

/-- Constants that can be installed once a netlist is swept. -/
structure Installable (netlist : Netlist) (installed : List Constant) : Prop where
  apart : Apart installed
  known : ∀ c ∈ installed, c.Known
  untaken : ∀ c ∈ installed, (ConstantSweep.ofNetlist netlist).swept.Untaken c

/-- The swept netlist with constants installed. -/
def sweptWith (k : UInt32) (netlist : Netlist) (installed : List Constant) : Netlist :=
  (ConstantSweep.ofNetlist netlist).swept.withConstants k (Packing.sweptUsers netlist) installed

namespace Installable

variable {netlist : Netlist} {installed : List Constant} {c other : Constant}

theorem eq_of_cell (installable : Installable netlist installed) (one : c ∈ installed)
    (two : other ∈ installed) (same : c.cell = other.cell) : c = other := by
  have apart : Constant.ground.cell ≠ Constant.supply.cell := by decide
  exact (installable.known c one).eq_of apart (installable.known other two) same

theorem eq_of_net (installable : Installable netlist installed) (one : c ∈ installed)
    (two : other.Known) (same : c.net = other.net) : c = other := by
  have apart : Constant.ground.net ≠ Constant.supply.net := by decide
  exact (installable.known c one).eq_of apart two same

end Installable

section SweptWith

variable {netlist : Netlist} {installed : List Constant} {k : UInt32}
  (consistent : Consistent netlist) (installable : Installable netlist installed)

include consistent installable

theorem portNet?_sweptWith_iff (ref : PortRef) (name : String) :
    (sweptWith k netlist installed).portNet? ref = some name ↔
      (∃ c ∈ installed, ref = c.driver ∧ c.net = name) ∨
        netlist.drivesConstant ref.cell = false ∧
          netlist.landing netlist.nets.keys ref = some name := by
  have stays : (ConstantSweep.ofNetlist netlist).swept.portNet? ref = some name ↔
      netlist.drivesConstant ref.cell = false ∧
        netlist.landing netlist.nets.keys ref = some name := by
    rw [ConstantSweep.portNet?_swept consistent]
    cases netlist.drivesConstant ref.cell <;> simp
  rw [← stays]
  by_cases onBlock : ∃ c ∈ installed, c.cell = ref.cell
  · obtain ⟨c, member, here⟩ := onBlock
    have block : (sweptWith k netlist installed).portNet? ref =
        if Constant.outputPort = ref.port then some c.net else none := by
      rw [← c.portNet?_block k]
      apply portNet?_of_cell
      rw [← here]
      exact lookup_cells_withConstants _ _ _ installable.apart member
    -- The block's name was not taken, so no port of the swept netlist answers to it.
    have gone : (ConstantSweep.ofNetlist netlist).swept.portNet? ref = none := by
      have absent := (installable.untaken c member).2
      rw [here, NameMap.not_mem_iff_lookup] at absent
      simp [portNet?, absent]
    rw [block, gone]
    constructor
    · intro attached
      split at attached
      · rename_i output
        refine .inl ⟨c, member, ?_, Option.some.inj attached⟩
        rw [Constant.driver, here, output]
      · cases attached
    · rintro (⟨other, otherMember, rfl, rfl⟩ | impossible)
      · cases installable.eq_of_cell member otherMember here
        exact if_pos rfl
      · cases impossible
  · have elsewhere : ∀ c ∈ installed, c.cell ≠ ref.cell :=
      fun c member here => onBlock ⟨c, member, here⟩
    have same : (sweptWith k netlist installed).portNet? ref =
        (ConstantSweep.ofNetlist netlist).swept.portNet? ref := by
      unfold portNet? sweptWith
      rw [lookup_cells_withConstants_of_not_mem _ _ _ elsewhere]
    rw [same]
    constructor
    · exact .inr
    · rintro (⟨c, member, rfl, -⟩ | attached)
      · exact absurd rfl (elsewhere c member)
      · exact attached

/-- A net of the swept netlist is a constant's net or one that was there, less what was removed. -/
theorem lookup_nets_sweptWith_iff (name : String) (net : Net) :
    (sweptWith k netlist installed).nets[name]? = some net ↔
      (∃ c ∈ installed, c.net = name ∧ net = c.drivenNet (Packing.sweptUsers netlist c)) ∨
        netlist.constantOf? name = none ∧ ∃ old, netlist.nets[name]? = some old ∧
          net = old.keepRefs fun ref => !netlist.drivesConstant ref.cell := by
  have stays : (ConstantSweep.ofNetlist netlist).swept.nets[name]? = some net ↔
      netlist.constantOf? name = none ∧ ∃ old, netlist.nets[name]? = some old ∧
        net = old.keepRefs fun ref => !netlist.drivesConstant ref.cell := by
    rw [ConstantSweep.lookup_nets_swept consistent]
    cases netlist.constantOf? name with
    | some c => simp
    | none => simp [Option.map_eq_some_iff, @eq_comm Net net]
  rw [← stays]
  by_cases isNew : ∃ c ∈ installed, c.net = name
  · obtain ⟨c, member, rfl⟩ := isNew
    have absent := (NameMap.not_mem_iff_lookup ..).mp (installable.untaken c member).1
    rw [sweptWith, lookup_nets_withConstants _ _ _ installable.apart member, absent]
    constructor
    · intro found
      exact .inl ⟨c, member, rfl, (Option.some.inj found).symm⟩
    · rintro (⟨other, otherMember, same, rfl⟩ | impossible)
      · cases installable.eq_of_net otherMember (installable.known c member) same
        rfl
      · cases impossible
  · have elsewhere : ∀ c ∈ installed, c.net ≠ name := fun c member here => isNew ⟨c, member, here⟩
    rw [sweptWith, lookup_nets_withConstants_of_not_mem _ _ _ elsewhere]
    constructor
    · exact .inr
    · rintro (⟨c, member, here, -⟩ | found)
      · exact absurd here (elsewhere c member)
      · exact found

theorem mem_nets_sweptWith_iff (name : String) :
    name ∈ (sweptWith k netlist installed).nets ↔
      (∃ c ∈ installed, c.net = name) ∨ name ∈ netlist.nets ∧ netlist.constantOf? name = none := by
  simp only [NameMap.mem_iff_lookup, lookup_nets_sweptWith_iff consistent installable]
  constructor
  · rintro ⟨net, ⟨c, member, here, -⟩ | ⟨none, old, found, -⟩⟩
    · exact .inl ⟨c, member, here⟩
    · exact .inr ⟨⟨old, found⟩, none⟩
  · rintro (⟨c, member, here⟩ | ⟨⟨old, found⟩, none⟩)
    · exact ⟨_, .inl ⟨c, member, here, rfl⟩⟩
    · exact ⟨_, .inr ⟨none, old, found, rfl⟩⟩

theorem named_sweptWith : Named (sweptWith k netlist installed) := by
  constructor
  · intro key cell found
    by_cases onBlock : ∃ c ∈ installed, c.cell = key
    · obtain ⟨c, member, rfl⟩ := onBlock
      rw [sweptWith, lookup_cells_withConstants _ _ _ installable.apart member] at found
      cases found
      rfl
    · have elsewhere : ∀ c ∈ installed, c.cell ≠ key :=
        fun c member here => onBlock ⟨c, member, here⟩
      rw [sweptWith, lookup_cells_withConstants_of_not_mem _ _ _ elsewhere,
        ConstantSweep.lookup_cells_swept consistent] at found
      split at found
      · cases found
      · obtain ⟨old, there, sameName, -⟩ :=
          (ConstantSweep.sweepState_ofNetlist consistent).cells.cell found
        rw [← sameName, consistent.cell there]
  · intro name net found
    rcases (lookup_nets_sweptWith_iff consistent installable name net).mp found with
      ⟨c, -, rfl, rfl⟩ | ⟨-, old, there, rfl⟩
    · rfl
    · exact (Net.keepRefs_name ..).trans (consistent.net there)

omit installable in
theorem mem_sweptUsers_iff {c : Constant} {ref : PortRef} :
    ref ∈ Packing.sweptUsers netlist c ↔ ∃ name, netlist.constantOf? name = some c ∧
      ref ∈ netlist.usersOf name ∧ netlist.floats c.high ref = false := by
  unfold Packing.sweptUsers
  rw [mem_usersAt_iff]
  constructor
  · rintro ⟨name, -, found⟩
    exact ⟨name, found⟩
  · rintro ⟨name, supplied, listed, floats⟩
    have present := consistent.linked.present (consistent.portNet?_of_mem_usersOf listed)
    exact ⟨name, Std.ExtTreeMap.mem_keys.mpr present, supplied, listed, floats⟩

/-- The references that the swept netlist resolves, whatever was installed. -/
theorem resolved_sweptWith (safe : SweepSafe netlist installed) {name : String} {net : Net}
    {ref : PortRef} (found : (sweptWith k netlist installed).nets[name]? = some net)
    (listed : ref ∈ net.references) :
    (sweptWith k netlist installed).portNet? ref = some name := by
  rw [portNet?_sweptWith_iff consistent installable]
  rcases (lookup_nets_sweptWith_iff consistent installable name net).mp found with
    ⟨c, member, rfl, rfl⟩ | ⟨none, old, there, rfl⟩
  · rcases (Net.mem_references_iff ..).mp listed with driver | user
    · exact .inl ⟨c, member, (Option.some.inj driver).symm, rfl⟩
    · obtain ⟨origin, supplied, user, floats⟩ := (mem_sweptUsers_iff consistent).mp user
      cases removed : netlist.drivesConstant ref.cell with
      | true => exact .inl ⟨c, member, safe.drivers_apart supplied member user removed, rfl⟩
      | false =>
        have attached := consistent.portNet?_of_mem_usersOf user
        have present := Std.ExtTreeMap.mem_keys.mpr (consistent.linked.present attached)
        refine .inr ⟨rfl, ?_⟩
        rw [landing_of_listed attached supplied present user, floats]
        rfl
  · rw [Net.references_keepRefs, List.mem_filter] at listed
    have attached := consistent.linked.resolved there listed.1
    exact .inr ⟨by simpa using listed.2, landing_of_not_constant _ attached none⟩

theorem present_sweptWith (safe : SweepSafe netlist installed) {ref : PortRef} {name : String}
    (attached : (sweptWith k netlist installed).portNet? ref = some name) :
    name ∈ (sweptWith k netlist installed).nets := by
  rw [mem_nets_sweptWith_iff consistent installable]
  rcases (portNet?_sweptWith_iff consistent installable ref name).mp attached with
    ⟨c, member, -, here⟩ | ⟨stays, landed⟩
  · exact .inl ⟨c, member, here⟩
  · obtain ⟨origin, before, -⟩ := Option.bind_eq_some_iff.mp landed
    have present := consistent.linked.present before
    cases supplied : netlist.constantOf? origin with
    | none =>
      cases (landing_of_not_constant _ before supplied).symm.trans landed
      exact .inr ⟨present, supplied⟩
    | some c =>
      by_cases user : ref ∈ netlist.usersOf origin
      · rw [landing_of_listed before supplied (Std.ExtTreeMap.mem_keys.mpr present) user] at landed
        cases floats : netlist.floats c.high ref with
        | true =>
          rw [floats] at landed
          cases landed
        | false =>
          rw [floats] at landed
          cases landed
          rcases safe.carried supplied user stays floats with member | remains
          · exact .inl ⟨c, member, rfl⟩
          · exact .inr remains
      · cases (landing_of_unlisted before fun seen => user seen.2).symm.trans landed
        exact .inl (safe.listed supplied before stays user)

/-- The swept netlist is consistent exactly when nothing is missing from what was installed. -/
theorem consistent_sweptWith_iff :
    Consistent (sweptWith k netlist installed) ↔ SweepSafe netlist installed := by
  constructor
  · intro after
    constructor
    case drivers_apart =>
      intro name c ref supplied member user removed
      have found : (sweptWith k netlist installed).nets[c.net]? = _ :=
        (lookup_nets_sweptWith_iff consistent installable c.net _).mpr (.inl ⟨c, member, rfl, rfl⟩)
      have moved : ref ∈ Packing.sweptUsers netlist c :=
        (mem_sweptUsers_iff consistent).mpr
          ⟨name, supplied, user, floats_of_drivesConstant removed c.high⟩
      have attached := after.linked.resolved found ((Net.mem_references_iff ..).mpr (.inr moved))
      rcases (portNet?_sweptWith_iff consistent installable ref c.net).mp attached with
        ⟨other, otherMember, isDriver, same⟩ | ⟨stays, -⟩
      · cases installable.eq_of_net otherMember (installable.known c member) same
        exact isDriver
      · cases removed.symm.trans stays
    case carried =>
      intro name c ref supplied user stays floats
      have before := consistent.portNet?_of_mem_usersOf user
      have seen := Std.ExtTreeMap.mem_keys.mpr (consistent.linked.present before)
      have landed : netlist.landing netlist.nets.keys ref = some c.net := by
        rw [landing_of_listed before supplied seen user, floats]
        rfl
      have present := after.linked.present
        ((portNet?_sweptWith_iff consistent installable ref c.net).mpr (.inr ⟨stays, landed⟩))
      rcases (mem_nets_sweptWith_iff consistent installable c.net).mp present with
        ⟨other, otherMember, same⟩ | remains
      · have known := known_of_constantOf? supplied
        cases installable.eq_of_net otherMember known same
        exact .inl otherMember
      · exact .inr remains
    case listed =>
      intro name c ref supplied before stays unlisted
      have landed : netlist.landing netlist.nets.keys ref = some name :=
        landing_of_unlisted before fun seen => unlisted seen.2
      have present := after.linked.present
        ((portNet?_sweptWith_iff consistent installable ref name).mpr (.inr ⟨stays, landed⟩))
      rcases (mem_nets_sweptWith_iff consistent installable name).mp present with
        installedThere | ⟨-, none⟩
      · exact installedThere
      · cases supplied.symm.trans none
  · intro safe
    exact ⟨named_sweptWith consistent installable,
      resolved_sweptWith consistent installable safe, present_sweptWith consistent installable safe⟩

end SweptWith

/-- Of the constants that are needed, those before the one that an error is about. -/
def installedBefore (netlist : Netlist) (e : NetlistError) : List Constant :=
  netlist.neededConstants.takeWhile fun c => e ≠ .duplicateNet c.net ∧ e ≠ .duplicateCell c.cell

theorem known_of_mem_neededConstants {netlist : Netlist} {c : Constant}
    (needed : c ∈ netlist.neededConstants) : c.Known := by
  unfold neededConstants at needed
  split at needed
  · have either : c = .ground ∨ c = .supply := by simpa using needed
    exact either
  · exact .inr (by simpa using needed)

theorem takenError_cases (netlist : Netlist) (c : Constant) :
    netlist.takenError c = .duplicateNet c.net ∨ netlist.takenError c = .duplicateCell c.cell := by
  unfold takenError
  split
  · exact .inl rfl
  · exact .inr rfl

/-- The error tells which constant has failed. -/
theorem installedBefore_takenError {netlist : Netlist} {installed rest : List Constant}
    {c : Constant} (split : netlist.neededConstants = installed ++ c :: rest) (swept : Netlist) :
    netlist.installedBefore (swept.takenError c) = installed := by
  have apart := netlist.apart_neededConstants
  rw [split] at apart
  have cells := apart.cells
  have nets := apart.nets
  rw [List.map_append, List.nodup_append] at cells nets
  have passed : ∀ other ∈ installed, other.net ≠ c.net ∧ other.cell ≠ c.cell := by
    intro other member
    exact ⟨nets.2.2 _ (List.mem_map_of_mem member) _ List.mem_cons_self,
      cells.2.2 _ (List.mem_map_of_mem member) _ List.mem_cons_self⟩
  unfold installedBefore
  rw [split, List.takeWhile_append_of_pos, List.takeWhile_cons_of_neg, List.append_nil]
  · rcases swept.takenError_cases c with e | e <;> simp [e]
  · intro other member
    obtain ⟨net, cell⟩ := passed other member
    rcases swept.takenError_cases c with e | e <;> simp [e, Ne.symm net, Ne.symm cell]

end Netlist

namespace Packing

open Netlist

theorem constants_ok_sweptWith {k : UInt32} {w after : Workspace} {count : Nat}
    (consistent : Consistent w.netlist) (done : (constants k).run w = (.ok count, after)) :
    Installable w.netlist w.netlist.neededConstants ∧
      after.netlist = sweptWith k w.netlist w.netlist.neededConstants := by
  obtain ⟨untaken, left⟩ := constants_ok consistent done
  exact ⟨⟨apart_neededConstants _, fun _ => known_of_mem_neededConstants, untaken⟩, left⟩

/-- A constants pass that goes well leaves a consistent netlist exactly when no removed driver is a
user of a constant net and every port on a constant net is listed there. -/
theorem check_after_constants_iff {k : UInt32} {w after : Workspace} {count : Nat}
    (checked : w.netlist.check = .ok ()) (done : (constants k).run w = (.ok count, after)) :
    after.netlist.check = .ok () ↔ DriversApart w.netlist w.netlist.neededConstants ∧
      UsersListed w.netlist w.netlist.neededConstants := by
  have consistent := (check_eq_ok_iff _).mp checked
  obtain ⟨installable, left⟩ := constants_ok_sweptWith consistent done
  rw [check_eq_ok_iff, left]
  refine (consistent_sweptWith_iff consistent installable).trans ⟨?_, ?_⟩
  · exact fun safe => ⟨safe.drivers_apart, safe.listed⟩
  · rintro ⟨drivers_apart, listed⟩
    refine ⟨drivers_apart, ?_, listed⟩
    intro name c ref supplied _ _ _
    exact .inl (mem_neededConstants supplied)

/-- A table and a buffer at ground, and the buffer at supply as well. -/
def groundAndSupply : Netlist where
  cells :=
    let onZero (direction : PortDirection) : Port := { direction, net := some "zero" }
    let onOne (direction : PortDirection) : Port := { direction, net := some "one" }
    let ground : Cell := { name := "g", cellType := "GND", ports := .ofList [("Y", onZero .output)] }
    let supply : Cell := { name := "v", cellType := "VCC", ports := .ofList [("Y", onOne .output)] }
    let table : Cell := { name := "t", cellType := "LUT4", ports := .ofList [("I0", onZero .input)] }
    let buffer : Cell :=
      { name := "x", cellType := "BUF", ports := .ofList [("A", onZero .input), ("B", onOne .input)] }
    .ofList [("g", ground), ("v", supply), ("t", table), ("x", buffer)]
  nets :=
    let zero : Net := { name := "zero", driver := some ⟨"g", "Y"⟩, users := [⟨"t", "I0"⟩, ⟨"x", "A"⟩] }
    let one : Net := { name := "one", driver := some ⟨"v", "Y"⟩, users := [⟨"x", "B"⟩] }
    .ofList [("zero", zero), ("one", one)]
  settings := ∅
  nextName := 0

theorem groundAndSupply_check_after_constants :
    ((constants 1).run ⟨groundAndSupply, .empty⟩).1 = .ok 2 ∧
      ((constants 1).run ⟨groundAndSupply, .empty⟩).2.netlist.check = .ok () ∧
      DriversApart groundAndSupply groundAndSupply.neededConstants ∧
      UsersListed groundAndSupply groundAndSupply.neededConstants := by
  have checked : groundAndSupply.check = .ok () := by decide +kernel
  have done : ((constants 1).run ⟨groundAndSupply, .empty⟩).1 = .ok 2 := by decide +kernel
  have passes : ((constants 1).run ⟨groundAndSupply, .empty⟩).2.netlist.check = .ok () := by
    decide +kernel
  exact ⟨done, passes, (check_after_constants_iff checked (Prod.ext done rfl)).mp passes⟩

/-- A ground cell with an input on the net that it drives. -/
def groundOnItself : Netlist where
  cells :=
    let input : Port := { direction := .input, net := some "n" }
    let output : Port := { direction := .output, net := some "n" }
    let ground : Cell :=
      { name := "g", cellType := "GND", ports := .ofList [("A", input), ("Y", output)] }
    .ofList [("g", ground)]
  nets :=
    let net : Net := { name := "n", driver := some ⟨"g", "Y"⟩, users := [⟨"g", "A"⟩] }
    .ofList [("n", net)]
  settings := ∅
  nextName := 0

/-- The net at ground goes on listing the cell that has been removed. -/
theorem groundOnItself_check_after_constants :
    groundOnItself.check = .ok () ∧ ((constants 4).run ⟨groundOnItself, .empty⟩).1 = .ok 1 ∧
      ((constants 4).run ⟨groundOnItself, .empty⟩).2.netlist.check = .error (.unknownCell "g") := by
  decide +kernel

/-- A constants pass that fails is about a name of a constant that it needs, and leaves a consistent
netlist exactly when nothing is missing from the constants installed before that one. -/
theorem check_after_failed_constants_iff {k : UInt32} {w after : Workspace} {e : NetlistError}
    (checked : w.netlist.check = .ok ()) (failed : (constants k).run w = (.error e, after)) :
    (∃ c ∈ w.netlist.neededConstants, e = .duplicateNet c.net ∨ e = .duplicateCell c.cell) ∧
      (after.netlist.check = .ok () ↔ SweepSafe w.netlist (w.netlist.installedBefore e)) := by
  have consistent := (check_eq_ok_iff _).mp checked
  obtain ⟨installed, c, rest, split, untaken, -, rfl, left⟩ := constants_error consistent failed
  have sublist : List.Sublist installed w.netlist.neededConstants := by
    rw [split]
    exact List.sublist_append_left ..
  have apart := w.netlist.apart_neededConstants
  have installable : Installable w.netlist installed :=
    ⟨⟨apart.cells.sublist (sublist.map _), apart.nets.sublist (sublist.map _)⟩,
      fun _ member => known_of_mem_neededConstants (sublist.subset member), untaken⟩
  refine ⟨⟨c, by simp [split], takenError_cases _ c⟩, ?_⟩
  rw [check_eq_ok_iff, left, installedBefore_takenError split]
  exact consistent_sweptWith_iff consistent installable

/-- A buffer on a net that a cell of some type drives, with the name of the supply block taken. -/
def takenSupplyBlock (driverType : String) : Netlist where
  cells :=
    let input : Port := { direction := .input, net := some "n" }
    let output : Port := { direction := .output, net := some "n" }
    let driver : Cell := { name := "d", cellType := driverType, ports := .ofList [("Y", output)] }
    let buffer : Cell := { name := "x", cellType := "BUF", ports := .ofList [("A", input)] }
    let other : Cell := { name := "$PACKER_VCC", cellType := "BUF" }
    .ofList [("d", driver), ("x", buffer), ("$PACKER_VCC", other)]
  nets :=
    let net : Net := { name := "n", driver := some ⟨"d", "Y"⟩, users := [⟨"x", "A"⟩] }
    .ofList [("n", net)]
  settings := ∅
  nextName := 0

/-- Ground has been installed when supply fails, and nothing was at supply. -/
theorem takenSupplyBlock_ground_check_after_constants :
    ((constants 1).run ⟨takenSupplyBlock "GND", .empty⟩).1 = .error (.duplicateCell "$PACKER_VCC") ∧
      ((constants 1).run ⟨takenSupplyBlock "GND", .empty⟩).2.netlist.check = .ok () ∧
      SweepSafe (takenSupplyBlock "GND")
        ((takenSupplyBlock "GND").installedBefore (.duplicateCell "$PACKER_VCC")) := by
  have checked : (takenSupplyBlock "GND").check = .ok () := by decide +kernel
  have failed : ((constants 1).run ⟨takenSupplyBlock "GND", .empty⟩).1 =
      .error (.duplicateCell "$PACKER_VCC") := by decide +kernel
  have passes : ((constants 1).run ⟨takenSupplyBlock "GND", .empty⟩).2.netlist.check = .ok () := by
    decide +kernel
  have safe := (check_after_failed_constants_iff checked (Prod.ext failed rfl)).2.mp passes
  exact ⟨failed, passes, safe⟩

/-- The buffer has been moved onto the net of a constant that is then not installed. -/
theorem takenSupplyBlock_supply_check_after_constants :
    (takenSupplyBlock "VCC").check = .ok () ∧
      ((constants 4).run ⟨takenSupplyBlock "VCC", .empty⟩).1 =
        .error (.duplicateCell "$PACKER_VCC") ∧
      ((constants 4).run ⟨takenSupplyBlock "VCC", .empty⟩).2.netlist.check =
        .error (.danglingPort "$PACKER_VCC_NET" "x" "A") := by
  decide +kernel

end Packing

end TileFabric
