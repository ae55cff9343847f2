import TileFabric.Packing.Constants
import TileFabric.Proofs.Netlist.Removal

/-!
# Sweeping constant nets

What a sweep collects and what it leaves, said in terms of the netlist that it starts from: the
ports listed by a net that a ground or supply cell drives land on the net of that constant or on
none, everything else stays where it is. In a consistent netlist no port is listed by two nets, so
the nets can be visited one after the other without one visit undoing another.
-/

set_option autoImplicit false

namespace TileFabric

/-- Ground cells supply ground and supply cells supply, and no others supply a constant. -/
theorem Constant.ofCellType?_cases {cellType : String} {c : Constant}
    (supplies : ofCellType? cellType = some c) :
    (cellType = CellType.ground ∧ c = ground) ∨ (cellType = CellType.supply ∧ c = supply) := by
  unfold ofCellType? at supplies
  split at supplies
  · exact .inl ⟨‹_›, (Option.some.inj supplies).symm⟩
  · split at supplies
    · exact .inr ⟨‹_›, (Option.some.inj supplies).symm⟩
    · cases supplies

/-- One of the two constants. -/
def Constant.Known (c : Constant) : Prop := c = ground ∨ c = supply

/-- The constants are told apart by whatever is not the same for ground and supply. -/
theorem Constant.Known.eq_of {β : Type} {f : Constant → β} (apart : f ground ≠ f supply)
    {c other : Constant} (one : c.Known) (two : other.Known) (same : f c = f other) :
    c = other := by
  rcases one with rfl | rfl <;> rcases two with rfl | rfl
  · rfl
  · exact absurd same apart
  · exact absurd same.symm apart
  · rfl

namespace Netlist

/-- The cells are the same but for the nets of their ports. -/
def SameCells (first second : Netlist) : Prop :=
  ∀ key : String, first.cells[key]?.map Cell.freed = second.cells[key]?.map Cell.freed

namespace SameCells

variable {first second third : Netlist}

theorem refl (netlist : Netlist) : SameCells netlist netlist := fun _ => rfl

theorem symm (same : SameCells first second) : SameCells second first :=
  fun key => (same key).symm

theorem trans (one : SameCells first second) (two : SameCells second third) :
    SameCells first third :=
  fun key => (one key).trans (two key)

/-- What does not depend on the nets of the ports is the same. -/
theorem map_eq {β : Type} (same : SameCells first second) {f : Cell → β}
    (blind : ∀ cell, f cell.freed = f cell) (key : String) :
    first.cells[key]?.map f = second.cells[key]?.map f := by
  have factors : f = f ∘ Cell.freed := funext fun cell => (blind cell).symm
  rw [factors, ← Option.map_map, ← Option.map_map, same key]

theorem cell (same : SameCells first second) {key : String} {found : Cell}
    (there : first.cells[key]? = some found) : ∃ other, second.cells[key]? = some other ∧
      other.name = found.name ∧ other.cellType = found.cellType := by
  have lookup := same key
  rw [there, Option.map_some] at lookup
  obtain ⟨other, otherThere, alike⟩ := Option.map_eq_some_iff.mp lookup.symm
  have name : other.freed.name = found.freed.name := congrArg Cell.name alike
  have cellType : other.freed.cellType = found.freed.cellType := congrArg Cell.cellType alike
  exact ⟨other, otherThere, name, cellType⟩

theorem hasPort (same : SameCells first second) {ref : PortRef} (there : second.HasPort ref) :
    first.HasPort ref := by
  obtain ⟨cell, found, member⟩ := there
  have lookup := same ref.cell
  rw [found, Option.map_some] at lookup
  obtain ⟨other, otherThere, alike⟩ := Option.map_eq_some_iff.mp lookup
  refine ⟨other, otherThere, ?_⟩
  rwa [← Cell.mem_ports_freed, alike, Cell.mem_ports_freed]

end SameCells

theorem sameCells_setPortNet (netlist : Netlist) (cell port : String) (net : Option String) :
    SameCells (netlist.setPortNet cell port net) netlist := by
  intro key
  rw [lookup_setPortNet]
  by_cases here : cell = key
  · rw [if_pos here, Option.map_map]
    congr 1
    funext held
    exact held.freed_withPortNet port net
  · rw [if_neg here]

/-- The constant whose cell drives a net. -/
def constantOf? (netlist : Netlist) (name : String) : Option Constant :=
  (netlist.driverCell? name).bind fun driver => Constant.ofCellType? driver.cellType

def usersOf (netlist : Netlist) (name : String) : List PortRef :=
  (netlist.nets[name]?.map (·.users)).getD []

/-- Whether a port is left unconnected when its net goes to a constant. -/
def floats (netlist : Netlist) (high : Bool) (ref : PortRef) : Bool :=
  !high && netlist.cells[ref.cell]?.any (·.isLutInput ref.port)

/-- The net that a port is on when some of the nets have been visited. -/
def landing (netlist : Netlist) (visited : List String) (ref : PortRef) : Option String :=
  (netlist.portNet? ref).bind fun name =>
    match netlist.constantOf? name with
    | none => some name
    | some c =>
      if name ∈ visited ∧ ref ∈ netlist.usersOf name then
        if netlist.floats c.high ref then none else some c.net
      else some name

/-- The users that a constant has got from the nets visited. -/
def usersAt (netlist : Netlist) (visited : List String) (c : Constant) : List PortRef :=
  visited.flatMap fun name =>
    if netlist.constantOf? name = some c then
      (netlist.usersOf name).filter fun ref => !netlist.floats c.high ref
    else []

theorem mem_usersAt_iff (netlist : Netlist) (visited : List String) (c : Constant)
    (ref : PortRef) : ref ∈ netlist.usersAt visited c ↔
      ∃ name ∈ visited, netlist.constantOf? name = some c ∧ ref ∈ netlist.usersOf name ∧
        netlist.floats c.high ref = false := by
  simp only [usersAt, List.mem_flatMap]
  grind

/-- A ground or supply cell that drives one of the nets visited. -/
def IsSwept (netlist : Netlist) (visited : List String) (key : String) : Prop :=
  ∃ name ∈ visited, (netlist.constantOf? name).isSome ∧
    (netlist.driverCell? name).map (·.name) = some key

theorem usersAt_append (netlist : Netlist) (earlier later : List String) (c : Constant) :
    netlist.usersAt (earlier ++ later) c = netlist.usersAt earlier c ++ netlist.usersAt later c :=
  List.flatMap_append

theorem usersAt_singleton (netlist : Netlist) (name : String) (c : Constant) :
    netlist.usersAt [name] c =
      if netlist.constantOf? name = some c then
        (netlist.usersOf name).filter fun ref => !netlist.floats c.high ref
      else [] := by
  simp [usersAt]

theorem isSwept_append_iff (netlist : Netlist) (visited : List String) (name key : String) :
    netlist.IsSwept (visited ++ [name]) key ↔ netlist.IsSwept visited key ∨
      (netlist.constantOf? name).isSome ∧ (netlist.driverCell? name).map (·.name) = some key := by
  simp only [IsSwept, List.mem_append, List.mem_singleton]
  constructor
  · rintro ⟨other, early | rfl, swept⟩
    · exact .inl ⟨other, early, swept⟩
    · exact .inr swept
  · rintro (⟨other, early, swept⟩ | swept)
    · exact ⟨other, .inl early, swept⟩
    · exact ⟨name, .inr rfl, swept⟩

theorem SameCells.floats {first second : Netlist} (same : SameCells first second) (high : Bool)
    (ref : PortRef) : first.floats high ref = second.floats high ref := by
  have types := same.map_eq (f := fun cell => cell.isLutInput ref.port) (fun _ => rfl) ref.cell
  have any : ∀ found : Option Cell, found.any (·.isLutInput ref.port) =
      (found.map fun cell => cell.isLutInput ref.port).getD false := by
    rintro (_ | _) <;> rfl
  unfold Netlist.floats
  rw [any, any, types]

theorem driverCell?_eq (netlist : Netlist) (name : String) : netlist.driverCell? name =
    (netlist.nets[name]?.bind (·.driver)).bind fun driver => netlist.cells[driver.cell]? := by
  unfold driverCell?
  cases there : netlist.nets[name]? with
  | none => rfl
  | some net => cases driver : net.driver <;> simp [driver]

theorem net_of_driverCell? {netlist : Netlist} {name : String} {driver : Cell}
    (drives : netlist.driverCell? name = some driver) :
    ∃ net ref, netlist.nets[name]? = some net ∧ net.driver = some ref ∧
      netlist.cells[ref.cell]? = some driver := by
  rw [driverCell?_eq] at drives
  obtain ⟨ref, isDriver, there⟩ := Option.bind_eq_some_iff.mp drives
  obtain ⟨net, found, driven⟩ := Option.bind_eq_some_iff.mp isDriver
  exact ⟨net, ref, found, driven, there⟩

/-- A net that is the same in both has the same cell as its driver. -/
theorem SameCells.driverCell? {first second : Netlist} (same : SameCells first second)
    {name : String} (nets : first.nets[name]? = second.nets[name]?) :
    (first.driverCell? name).map Cell.freed = (second.driverCell? name).map Cell.freed := by
  rw [driverCell?_eq, driverCell?_eq, nets]
  cases second.nets[name]?.bind (·.driver) with
  | none => rfl
  | some driver => exact same driver.cell

theorem SameCells.constantOf? {first second : Netlist} (same : SameCells first second)
    {name : String} (nets : first.nets[name]? = second.nets[name]?) :
    first.constantOf? name = second.constantOf? name := by
  have freed : ∀ netlist : Netlist, netlist.constantOf? name =
      ((netlist.driverCell? name).map Cell.freed).bind
        fun driver => Constant.ofCellType? driver.cellType := by
    intro netlist
    rw [Option.bind_map]
    rfl
  rw [freed, freed, same.driverCell? nets]

theorem constantOf?_eq_some_iff {netlist : Netlist} {name : String} {c : Constant} :
    netlist.constantOf? name = some c ↔ ∃ driver, netlist.driverCell? name = some driver ∧
      Constant.ofCellType? driver.cellType = some c :=
  Option.bind_eq_some_iff

theorem known_of_constantOf? {netlist : Netlist} {name : String} {c : Constant}
    (supplied : netlist.constantOf? name = some c) : c.Known := by
  obtain ⟨driver, -, supplies⟩ := constantOf?_eq_some_iff.mp supplied
  exact (Constant.ofCellType?_cases supplies).imp And.right And.right

theorem usersOf_of_net {netlist : Netlist} {name : String} {net : Net}
    (there : netlist.nets[name]? = some net) : netlist.usersOf name = net.users := by
  simp [usersOf, there]

/-- The users of a net in a consistent netlist are on that net. -/
theorem Consistent.portNet?_of_mem_usersOf {netlist : Netlist} (consistent : Consistent netlist)
    {name : String} {ref : PortRef} (listed : ref ∈ netlist.usersOf name) :
    netlist.portNet? ref = some name := by
  cases there : netlist.nets[name]? with
  | none => simp [usersOf, there] at listed
  | some net =>
    rw [usersOf_of_net there] at listed
    exact consistent.linked.resolved there ((net.mem_references_iff ref).mpr (.inr listed))

section Landing

variable {netlist : Netlist} {ref : PortRef} {name : String}

theorem landing_of_free (visited : List String) (free : netlist.portNet? ref = none) :
    netlist.landing visited ref = none := by
  simp [landing, free]

theorem landing_of_not_constant (visited : List String)
    (attached : netlist.portNet? ref = some name) (none : netlist.constantOf? name = none) :
    netlist.landing visited ref = some name := by
  simp [landing, attached, none]

theorem landing_of_unlisted {visited : List String} (attached : netlist.portNet? ref = some name)
    (stays : ¬ (name ∈ visited ∧ ref ∈ netlist.usersOf name)) :
    netlist.landing visited ref = some name := by
  cases supplied : netlist.constantOf? name with
  | none => exact landing_of_not_constant visited attached supplied
  | some c => simp [landing, attached, supplied, stays]

theorem landing_of_listed {visited : List String} {c : Constant}
    (attached : netlist.portNet? ref = some name) (supplied : netlist.constantOf? name = some c)
    (seen : name ∈ visited) (listed : ref ∈ netlist.usersOf name) :
    netlist.landing visited ref = if netlist.floats c.high ref then none else some c.net := by
  simp [landing, attached, supplied, seen, listed]

/-- A net that is visited in vain moves no port. -/
theorem landing_append_of_unlisted {visited : List String} {next : String}
    (stays : ∀ c, netlist.constantOf? next = some c → ref ∉ netlist.usersOf next) :
    netlist.landing (visited ++ [next]) ref = netlist.landing visited ref := by
  cases attached : netlist.portNet? ref with
  | none => rw [landing_of_free _ attached, landing_of_free _ attached]
  | some name =>
    cases supplied : netlist.constantOf? name with
    | none => rw [landing_of_not_constant _ attached supplied,
        landing_of_not_constant _ attached supplied]
    | some c =>
      have same : (name ∈ visited ++ [next] ∧ ref ∈ netlist.usersOf name) ↔
          (name ∈ visited ∧ ref ∈ netlist.usersOf name) := by
        simp only [List.mem_append, List.mem_singleton]
        constructor
        · rintro ⟨early | rfl, listed⟩
          · exact ⟨early, listed⟩
          · exact absurd listed (stays c supplied)
        · rintro ⟨early, listed⟩
          exact ⟨.inl early, listed⟩
      simp only [landing, attached, Option.bind_some, supplied, same]

end Landing

end Netlist

namespace ConstantSweep

open Netlist

theorem moveUser_eq {high : Bool} {netlist : Netlist} {user : PortRef} (net : Net)
    (there : netlist.HasPort user) :
    moveUser high netlist net user =
      if netlist.floats high user then (netlist.setPortNet user.cell user.port none, net)
      else (netlist.setPortNet user.cell user.port (some net.name),
        { net with users := net.users ++ [user] }) := by
  obtain ⟨cell, found, member⟩ := there
  simp [moveUser, floats, found, member]

/-- What moving users off a net does: each lands on the net of the constant unless it floats. -/
structure Moved (high : Bool) (users : List PortRef) (before : Netlist) (net : Net)
    (after : Netlist × Net) : Prop where
  cells : SameCells after.1 before
  nets : after.1.nets = before.nets
  ports : ∀ ref, after.1.portNet? ref =
    if ref ∈ users then if before.floats high ref then none else some net.name
    else before.portNet? ref
  collected : after.2 =
    { net with users := net.users ++ users.filter fun user => !before.floats high user }

theorem moved_of_foldl (high : Bool) {users : List PortRef} {netlist : Netlist} (net : Net)
    (there : ∀ user ∈ users, netlist.HasPort user) :
    Moved high users netlist net
      (users.foldl (fun (netlist, net) user => moveUser high netlist net user) (netlist, net)) := by
  induction users generalizing netlist net with
  | nil => exact ⟨.refl netlist, rfl, fun _ => by simp, by simp⟩
  | cons user rest ih =>
    have userThere := there user List.mem_cons_self
    let target := if netlist.floats high user then none else some net.name
    let kept : Net := if netlist.floats high user then net
      else { net with users := net.users ++ [user] }
    let next := netlist.setPortNet user.cell user.port target
    have one : moveUser high netlist net user = (next, kept) := by
      rw [moveUser_eq net userThere]
      by_cases free : netlist.floats high user <;> simp [next, target, kept, free]
    have same : SameCells next netlist := sameCells_setPortNet netlist user.cell user.port target
    have keptName : kept.name = net.name := by
      by_cases free : netlist.floats high user <;> simp [kept, free]
    have moved := ih kept fun user member =>
      same.hasPort (there user (List.mem_cons_of_mem _ member))
    rw [List.foldl_cons]
    dsimp only
    rw [one]
    -- A user listed twice is moved twice, to the same net.
    refine ⟨moved.cells.trans same, moved.nets, fun ref => ?_, ?_⟩
    · rw [moved.ports, keptName, same.floats, portNet?_setPortNet userThere]
      by_cases first : ref = user
      · subst first
        by_cases again : ref ∈ rest <;> simp [again, target]
      · simp [first]
    · rw [moved.collected]
      by_cases free : netlist.floats high user <;> simp [kept, free, same.floats]

def emptied (net : Net) : Net := { net with driver := none, users := [] }

theorem moved_of_moveUsers (high : Bool) {netlist : Netlist} {name : String} {old : Net} (net : Net)
    (found : netlist.nets[name]? = some old) (there : ∀ user ∈ old.users, netlist.HasPort user) :
    Moved high old.users { netlist with nets := netlist.nets.insert name (emptied old) } net
      (moveUsers high netlist name net) := by
  unfold moveUsers
  rw [found]
  exact moved_of_foldl high net there

/-- What has been collected for the constant of a level. -/
def collected (sweep : ConstantSweep) (high : Bool) : Net :=
  if high then sweep.supplyNet else sweep.groundNet

theorem visit_of_no_constant {sweep : ConstantSweep} {name : String}
    (none : sweep.netlist.constantOf? name = none) : sweep.visit name = sweep := by
  unfold visit
  cases driver : sweep.netlist.driverCell? name with
  | none => rfl
  | some cell =>
    have noConstant : Constant.ofCellType? cell.cellType = Option.none := by
      simpa [constantOf?, driver] using none
    simp only [noConstant]

/-- The effect of visiting a net that a constant's cell drives. -/
theorem visit_effects {sweep : ConstantSweep} {name : String} {driver : Cell} {c : Constant}
    (drives : sweep.netlist.driverCell? name = some driver)
    (supplies : Constant.ofCellType? driver.cellType = some c) :
    ((sweep.visit name).netlist, (sweep.visit name).collected c.high) =
        moveUsers c.high sweep.netlist name (sweep.collected c.high) ∧
      (sweep.visit name).collected (!c.high) = sweep.collected (!c.high) ∧
      (sweep.visit name).groundUsed = (sweep.groundUsed || !c.high) ∧
      (sweep.visit name).deadNets = sweep.deadNets ++ [name] ∧
      (sweep.visit name).deadCells = sweep.deadCells.insert driver.name := by
  unfold visit collected
  simp only [drives, supplies]
  cases c.high <;> simp

/-- A sweep that has visited some nets of a netlist. -/
structure SweepState (netlist : Netlist) (visited : List String) (sweep : ConstantSweep) :
    Prop where
  cells : SameCells sweep.netlist netlist
  nets : ∀ name : String, sweep.netlist.nets[name]? = netlist.nets[name]?.map fun net =>
    if name ∈ visited ∧ (netlist.constantOf? name).isSome then emptied net else net
  ports : ∀ ref, sweep.netlist.portNet? ref = netlist.landing visited ref
  collected : ∀ c : Constant, c.Known →
    sweep.collected c.high = { name := c.net, users := netlist.usersAt visited c }
  groundUsed : sweep.groundUsed = visited.any fun name => netlist.constantOf? name = some .ground
  deadNets : ∀ name, name ∈ sweep.deadNets ↔ name ∈ visited ∧ (netlist.constantOf? name).isSome
  deadCells : ∀ key, key ∈ sweep.deadCells ↔ netlist.IsSwept visited key

theorem sweepState_start (netlist : Netlist) : SweepState netlist [] { netlist } where
  cells := .refl netlist
  nets name := by cases netlist.nets[name]? <;> simp
  ports ref := by
    cases attached : netlist.portNet? ref with
    | none => exact (landing_of_free [] attached).symm
    | some name => exact (landing_of_unlisted attached (by simp)).symm
  collected c known := by
    rcases known with rfl | rfl <;> rfl
  groundUsed := rfl
  deadNets name := by simp
  deadCells key := by simp [IsSwept]

theorem SweepState.sameNet {netlist : Netlist} {visited : List String} {sweep : ConstantSweep}
    (state : SweepState netlist visited sweep) {name : String} (fresh : name ∉ visited) :
    sweep.netlist.nets[name]? = netlist.nets[name]? := by
  rw [state.nets]
  simp [fresh]

/-- Where no constant drives a net there is nothing to do. -/
theorem SweepState.skip {netlist : Netlist} {visited : List String} {sweep : ConstantSweep}
    (state : SweepState netlist visited sweep) {name : String}
    (none : netlist.constantOf? name = none) : SweepState netlist (visited ++ [name]) sweep where
  cells := state.cells
  nets query := by
    rw [state.nets]
    by_cases same : query = name
    · subst same
      simp [none]
    · simp [same]
  ports ref := by
    rw [state.ports, landing_append_of_unlisted]
    intro c supplied
    cases none.symm.trans supplied
  collected c known := by
    rw [state.collected c known, usersAt_append, usersAt_singleton]
    simp [none]
  groundUsed := by
    rw [state.groundUsed]
    simp [none]
  deadNets query := by
    rw [state.deadNets]
    by_cases same : query = name
    · subst same
      simp [none]
    · simp [same]
  deadCells key := by
    rw [state.deadCells, isSwept_append_iff]
    simp [none]

/-- A visit to a net that a constant's cell drives moves the users that the net had at first. -/
theorem SweepState.visit_moves {netlist : Netlist} {visited : List String}
    {sweep : ConstantSweep} (state : SweepState netlist visited sweep)
    (consistent : Consistent netlist) {name : String} (fresh : name ∉ visited) {driver : Cell}
    {c : Constant} (drives : sweep.netlist.driverCell? name = some driver)
    (supplies : Constant.ofCellType? driver.cellType = some c) :
    ∃ old, netlist.nets[name]? = some old ∧ Moved c.high old.users
      { sweep.netlist with nets := sweep.netlist.nets.insert name (emptied old) }
      (sweep.collected c.high)
      ((sweep.visit name).netlist, (sweep.visit name).collected c.high) := by
  obtain ⟨old, -, oldThere, -⟩ := net_of_driverCell? drives
  have found : netlist.nets[name]? = some old := (state.sameNet fresh).symm.trans oldThere
  have there : ∀ user ∈ old.users, sweep.netlist.HasPort user := by
    intro user member
    rw [← usersOf_of_net found] at member
    exact state.cells.hasPort (hasPort_of_portNet? (consistent.portNet?_of_mem_usersOf member))
  rw [(visit_effects drives supplies).1]
  exact ⟨old, found, moved_of_moveUsers c.high (sweep.collected c.high) oldThere there⟩

/-- The users that a visit moves are collected for their constant and for no other. -/
theorem SweepState.visit_collects {netlist : Netlist} {visited : List String}
    {sweep : ConstantSweep} (state : SweepState netlist visited sweep)
    (consistent : Consistent netlist) {name : String} (fresh : name ∉ visited) {c : Constant}
    (supplied : netlist.constantOf? name = some c) (other : Constant) (otherKnown : other.Known) :
    (sweep.visit name).collected other.high =
      { name := other.net, users := netlist.usersAt (visited ++ [name]) other } := by
  have known := known_of_constantOf? supplied
  obtain ⟨driver, drives, supplies⟩ := constantOf?_eq_some_iff.mp
    ((state.cells.constantOf? (state.sameNet fresh)).trans supplied)
  rw [usersAt_append, usersAt_singleton]
  by_cases same : other = c
  · subst same
    obtain ⟨old, found, moved⟩ := state.visit_moves consistent fresh drives supplies
    have left : (sweep.visit name).collected other.high = _ := moved.collected
    rw [left, state.collected other known, if_pos supplied, usersOf_of_net found]
    have blind : ∀ user, ({ sweep.netlist with
        nets := sweep.netlist.nets.insert name (emptied old) } : Netlist).floats other.high user =
        netlist.floats other.high user := state.cells.floats other.high
    simp only [blind]
  · have level : other.high = !c.high := by
      have apart : other.high ≠ c.high :=
        fun high => same (otherKnown.eq_of (by decide : Constant.ground.high ≠ _) known high)
      cases level : c.high <;> simpa [level] using apart
    rw [level, (visit_effects drives supplies).2.1, ← level, state.collected other otherKnown]
    simp [supplied, Ne.symm same]

/-- A visit to a net that a constant's cell drives. -/
theorem SweepState.visit_of_constant {netlist : Netlist} {visited : List String}
    {sweep : ConstantSweep} (state : SweepState netlist visited sweep)
    (consistent : Consistent netlist) {name : String} (fresh : name ∉ visited) {c : Constant}
    (supplied : netlist.constantOf? name = some c) :
    SweepState netlist (visited ++ [name]) (sweep.visit name) := by
  have known := known_of_constantOf? supplied
  -- The visits before have changed neither this net nor the type of its driver.
  obtain ⟨driver, drives, supplies⟩ := constantOf?_eq_some_iff.mp
    ((state.cells.constantOf? (state.sameNet fresh)).trans supplied)
  obtain ⟨-, -, groundUsed, deadNets, deadCells⟩ := visit_effects drives supplies
  obtain ⟨old, found, moved⟩ := state.visit_moves consistent fresh drives supplies
  have floats : ∀ ref, sweep.netlist.floats c.high ref = netlist.floats c.high ref :=
    state.cells.floats c.high
  constructor
  case cells => exact moved.cells.trans state.cells
  case nets =>
    intro query
    have left : (sweep.visit name).netlist.nets = sweep.netlist.nets.insert name (emptied old) :=
      moved.nets
    rw [left, NameMap.lookup_insert, state.nets]
    by_cases same : name = query
    · subst same
      simp [found, supplied]
    · simp [same, Ne.symm same]
  case ports =>
    intro ref
    rw [moved.ports ref]
    have before : ({ sweep.netlist with nets := sweep.netlist.nets.insert name (emptied old) } :
        Netlist).portNet? ref = netlist.landing visited ref := state.ports ref
    by_cases listed : ref ∈ netlist.usersOf name
    · rw [landing_of_listed (consistent.portNet?_of_mem_usersOf listed) supplied (by simp) listed]
      rw [usersOf_of_net found] at listed
      rw [if_pos listed, state.collected c known, ← floats]
      rfl
    · rw [landing_append_of_unlisted fun _ _ => listed]
      rw [usersOf_of_net found] at listed
      rw [if_neg listed, before]
  case collected => exact state.visit_collects consistent fresh supplied
  case groundUsed =>
    rw [groundUsed, state.groundUsed, List.any_append]
    rcases known with rfl | rfl <;> simp [supplied, Constant.ground, Constant.supply]
  case deadNets =>
    intro query
    rw [deadNets, List.mem_append, state.deadNets, List.mem_append]
    by_cases same : query = name
    · subst same
      simp [supplied]
    · simp [same]
  case deadCells =>
    intro key
    have driverName : (netlist.driverCell? name).map (·.name) = some driver.name := by
      have freed := congrArg (Option.map (·.name)) (state.cells.driverCell? (state.sameNet fresh))
      rw [Option.map_map, Option.map_map, drives] at freed
      exact freed.symm
    rw [deadCells, Std.ExtTreeSet.mem_insert, state.deadCells, isSwept_append_iff, driverName]
    simp [supplied, or_comm]

/-- Visiting nets one after the other. -/
theorem SweepState.foldl_visit {netlist : Netlist} (consistent : Consistent netlist)
    {visited rest : List String} {sweep : ConstantSweep} (state : SweepState netlist visited sweep)
    (distinct : (visited ++ rest).Nodup) :
    SweepState netlist (visited ++ rest) (rest.foldl ConstantSweep.visit sweep) := by
  induction rest generalizing visited sweep with
  | nil => simpa using state
  | cons name rest ih =>
    have fresh : name ∉ visited := by
      intro member
      exact (List.nodup_append.mp distinct).2.2 name member name List.mem_cons_self rfl
    have next : SweepState netlist (visited ++ [name]) (sweep.visit name) := by
      cases supplied : netlist.constantOf? name with
      | none =>
        rw [visit_of_no_constant ((state.cells.constantOf? (state.sameNet fresh)).trans supplied)]
        exact state.skip supplied
      | some c => exact state.visit_of_constant consistent fresh supplied
    rw [List.append_cons] at distinct ⊢
    exact ih next distinct

theorem sweepState_ofNetlist {netlist : Netlist} (consistent : Consistent netlist) :
    SweepState netlist netlist.nets.keys (ofNetlist netlist) :=
  (sweepState_start netlist).foldl_visit consistent Std.ExtTreeMap.nodup_keys

end ConstantSweep

namespace Netlist

/-- Whether a cell drives a net at a constant. -/
def drivesConstant (netlist : Netlist) (key : String) : Bool :=
  netlist.nets.keys.any fun name => (netlist.constantOf? name).isSome &&
    (netlist.nets[name]?.bind (·.driver)).any (·.cell == key)

theorem drivesConstant_iff (netlist : Netlist) (key : String) : netlist.drivesConstant key = true ↔
    ∃ name net ref c, netlist.nets[name]? = some net ∧ net.driver = some ref ∧ ref.cell = key ∧
      netlist.constantOf? name = some c := by
  simp only [drivesConstant, List.any_eq_true, NameMap.mem_keys_iff, Bool.and_eq_true,
    Option.isSome_iff_exists, Option.any_eq_true, Option.bind_eq_some_iff, beq_iff_eq]
  constructor
  · rintro ⟨name, -, ⟨c, supplied⟩, ref, ⟨net, found, driven⟩, here⟩
    exact ⟨name, net, ref, c, found, driven, here, supplied⟩
  · rintro ⟨name, net, ref, c, found, driven, here, supplied⟩
    exact ⟨name, ⟨net, found⟩, ⟨c, supplied⟩, ref, ⟨net, found, driven⟩, here⟩

theorem isSwept_keys_iff {netlist : Netlist} (named : Named netlist) (key : String) :
    netlist.IsSwept netlist.nets.keys key ↔ netlist.drivesConstant key = true := by
  rw [drivesConstant_iff]
  constructor
  · rintro ⟨name, -, supplied, driverName⟩
    obtain ⟨c, supplied⟩ := Option.isSome_iff_exists.mp supplied
    obtain ⟨driver, drives, rfl⟩ := Option.map_eq_some_iff.mp driverName
    obtain ⟨net, ref, found, driven, there⟩ := net_of_driverCell? drives
    exact ⟨name, net, ref, c, found, driven, (named.cell there).symm, supplied⟩
  · rintro ⟨name, net, ref, c, found, driven, rfl, supplied⟩
    obtain ⟨driver, drives, -⟩ := constantOf?_eq_some_iff.mp supplied
    obtain ⟨net', ref', found', driven', there⟩ := net_of_driverCell? drives
    cases found.symm.trans found'
    cases driven.symm.trans driven'
    refine ⟨name, (NameMap.mem_keys_iff ..).mpr ⟨net, found⟩, by simp [supplied], ?_⟩
    rw [drives, Option.map_some, named.cell there]

theorem cell_of_drivesConstant {netlist : Netlist} {key : String}
    (drives : netlist.drivesConstant key = true) : ∃ cell, netlist.cells[key]? = some cell ∧
      (cell.cellType = CellType.ground ∨ cell.cellType = CellType.supply) := by
  obtain ⟨name, net, ref, c, found, driven, rfl, supplied⟩ := (drivesConstant_iff ..).mp drives
  obtain ⟨driver, isDriver, supplies⟩ := constantOf?_eq_some_iff.mp supplied
  obtain ⟨net', ref', found', driven', there⟩ := net_of_driverCell? isDriver
  cases found.symm.trans found'
  cases driven.symm.trans driven'
  exact ⟨driver, there, (Constant.ofCellType?_cases supplies).imp And.left And.left⟩

/-- The cell that drives a constant net is no table, and so none of its ports floats. -/
theorem floats_of_drivesConstant {netlist : Netlist} {ref : PortRef}
    (drives : netlist.drivesConstant ref.cell = true) (high : Bool) :
    netlist.floats high ref = false := by
  obtain ⟨cell, there, cellType⟩ := cell_of_drivesConstant drives
  have noTable : cell.isLutInput ref.port = false := by
    unfold Cell.isLutInput Cell.isLut Cell.isLogicBlock
    rcases cellType with isGround | isSupply
    · rw [isGround]
      rfl
    · rw [isSupply]
      rfl
  simp [floats, there, noTable]

end Netlist

namespace ConstantSweep

open Netlist

theorem swept_eq (sweep : ConstantSweep) : sweep.swept =
    ({ sweep.netlist with
      nets := sweep.deadNets.foldl (fun nets name => nets.erase name) sweep.netlist.nets } :
      Netlist).withoutCells sweep.deadCells.toList :=
  removeCells_eq ..

section Swept

variable {netlist : Netlist} (consistent : Consistent netlist)

include consistent

theorem mem_deadCells_iff (key : String) : key ∈ (ofNetlist netlist).deadCells.toList ↔
    netlist.drivesConstant key = true := by
  rw [Std.ExtTreeSet.mem_toList, (sweepState_ofNetlist consistent).deadCells,
    isSwept_keys_iff consistent.toNamed]

theorem lookup_cells_swept (key : String) : (ofNetlist netlist).swept.cells[key]? =
    if netlist.drivesConstant key then none else (ofNetlist netlist).netlist.cells[key]? := by
  rw [swept_eq, lookup_cells_withoutCells]
  simp only [mem_deadCells_iff consistent]

theorem portNet?_swept (ref : PortRef) : (ofNetlist netlist).swept.portNet? ref =
    if netlist.drivesConstant ref.cell then none else netlist.landing netlist.nets.keys ref := by
  rw [swept_eq, portNet?_withoutCells]
  simp only [mem_deadCells_iff consistent]
  congr 1
  exact (sweepState_ofNetlist consistent).ports ref

theorem lookup_nets_swept (name : String) : (ofNetlist netlist).swept.nets[name]? =
    if (netlist.constantOf? name).isSome then none
    else netlist.nets[name]?.map (·.keepRefs fun ref => !netlist.drivesConstant ref.cell) := by
  have state := sweepState_ofNetlist consistent
  rw [swept_eq, lookup_nets_withoutCells]
  dsimp only
  rw [NameMap.lookup_erase_all, state.nets]
  have dead := state.deadNets name
  rw [NameMap.mem_keys_iff] at dead
  cases found : netlist.nets[name]? with
  | none =>
    have absent : netlist.constantOf? name = none := by
      simp [constantOf?, driverCell?, found]
    simp [absent]
  | some net =>
    cases supplied : netlist.constantOf? name with
    | some c =>
      rw [if_pos (dead.mpr ⟨⟨net, found⟩, by simp [supplied]⟩)]
      rfl
    | none =>
      rw [if_neg fun member => by simpa [supplied] using (dead.mp member).2]
      simp only [Option.isSome_none, Bool.false_eq_true, and_false, if_false, Option.map_some,
        Option.some.injEq]
      apply Net.keepRefs_congr
      intro ref member
      -- A port that a remaining net refers to is on that net still, so its removal is seen there.
      have attached := consistent.linked.resolved found member
      have stays : ({ (ofNetlist netlist).netlist with
          nets := (ofNetlist netlist).deadNets.foldl (fun nets name => nets.erase name)
            (ofNetlist netlist).netlist.nets } : Netlist).portNet? ref = some name :=
        (state.ports ref).trans (landing_of_not_constant _ attached supplied)
      simp [stays, mem_deadCells_iff consistent]

end Swept

end ConstantSweep

end TileFabric
