import TileFabric.Proofs.Netlist.Removal
import TileFabric.Proofs.Runs

/-!
# Editing keeps ports and nets paired

A netlist that is built by edits alone is better than consistent: a port that is attached is listed
by its net exactly once, and where its direction says. Each edit keeps this invariant on every way
that it can end. Attaching adds one reference to one net, and needs that no net lists a free port;
detaching a port and removing a cell drop exactly the references to ports that are attached no more.
-/

set_option autoImplicit false

namespace TileFabric

namespace Net

/-- A net with one more port, as its driver or behind its users. -/
def withPort (direction : PortDirection) (ref : PortRef) (net : Net) : Net :=
  if direction = .output then { net with driver := some ref }
  else { net with users := net.users ++ [ref] }

/-- A net lists a port once, and where its direction says. -/
structure Lists (net : Net) (ref : PortRef) (direction : PortDirection) : Prop where
  once : net.references.count ref = 1
  place : if direction = .output then net.driver = some ref else ref ∈ net.users

theorem withPort_name (direction : PortDirection) (ref : PortRef) (net : Net) :
    (net.withPort direction ref).name = net.name := by
  unfold withPort
  split <;> rfl

/-- If an output finds no driver, no reference gives way to the new one. -/
theorem references_withPort {direction : PortDirection} {net : Net}
    (undriven : direction = .output → net.driver = none) (ref : PortRef) :
    (net.withPort direction ref).references.Perm (ref :: net.references) := by
  unfold withPort references
  split
  · rename_i isOutput
    simp [undriven isOutput]
  · simp only [← List.append_assoc]
    exact List.perm_append_singleton ..

theorem lists_withPort {direction : PortDirection} {net : Net}
    (undriven : direction = .output → net.driver = none) {ref : PortRef}
    (fresh : ref ∉ net.references) : (net.withPort direction ref).Lists ref direction where
  once := by
    rw [(references_withPort undriven ref).count_eq, List.count_cons_self,
      List.count_eq_zero_of_not_mem fresh]
  place := by
    unfold withPort
    by_cases isOutput : direction = .output <;> simp [isOutput]

theorem Lists.withPort {direction other : PortDirection} {net : Net}
    (undriven : other = .output → net.driver = none) {ref new : PortRef}
    (lists : net.Lists ref direction) (apart : ref ≠ new) :
    (net.withPort other new).Lists ref direction where
  once := by
    rw [(references_withPort undriven new).count_eq, List.count_cons_of_ne (Ne.symm apart)]
    exact lists.once
  place := by
    have place := lists.place
    unfold Net.withPort
    split at place
    · rename_i isOutput
      have driven : other ≠ .output := by
        intro isOther
        rw [undriven isOther] at place
        cases place
      simpa [isOutput, driven] using place
    · rename_i notOutput
      by_cases isOther : other = .output
      · simpa [notOutput, isOther] using place
      · simp [notOutput, isOther, place]

theorem Lists.keepRefs {direction : PortDirection} {net : Net} {ref : PortRef}
    (lists : net.Lists ref direction) {keep : PortRef → Bool} (kept : keep ref = true) :
    (net.keepRefs keep).Lists ref direction where
  once := by
    rw [references_keepRefs, List.count_filter kept]
    exact lists.once
  place := by
    have place := lists.place
    split at place
    · rename_i isOutput
      simp [isOutput, Net.keepRefs, place, Option.filter_some, kept]
    · rename_i notOutput
      simp [notOutput, Net.keepRefs, place, kept]

end Net

namespace Netlist

/-- A port by reference. -/
def port? (netlist : Netlist) (ref : PortRef) : Option Port :=
  netlist.cells[ref.cell]?.bind (·.ports[ref.port]?)

theorem portNet?_eq (netlist : Netlist) (ref : PortRef) :
    netlist.portNet? ref = (netlist.port? ref).bind (·.net) := by
  unfold portNet? port?
  rw [Option.bind_assoc]
  rfl

/-- Cells and nets stand under their names, an attached port is listed by its net, and what a net
lists is a port attached to it. -/
structure Paired (netlist : Netlist) : Prop extends Named netlist where
  listed : ∀ {ref : PortRef} {p : Port} {name : String}, netlist.port? ref = some p →
    p.net = some name → ∃ net, netlist.nets[name]? = some net ∧ net.Lists ref p.direction
  resolved : ∀ {name : String} {net : Net} {ref : PortRef}, netlist.nets[name]? = some net →
    ref ∈ net.references → ∃ p, netlist.port? ref = some p ∧ p.net = some name

theorem Paired.consistent {netlist : Netlist} (paired : Paired netlist) : Consistent netlist where
  toNamed := paired.toNamed
  linked := by
    constructor
    · intro name net ref there member
      obtain ⟨p, isPort, onNet⟩ := paired.resolved there member
      rw [portNet?_eq, isPort]
      exact onNet
    · intro ref name attached
      rw [portNet?_eq] at attached
      obtain ⟨p, isPort, onNet⟩ := Option.bind_eq_some_iff.mp attached
      obtain ⟨net, there, -⟩ := paired.listed isPort onNet
      exact (NameMap.mem_iff_lookup ..).mpr ⟨net, there⟩

theorem Named.setPortNet {netlist : Netlist} (named : Named netlist) (cell port : String)
    (net : Option String) : Named (netlist.setPortNet cell port net) where
  cell {key found} there := by
    rw [lookup_setPortNet] at there
    split at there
    · obtain ⟨old, oldThere, rfl⟩ := Option.map_eq_some_iff.mp there
      exact (named.cell oldThere : old.name = key)
    · exact named.cell there
  net := named.net

theorem port?_setPortNet (netlist : Netlist) (target : PortRef) (net : Option String)
    (ref : PortRef) : (netlist.setPortNet target.cell target.port net).port? ref =
      if ref = target then (netlist.port? ref).map ({ · with net }) else netlist.port? ref := by
  unfold port?
  rw [lookup_setPortNet]
  by_cases sameCell : target.cell = ref.cell
  · rw [if_pos sameCell]
    cases there : netlist.cells[ref.cell]? with
    | none => simp
    | some cell =>
      have ports : (cell.withPortNet target.port net).ports[ref.port]? =
          if target.port = ref.port then cell.ports[ref.port]?.map ({ · with net })
          else cell.ports[ref.port]? := NameMap.lookup_modify ..
      have same : ref = target ↔ target.port = ref.port := by
        cases ref
        cases target
        simp_all [eq_comm]
      simp only [Option.map_some, Option.bind_some, ports, same]
  · have apart : ref ≠ target := by
      rintro rfl
      exact sameCell rfl
    rw [if_neg sameCell, if_neg apart]

/-- The net of a name as it is when a port is attached to it: new if it is not there. -/
def netFor (netlist : Netlist) (name : String) : Net := netlist.nets.getD name { name }

theorem netFor_of_net {netlist : Netlist} {name : String} {net : Net}
    (there : netlist.nets[name]? = some net) : netlist.netFor name = net := by
  rw [netFor, Std.ExtTreeMap.getD_eq_getD_getElem?, there, Option.getD_some]

theorem netFor_cases (netlist : Netlist) (name : String) :
    netlist.nets[name]? = some (netlist.netFor name) ∨
      netlist.nets[name]? = none ∧ netlist.netFor name = { name } := by
  cases there : netlist.nets[name]? with
  | none =>
    rw [netFor, Std.ExtTreeMap.getD_eq_getD_getElem?, there]
    exact .inr ⟨rfl, rfl⟩
  | some net => exact .inl (congrArg some (netFor_of_net there).symm)

/-- The netlist with a port attached to a net. -/
def attach (net : String) (ref : PortRef) (direction : PortDirection) (netlist : Netlist) :
    Netlist :=
  setPortNet
    { netlist with nets := netlist.nets.insert net ((netlist.netFor net).withPort direction ref) }
    ref.cell ref.port (some net)

/-- A port that can be attached to a net: it is free, and if it is an output, nothing drives the
net. -/
def Attachable (net : String) (ref : PortRef) (netlist : Netlist) : Prop :=
  ∃ p, netlist.port? ref = some p ∧ p.net = none ∧
    (p.direction = .output → (netlist.netFor net).driver = none)

/-- Connecting fails and changes nothing, or it attaches a port that can be attached. -/
theorem connect_cases (net cell port : String) (netlist : Netlist) :
    (¬ netlist.Attachable net ⟨cell, port⟩ ∧
        ∃ e, (connect net cell port).run netlist = (.error e, netlist)) ∨
      ∃ p, netlist.port? ⟨cell, port⟩ = some p ∧ p.net = none ∧
        (p.direction = .output → (netlist.netFor net).driver = none) ∧
        (connect net cell port).run netlist =
          (.ok (), netlist.attach net ⟨cell, port⟩ p.direction) := by
  unfold connect
  rw [run_get_bind]
  cases there : netlist.cells[cell]? with
  | none => exact .inl ⟨by simp [Attachable, port?, there], _, rfl⟩
  | some c =>
    dsimp only
    cases isPort : c.ports[port]? with
    | none => exact .inl ⟨by simp [Attachable, port?, there, isPort], _, rfl⟩
    | some p =>
      have found : netlist.port? ⟨cell, port⟩ = some p := by simp [port?, there, isPort]
      dsimp only
      by_cases inUse : p.net.isSome
      · rw [if_pos inUse]
        have taken : p.net ≠ none := Option.isSome_iff_ne_none.mp inUse
        exact .inl ⟨by simp [Attachable, found, taken], _, rfl⟩
      · rw [if_neg inUse]
        have free : p.net = none := by simpa using inUse
        have target : netlist.nets.getD net { name := net } = netlist.netFor net := rfl
        rw [target]
        -- Only an output minds a driver that is there.
        cases direction : p.direction with
        | output =>
          cases driver : (netlist.netFor net).driver with
          | some driving => exact .inl ⟨by simp [Attachable, found, direction, driver], _, rfl⟩
          | none => exact .inr ⟨p, found, free, fun _ => rfl, by rw [direction]; rfl⟩
        | input => exact .inr ⟨p, found, free, by simp [direction], by rw [direction]; rfl⟩
        | inout => exact .inr ⟨p, found, free, by simp [direction], by rw [direction]; rfl⟩

theorem lookup_nets_attach (netlist : Netlist) (net : String) (ref : PortRef)
    (direction : PortDirection) (name : String) :
    (netlist.attach net ref direction).nets[name]? =
      if net = name then some ((netlist.netFor net).withPort direction ref)
      else netlist.nets[name]? :=
  NameMap.lookup_insert ..

theorem port?_attach (netlist : Netlist) (net : String) (ref : PortRef) (direction : PortDirection)
    (other : PortRef) : (netlist.attach net ref direction).port? other =
      if other = ref then (netlist.port? other).map ({ · with net := some net })
      else netlist.port? other :=
  port?_setPortNet ..

theorem Named.attach {netlist : Netlist} (named : Named netlist) (net : String) (ref : PortRef)
    (direction : PortDirection) : Named (netlist.attach net ref direction) where
  cell := (named.setPortNet ref.cell ref.port (some net)).cell
  net {key found} there := by
    rw [lookup_nets_attach] at there
    split at there
    · rename_i same
      cases there
      rw [Net.withPort_name, ← same]
      rcases netFor_cases netlist net with held | ⟨-, new⟩
      · exact named.net held
      · rw [new]
    · exact named.net there

theorem ne_of_free {netlist : Netlist} {ref other : PortRef} {p q : Port} {name : String}
    (isPort : netlist.port? ref = some p) (free : p.net = none)
    (isOther : netlist.port? other = some q) (onNet : q.net = some name) : other ≠ ref := by
  rintro rfl
  cases isPort.symm.trans isOther
  cases free.symm.trans onNet

/-- What a net lists is attached to it: if it is new, it lists nothing. -/
theorem Paired.resolved_netFor {netlist : Netlist} (paired : Paired netlist) {net : String}
    {ref : PortRef} (member : ref ∈ (netlist.netFor net).references) :
    ∃ p, netlist.port? ref = some p ∧ p.net = some net := by
  rcases netFor_cases netlist net with held | ⟨-, new⟩
  · exact paired.resolved held member
  · rw [new] at member
    cases member

/-- Attaching a free port, where an output finds no driver. -/
theorem Paired.attach {netlist : Netlist} (paired : Paired netlist) {net : String} {ref : PortRef}
    {p : Port} (isPort : netlist.port? ref = some p) (free : p.net = none)
    (undriven : p.direction = .output → (netlist.netFor net).driver = none) :
    Paired (netlist.attach net ref p.direction) := by
  have fresh : ref ∉ (netlist.netFor net).references := by
    intro member
    obtain ⟨q, isQ, onNet⟩ := paired.resolved_netFor member
    exact ne_of_free isPort free isQ onNet rfl
  refine { toNamed := paired.toNamed.attach .., listed := ?_, resolved := ?_ }
  · intro other q name isQ onNet
    rw [port?_attach] at isQ
    rw [lookup_nets_attach]
    split at isQ
    · rename_i here
      subst here
      rw [isPort] at isQ
      cases isQ
      cases onNet
      exact ⟨_, if_pos rfl, Net.lists_withPort undriven fresh⟩
    · rename_i apart
      obtain ⟨held, there, lists⟩ := paired.listed isQ onNet
      by_cases same : net = name
      · subst same
        rw [← netFor_of_net there] at lists
        exact ⟨_, if_pos rfl, lists.withPort undriven apart⟩
      · exact ⟨held, (if_neg same).trans there, lists⟩
  · intro name held other there member
    have before : (∃ q, netlist.port? other = some q ∧ q.net = some name) ∨
        other = ref ∧ net = name := by
      rw [lookup_nets_attach] at there
      split at there
      · rename_i same
        subst same
        cases there
        rw [(Net.references_withPort undriven ref).mem_iff, List.mem_cons] at member
        rcases member with here | old
        · exact .inr ⟨here, rfl⟩
        · exact .inl (paired.resolved_netFor old)
      · exact .inl (paired.resolved there member)
    rw [port?_attach]
    rcases before with ⟨q, isQ, onNet⟩ | ⟨rfl, rfl⟩
    · have apart := ne_of_free isPort free isQ onNet
      exact ⟨q, (if_neg apart).trans isQ, onNet⟩
    · exact ⟨_, by rw [if_pos rfl, isPort]; rfl, rfl⟩

/-- Detaching ports and dropping the references to them, as far as they were attached. -/
theorem Paired.detach {before after : Netlist} (paired : Paired before) (named : Named after)
    (gone : PortRef → Prop) [DecidablePred gone]
    (kept : ∀ ref, ¬ gone ref → after.port? ref = before.port? ref)
    (freed : ∀ ref p, gone ref → after.port? ref = some p → p.net = none)
    (nets : ∀ name : String, after.nets[name]? = before.nets[name]?.map (·.keepRefs fun ref =>
      !decide (gone ref ∧ before.portNet? ref = some name))) : Paired after where
  toNamed := named
  listed := by
    intro ref p name isPort onNet
    have stays : ¬ gone ref := by
      intro isGone
      cases (freed ref p isGone isPort).symm.trans onNet
    rw [kept ref stays] at isPort
    obtain ⟨net, there, lists⟩ := paired.listed isPort onNet
    exact ⟨_, by rw [nets, there]; rfl, lists.keepRefs (by simp [stays])⟩
  resolved := by
    intro name net ref there member
    rw [nets] at there
    obtain ⟨old, oldThere, rfl⟩ := Option.map_eq_some_iff.mp there
    rw [Net.references_keepRefs, List.mem_filter] at member
    obtain ⟨p, isPort, onNet⟩ := paired.resolved oldThere member.1
    have attached : before.portNet? ref = some name := by
      rw [portNet?_eq, isPort]
      exact onNet
    have stays : ¬ gone ref := by simpa [attached] using member.2
    exact ⟨p, (kept ref stays).trans isPort, onNet⟩

theorem Named.disconnect {netlist : Netlist} (named : Named netlist) (cell port : String) :
    Named (netlist.disconnect cell port) where
  cell {key found} there := by
    cases attached : netlist.portNet? ⟨cell, port⟩ with
    | none =>
      rw [disconnect_free attached] at there
      exact named.cell there
    | some name =>
      rw [disconnect_attached attached] at there
      exact (named.setPortNet cell port none).cell there
  net {key found} there := by
    rw [lookup_nets_disconnect] at there
    obtain ⟨old, oldThere, rfl⟩ := Option.map_eq_some_iff.mp there
    exact (Net.keepRefs_name ..).trans (named.net oldThere)

theorem port?_disconnect (netlist : Netlist) (cell port : String) (ref : PortRef) :
    (netlist.disconnect cell port).port? ref =
      if ref = ⟨cell, port⟩ then (netlist.port? ref).map ({ · with net := none })
      else netlist.port? ref := by
  cases attached : netlist.portNet? ⟨cell, port⟩ with
  | none =>
    rw [disconnect_free attached]
    split
    · rename_i here
      subst here
      rw [portNet?_eq] at attached
      cases isPort : netlist.port? ⟨cell, port⟩ with
      | none => rfl
      | some p =>
        rw [isPort] at attached
        have free : p.net = none := attached
        rw [Option.map_some, ← free]
    · rfl
  | some name =>
    rw [disconnect_attached attached]
    exact port?_setPortNet netlist ⟨cell, port⟩ none ref

theorem Paired.disconnect {netlist : Netlist} (paired : Paired netlist) (cell port : String) :
    Paired (netlist.disconnect cell port) := by
  apply paired.detach (paired.toNamed.disconnect cell port) (· = ⟨cell, port⟩)
  · intro ref stays
    exact (port?_disconnect ..).trans (if_neg stays)
  · intro ref p gone isPort
    rw [port?_disconnect, if_pos gone] at isPort
    obtain ⟨old, -, rfl⟩ := Option.map_eq_some_iff.mp isPort
    rfl
  · exact lookup_nets_disconnect netlist cell port

theorem port?_withoutCells (names : List String) (netlist : Netlist) (ref : PortRef) :
    (netlist.withoutCells names).port? ref =
      if ref.cell ∈ names then none else netlist.port? ref := by
  unfold port?
  rw [lookup_cells_withoutCells]
  split <;> rfl

theorem Paired.withoutCells {netlist : Netlist} (paired : Paired netlist) (names : List String) :
    Paired (netlist.withoutCells names) := by
  apply paired.detach (paired.toNamed.withoutCells names) (·.cell ∈ names)
  · intro ref stays
    exact (port?_withoutCells ..).trans (if_neg stays)
  · intro ref p gone isPort
    rw [port?_withoutCells, if_pos gone] at isPort
    cases isPort
  · exact lookup_nets_withoutCells names netlist

theorem run_addCell {cell : Cell} {netlist : Netlist} (fresh : cell.name ∉ netlist.cells) :
    (addCell cell).run netlist =
      (.ok (), { netlist with cells := netlist.cells.insert cell.name cell }) := by
  unfold addCell
  rw [run_get_bind]
  simp only [Std.ExtTreeMap.contains_iff_mem, if_neg fresh]
  rfl

theorem run_addCell_of_taken {cell : Cell} {netlist : Netlist} (taken : cell.name ∈ netlist.cells) :
    (addCell cell).run netlist = (.error (.duplicateCell cell.name), netlist) := by
  unfold addCell
  rw [run_get_bind]
  simp only [Std.ExtTreeMap.contains_iff_mem, if_pos taken]
  rfl

/-- A new cell whose ports are all free. -/
theorem Paired.insertCell {netlist : Netlist} (paired : Paired netlist) {cell : Cell}
    (fresh : cell.name ∉ netlist.cells) (unattached : ∀ port, cell.portNet? port = none) :
    Paired { netlist with cells := netlist.cells.insert cell.name cell } := by
  let after : Netlist := { netlist with cells := netlist.cells.insert cell.name cell }
  have ports : ∀ ref, after.port? ref =
      if cell.name = ref.cell then cell.ports[ref.port]? else netlist.port? ref := by
    intro ref
    unfold port?
    rw [NameMap.lookup_insert]
    split <;> rfl
  refine { cell := ?_, net := paired.net, listed := ?_, resolved := ?_ }
  · intro key found there
    rw [NameMap.lookup_insert] at there
    split at there
    · rename_i same
      cases there
      exact same
    · exact paired.cell there
  · intro ref p name isPort onNet
    rw [ports] at isPort
    split at isPort
    · have attached : cell.portNet? ref.port = some name :=
        Option.bind_eq_some_iff.mpr ⟨p, isPort, onNet⟩
      cases (unattached ref.port).symm.trans attached
    · exact paired.listed isPort onNet
  · intro name net ref there member
    obtain ⟨p, isPort, onNet⟩ := paired.resolved there member
    have old : cell.name ≠ ref.cell := by
      intro same
      have absent := (NameMap.not_mem_iff_lookup ..).mp fresh
      rw [same] at absent
      rw [port?, absent] at isPort
      cases isPort
    exact ⟨p, (ports ref).trans ((if_neg old).trans isPort), onNet⟩

/-- What can be asked of a netlist when it is edited; a cell comes with its ports free. -/
inductive EditStep where
  | addCell (cell : Cell) (unattached : ∀ port, cell.portNet? port = none)
  | connect (net cell port : String)
  | disconnect (cell port : String)
  | removeCell (name : String)
  | freshCellName (cellType : String)

/-- The netlist that an edit leaves behind, whether it succeeds or fails. -/
def EditStep.apply (netlist : Netlist) : EditStep → Netlist
  | .addCell cell _ => ((Netlist.addCell cell).run netlist).2
  | .connect net cell port => ((Netlist.connect net cell port).run netlist).2
  | .disconnect cell port => netlist.disconnect cell port
  | .removeCell name => (netlist.removeCell name).2
  | .freshCellName cellType => (netlist.freshCellName cellType).2

/-- The netlist that a sequence of edits makes of the empty one. -/
def edited (steps : List EditStep) : Netlist := steps.foldl EditStep.apply .empty

theorem Paired.apply {netlist : Netlist} (paired : Paired netlist) (step : EditStep) :
    Paired (step.apply netlist) := by
  cases step with
  | addCell cell unattached =>
    simp only [EditStep.apply]
    by_cases taken : cell.name ∈ netlist.cells
    · rw [run_addCell_of_taken taken]
      exact paired
    · rw [run_addCell taken]
      exact paired.insertCell taken unattached
  | connect net cell port =>
    simp only [EditStep.apply]
    rcases connect_cases net cell port netlist with
      ⟨-, e, failed⟩ | ⟨p, isPort, free, undriven, done⟩
    · rw [failed]
      exact paired
    · rw [done]
      exact paired.attach isPort free undriven
  | disconnect cell port => exact paired.disconnect cell port
  | removeCell name =>
    simp only [EditStep.apply]
    rw [removeCell_eq]
    exact paired.withoutCells [name]
  | freshCellName cellType =>
    -- Only the number of the next name changes.
    exact ⟨⟨paired.cell, paired.net⟩, paired.listed, paired.resolved⟩

theorem Paired.empty : Paired .empty where
  cell there := by simp [Netlist.empty] at there
  net there := by simp [Netlist.empty] at there
  listed isPort := by simp [Netlist.empty, port?] at isPort
  resolved there := by simp [Netlist.empty] at there

theorem Paired.foldl {netlist : Netlist} (paired : Paired netlist) (steps : List EditStep) :
    Paired (steps.foldl EditStep.apply netlist) := by
  induction steps generalizing netlist with
  | nil => exact paired
  | cons step rest ih => exact ih (paired.apply step)

/-- A port is listed by no other net than its own. -/
theorem Paired.only {netlist : Netlist} (paired : Paired netlist) {ref : PortRef} {p : Port}
    {name other : String} {net : Net} (isPort : netlist.port? ref = some p)
    (onNet : p.net = some name) (there : netlist.nets[other]? = some net)
    (member : ref ∈ net.references) : other = name := by
  obtain ⟨q, same, onOther⟩ := paired.resolved there member
  cases isPort.symm.trans same
  exact Option.some.inj (onOther.symm.trans onNet)

/-- Whatever the edits, and whether they succeed or fail: cells and nets stand under their names,
an attached port is listed once, by its net alone and where its direction says, every reference
is to a port attached to the net, and so the netlist passes its check. -/
theorem edited_paired (steps : List EditStep) :
    Paired (edited steps) ∧
      (∀ {ref : PortRef} {p : Port} {name other : String} {net : Net},
        (edited steps).port? ref = some p → p.net = some name →
        (edited steps).nets[other]? = some net → ref ∈ net.references → other = name) ∧
      (edited steps).check = .ok () := by
  have paired : Paired (edited steps) := Paired.empty.foldl steps
  exact ⟨paired, paired.only, (check_eq_ok_iff _).mpr paired.consistent⟩

end Netlist

end TileFabric
