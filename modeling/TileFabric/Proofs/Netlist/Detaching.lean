import TileFabric.Proofs.Netlist.Editing

/-!
# What detaching takes back

In a consistent netlist no net lists a port that is free, and a port is listed by no other net than
its own. So detaching a port that has just been attached restores the net exactly as it was, and
detaching the ports of a cell one after the other leaves no reference to the cell behind.
-/

set_option autoImplicit false

namespace TileFabric

namespace Net

/-- A reference that was not listed can be dropped again after it has come in. -/
theorem keepRefs_withPort {direction : PortDirection} {net : Net} {ref : PortRef}
    (undriven : direction = .output → net.driver = none) (unlisted : ref ∉ net.references) :
    (net.withPort direction ref).keepRefs (· ≠ ref) = net := by
  have kept : net.keepRefs (· ≠ ref) = net := by
    refine keepRefs_eq_self _ net fun other member => ?_
    have apart : other ≠ ref := fun same => unlisted (same ▸ member)
    simp [apart]
  refine Eq.trans ?_ kept
  unfold withPort keepRefs
  split
  · rename_i isOutput
    simp [undriven isOutput, Option.filter_some]
  · simp

end Net

namespace Cell

/-- Some ports of a cell detached, one after the other. -/
def withoutPortNets (ports : List String) (cell : Cell) : Cell :=
  ports.foldl (fun cell port => cell.withPortNet port none) cell

theorem lookup_ports_withoutPortNets (ports : List String) (cell : Cell) (query : String) :
    (cell.withoutPortNets ports).ports[query]? =
      if query ∈ ports then cell.ports[query]?.map ({ · with net := none })
      else cell.ports[query]? := by
  induction ports generalizing cell with
  | nil => simp [withoutPortNets]
  | cons port rest ih =>
    have step : cell.withoutPortNets (port :: rest) =
        (cell.withPortNet port none).withoutPortNets rest := rfl
    rw [step, ih, withPortNet, NameMap.lookup_modify]
    by_cases same : port = query
    · simp [same, Function.comp_def]
    · simp [same, Ne.symm same]

theorem withoutPortNets_frame (ports : List String) (cell : Cell) :
    cell.withoutPortNets ports = { cell with ports := (cell.withoutPortNets ports).ports } := by
  induction ports generalizing cell with
  | nil => rfl
  | cons port rest ih => exact ih (cell.withPortNet port none)

/-- A cell whose ports are all detached is free of nets, and otherwise as it was. -/
theorem withoutPortNets_keys (cell : Cell) : cell.withoutPortNets cell.ports.keys = cell.freed := by
  have ports : (cell.withoutPortNets cell.ports.keys).ports = cell.freed.ports := by
    apply Std.ExtTreeMap.ext_getElem?
    intro query
    rw [lookup_ports_withoutPortNets, freed, Std.ExtTreeMap.getElem?_map]
    cases there : cell.ports[query]? with
    | none => simp
    | some p => simp [(NameMap.mem_keys_iff ..).mpr ⟨p, there⟩]
  rw [withoutPortNets_frame, ports]
  rfl

end Cell

namespace Netlist

/-- No net lists a free port, not even one that comes into being. -/
theorem Linked.not_mem_netFor {netlist : Netlist} (linked : Linked netlist.portNet? netlist.nets)
    {ref : PortRef} (free : netlist.portNet? ref = none) (name : String) :
    ref ∉ (netlist.netFor name).references := by
  intro member
  rcases netFor_cases netlist name with held | ⟨-, new⟩
  · cases free.symm.trans (linked.resolved held member)
  · rw [new] at member
    cases member

theorem lookup_cells_disconnect (netlist : Netlist) (cell port key : String) :
    (netlist.disconnect cell port).cells[key]? =
      if cell = key then netlist.cells[key]?.map (·.withPortNet port none)
      else netlist.cells[key]? := by
  cases attached : netlist.portNet? ⟨cell, port⟩ with
  | some name =>
    rw [disconnect_attached attached]
    exact lookup_setPortNet ..
  | none =>
    rw [disconnect_free attached]
    by_cases same : cell = key
    · subst same
      rw [if_pos rfl]
      cases there : netlist.cells[cell]? with
      | none => rfl
      | some c =>
        have free : c.portNet? port = none := by rw [← attached, portNet?_of_cell there]
        simp [Cell.withPortNet_self free]
    · rw [if_neg same]

theorem lookup_cells_detachPorts (cell : String) (ports : List String) (netlist : Netlist)
    (key : String) :
    (netlist.detachPorts cell ports).cells[key]? =
      if cell = key then netlist.cells[key]?.map (·.withoutPortNets ports)
      else netlist.cells[key]? := by
  induction ports generalizing netlist with
  | nil => simp [detachPorts, Cell.withoutPortNets]
  | cons port rest ih =>
    have step : netlist.detachPorts cell (port :: rest) =
        (netlist.disconnect cell port).detachPorts cell rest := rfl
    rw [step, ih, lookup_cells_disconnect]
    by_cases same : cell = key
    · simp [same, Function.comp_def, Cell.withoutPortNets]
    · simp [same]

/-- The netlist with a net of a name, which lists nothing if it is new. -/
def withNet (name : String) (netlist : Netlist) : Netlist :=
  { netlist with nets := netlist.nets.insert name (netlist.netFor name) }

theorem withNet_eq (name : String) (netlist : Netlist) : netlist.withNet name =
    if name ∈ netlist.nets then netlist
    else { netlist with nets := netlist.nets.insert name { name } } := by
  rcases netFor_cases netlist name with held | ⟨absent, new⟩
  · rw [if_pos ((NameMap.mem_iff_lookup ..).mpr ⟨_, held⟩)]
    refine eq_of_lookups (fun _ => rfl) (fun other => ?_) rfl rfl
    rw [withNet, NameMap.lookup_insert]
    split
    · rename_i same
      rw [← same, held]
    · rfl
  · rw [if_neg ((NameMap.not_mem_iff_lookup ..).mpr absent), withNet, new]

theorem portNet?_attach {netlist : Netlist} {ref : PortRef} (there : netlist.HasPort ref)
    (net : String) (direction : PortDirection) (other : PortRef) :
    (netlist.attach net ref direction).portNet? other =
      if other = ref then some net else netlist.portNet? other := by
  have here : HasPort
      { netlist with nets := netlist.nets.insert net ((netlist.netFor net).withPort direction ref) }
      ref := there
  exact portNet?_setPortNet here (some net) other

theorem hasPort_of_port? {netlist : Netlist} {ref : PortRef} {p : Port}
    (isPort : netlist.port? ref = some p) : netlist.HasPort ref := by
  obtain ⟨cell, there, onPort⟩ := Option.bind_eq_some_iff.mp isPort
  exact ⟨cell, there, (NameMap.mem_iff_lookup ..).mpr ⟨p, onPort⟩⟩

/-- Attaching a free port and detaching it again leaves nothing but the net. -/
theorem Consistent.disconnect_attach {netlist : Netlist} (consistent : Consistent netlist)
    {net : String} {ref : PortRef} {p : Port} (isPort : netlist.port? ref = some p)
    (free : p.net = none) (undriven : p.direction = .output → (netlist.netFor net).driver = none) :
    (netlist.attach net ref p.direction).disconnect ref.cell ref.port = netlist.withNet net := by
  have unattached : netlist.portNet? ref = none := by
    rw [portNet?_eq, isPort, Option.bind_some, free]
  have attached := portNet?_attach (hasPort_of_port? isPort) net p.direction ref
  rw [if_pos rfl] at attached
  have cells : (netlist.cells.modify ref.cell (·.withPortNet ref.port (some net))).modify ref.cell
      (·.withPortNet ref.port none) = netlist.cells := by
    rw [NameMap.modify_modify]
    refine NameMap.modify_eq_self fun cell there => Cell.withPortNet_back ?_ _
    rw [← unattached, portNet?_of_cell there]
  have nets : (netlist.nets.insert net ((netlist.netFor net).withPort p.direction ref)).modify net
      (dropReferences ref) = netlist.nets.insert net (netlist.netFor net) := by
    rw [NameMap.modify_insert, dropReferences_eq,
      Net.keepRefs_withPort undriven (consistent.linked.not_mem_netFor unattached net)]
  rw [disconnect_attached attached]
  exact congrArg₂ (fun cells nets => { netlist with cells, nets }) cells nets

/--
Connecting attaches a port where it can be attached, and changes nothing where it fails. In a
netlist that passes its check, detaching the port then gives back the netlist as it was, but for a
net that came into being with the port: it stays, and lists nothing.
-/
theorem connect_taken_back (net cell port : String) (netlist : Netlist) :
    let outcome := (connect net cell port).run netlist
    (outcome.1 = .ok () ↔ netlist.Attachable net ⟨cell, port⟩) ∧
    (∀ e, outcome.1 = .error e → outcome.2 = netlist) ∧
    (outcome.1 = .ok () → outcome.2.portNet? ⟨cell, port⟩ = some net) ∧
    (netlist.check = .ok () → outcome.1 = .ok () →
      outcome.2.disconnect cell port =
        if net ∈ netlist.nets then netlist
        else { netlist with nets := netlist.nets.insert net { name := net } }) := by
  intro outcome
  rcases connect_cases net cell port netlist with
    ⟨barred, e, failed⟩ | ⟨p, isPort, free, undriven, done⟩
  · have ended : outcome = (.error e, netlist) := failed
    simp [ended, barred]
  · have ended : outcome = (.ok (), netlist.attach net ⟨cell, port⟩ p.direction) := done
    have onNet := portNet?_attach (hasPort_of_port? isPort) net p.direction ⟨cell, port⟩
    rw [if_pos rfl] at onNet
    rw [ended]
    refine ⟨⟨fun _ => ⟨p, isPort, free, undriven⟩, fun _ => rfl⟩, by simp, fun _ => onNet, ?_⟩
    intro checked _
    rw [← withNet_eq]
    exact ((check_eq_ok_iff _).mp checked).disconnect_attach isPort free undriven

/-- A cell with a port of each direction, of which the input is attached. -/
def attachedInput : Netlist where
  cells :=
    let input : Port := { direction := .input, net := some "n" }
    let output : Port := { direction := .output }
    let inout : Port := { direction := .inout }
    let ports := .ofList [("A", input), ("B", inout), ("Y", output)]
    .ofList [("a", ({ name := "a", cellType := "BUF", ports } : Cell))]
  nets := .ofList [("n", ({ name := "n", users := [⟨"a", "A"⟩] } : Net))]
  settings := ∅
  nextName := 0

/-- One port goes onto a net that is there, another onto a new one. -/
theorem attachedInput_taken_back :
    let joined := (connect "n" "a" "B").run attachedInput
    let founded := (connect "m" "a" "Y").run attachedInput
    attachedInput.check = .ok () ∧ joined.1 = .ok () ∧ founded.1 = .ok () ∧
      joined.2.disconnect "a" "B" = attachedInput ∧
      founded.2.disconnect "a" "Y" =
        { attachedInput with nets := attachedInput.nets.insert "m" { name := "m" } } := by
  intro joined founded
  have checked : attachedInput.check = .ok () := by decide +kernel
  have joins : joined.1 = .ok () := by decide +kernel
  have founds : founded.1 = .ok () := by decide +kernel
  obtain ⟨-, -, -, joinedBack⟩ := connect_taken_back "n" "a" "B" attachedInput
  obtain ⟨-, -, -, foundedBack⟩ := connect_taken_back "m" "a" "Y" attachedInput
  refine ⟨checked, joins, founds, (joinedBack checked joins).trans ?_,
    (foundedBack checked founds).trans ?_⟩
  · exact if_pos (by decide +kernel)
  · exact if_neg (by decide +kernel)

/-- In a consistent netlist the ports of a cell account for all references to it. -/
theorem Consistent.withoutCells_eq {netlist : Netlist} (consistent : Consistent netlist)
    (name : String) : netlist.withoutCells [name] =
      { netlist with
        cells := netlist.cells.erase name
        nets := netlist.nets.map fun _ net => net.keepRefs (·.cell ≠ name) } := by
  refine eq_of_lookups (fun key => ?_) (fun query => ?_) rfl rfl
  · rw [lookup_cells_withoutCells, NameMap.lookup_erase]
    simp [eq_comm]
  · rw [lookup_nets_withoutCells, Std.ExtTreeMap.getElem?_map]
    cases there : netlist.nets[query]? with
    | none => rfl
    | some net =>
      refine congrArg some (Net.keepRefs_congr fun ref member => ?_)
      simp [consistent.linked.resolved there member]

theorem fst_removeCell (name : String) (netlist : Netlist) :
    (netlist.removeCell name).1 = netlist.cells[name]?.map Cell.freed := by
  cases there : netlist.cells[name]? with
  | none => simp [removeCell, there]
  | some cell =>
    have removed : (netlist.removeCell name).1 =
        (netlist.detachPorts name cell.ports.keys).cells[name]? := by
      simp only [removeCell, there, detachPorts]
    rw [removed, lookup_cells_detachPorts, if_pos rfl, there, Option.map_some,
      Cell.withoutPortNets_keys, Option.map_some]

/--
From a netlist that passes its check, a cell that is removed comes out with its ports free and
otherwise as it was. All other cells stay, and every net stays without its references to the cell,
the others in their order; the check passes again. Where no cell has the name nothing changes.
-/
theorem removeCell_takes_out (name : String) (netlist : Netlist) :
    (∀ cell, netlist.check = .ok () → netlist.cells[name]? = some cell →
      netlist.removeCell name =
        (some cell.freed,
          { netlist with
            cells := netlist.cells.erase name
            nets := netlist.nets.map fun _ net => net.keepRefs (·.cell ≠ name) }) ∧
      (netlist.removeCell name).2.check = .ok ()) ∧
    (netlist.cells[name]? = none → netlist.removeCell name = (none, netlist)) := by
  constructor
  · intro cell checked there
    have consistent := (check_eq_ok_iff _).mp checked
    refine ⟨Prod.ext ?_ ?_, ?_⟩
    · rw [fst_removeCell, there, Option.map_some]
    · rw [removeCell_eq, consistent.withoutCells_eq]
    · rw [removeCell_eq]
      exact (check_eq_ok_iff _).mpr (consistent.withoutCells [name])
  · intro absent
    simp [removeCell, absent]

/-- A cell that drives a net and uses it, by two ports and one of them twice, next to another
user. -/
def drivenByUser : Netlist where
  cells :=
    let inout : Port := { direction := .inout, net := some "n" }
    let input : Port := { direction := .input, net := some "n" }
    let first : Cell :=
      { name := "c", cellType := "BUF", ports := .ofList [("P", inout), ("Q", inout)] }
    let second : Cell := { name := "x", cellType := "BUF", ports := .ofList [("A", input)] }
    .ofList [("c", first), ("x", second)]
  nets :=
    let users : List PortRef := [⟨"c", "Q"⟩, ⟨"x", "A"⟩, ⟨"c", "P"⟩, ⟨"x", "A"⟩, ⟨"c", "Q"⟩]
    let net : Net := { name := "n", driver := some ⟨"c", "P"⟩, users }
    .ofList [("n", net)]
  settings := ∅
  nextName := 0

theorem drivenByUser_takes_out :
    drivenByUser.check = .ok () ∧
      ∃ cell, drivenByUser.cells["c"]? = some cell ∧
        (drivenByUser.removeCell "c").1 = some cell.freed ∧
        (drivenByUser.removeCell "c").2.nets["n"]? =
          some { name := "n", users := [⟨"x", "A"⟩, ⟨"x", "A"⟩] } ∧
        (drivenByUser.removeCell "c").2.check = .ok () := by
  have checked : drivenByUser.check = .ok () := by decide +kernel
  have known : "c" ∈ drivenByUser.cells := by decide +kernel
  obtain ⟨cell, there⟩ := (NameMap.mem_iff_lookup ..).mp known
  obtain ⟨out, passes⟩ := (removeCell_takes_out "c" drivenByUser).1 cell checked there
  refine ⟨checked, cell, there, congrArg Prod.fst out, ?_, passes⟩
  rw [out]
  dsimp only
  decide +kernel

end Netlist

end TileFabric
