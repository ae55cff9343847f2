import TileFabric.Packing.Bench
import TileFabric.Proofs.Netlist.Links

/-!
# Detaching ports and removing cells

What `disconnect` and `removeCell` leave of both sides of a netlist. Removing cells one after the
other is one step, `withoutCells`, that erases them together with the references that their ports
account for, and it keeps a consistent netlist consistent.
-/

set_option autoImplicit false

namespace TileFabric

namespace Cell

theorem portNet?_withPortNet (cell : Cell) (port query : String) (net : Option String) :
    (cell.withPortNet port net).portNet? query =
      if port = query ∧ query ∈ cell.ports then net else cell.portNet? query := by
  unfold withPortNet portNet?
  simp only [NameMap.lookup_modify]
  by_cases same : port = query
  · subst same
    cases there : cell.ports[port]? with
    | none => simp [(NameMap.not_mem_iff_lookup _ _).mpr there]
    | some p => simp [(NameMap.mem_iff_lookup _ _).mpr ⟨p, there⟩]
  · simp [same]

theorem portNet?_eq_none_of_not_mem {cell : Cell} {port : String} (absent : port ∉ cell.ports) :
    cell.portNet? port = none := by
  simp [portNet?, (NameMap.not_mem_iff_lookup _ _).mp absent]

theorem mem_ports_of_portNet? {cell : Cell} {port name : String}
    (attached : cell.portNet? port = some name) : port ∈ cell.ports := by
  apply Decidable.byContradiction
  intro absent
  rw [portNet?_eq_none_of_not_mem absent] at attached
  cases attached

theorem portNet?_detach (cell : Cell) (port query : String) :
    (cell.withPortNet port none).portNet? query =
      if port = query then none else cell.portNet? query := by
  rw [portNet?_withPortNet]
  by_cases same : port = query
  · by_cases member : query ∈ cell.ports
    · simp [same, member]
    · simp [same, member, portNet?_eq_none_of_not_mem member]
  · simp [same]

theorem portNet?_attach {cell : Cell} {port : String} (there : port ∈ cell.ports)
    (name query : String) :
    (cell.withPortNet port (some name)).portNet? query =
      if port = query then some name else cell.portNet? query := by
  rw [portNet?_withPortNet]
  by_cases same : port = query
  · subst same
    simp [there]
  · simp [same]

/-- Putting a port on the net that it is on changes nothing. -/
theorem withPortNet_self {cell : Cell} {port : String} {net : Option String}
    (held : cell.portNet? port = net) : cell.withPortNet port net = cell := by
  have ports : cell.ports.modify port ({ · with net }) = cell.ports := by
    refine NameMap.modify_eq_self fun p there => ?_
    rw [portNet?, there] at held
    rw [← held]
    rfl
  simp only [withPortNet, ports]

theorem withPortNet_withPortNet (cell : Cell) (port : String) (first second : Option String) :
    (cell.withPortNet port first).withPortNet port second = cell.withPortNet port second := by
  simp only [withPortNet, NameMap.modify_modify]

/-- Putting a port back on the net it was on gives the cell back. -/
theorem withPortNet_back {cell : Cell} {port : String} {net : Option String}
    (held : cell.portNet? port = net) (other : Option String) :
    (cell.withPortNet port other).withPortNet port net = cell := by
  rw [withPortNet_withPortNet, withPortNet_self held]

/-- A cell with all of its ports detached. -/
def freed (cell : Cell) : Cell :=
  { cell with ports := cell.ports.map fun _ port => { port with net := none } }

theorem mem_ports_freed (cell : Cell) (port : String) :
    port ∈ cell.freed.ports ↔ port ∈ cell.ports :=
  Std.ExtTreeMap.mem_map

theorem freed_withPortNet (cell : Cell) (port : String) (net : Option String) :
    (cell.withPortNet port net).freed = cell.freed := by
  have ports : (cell.withPortNet port net).freed.ports = cell.freed.ports := by
    apply Std.ExtTreeMap.ext_getElem?
    intro query
    unfold freed withPortNet
    simp only [Std.ExtTreeMap.getElem?_map, NameMap.lookup_modify]
    by_cases same : port = query
    · simp [same, Option.map_map, Function.comp_def]
    · simp [same]
  exact congrArg (fun ports => { cell with ports }) ports

end Cell

namespace Netlist

theorem lookup_setPortNet (netlist : Netlist) (cell port key : String) (net : Option String) :
    (netlist.setPortNet cell port net).cells[key]? =
      if cell = key then netlist.cells[key]?.map (·.withPortNet port net)
      else netlist.cells[key]? :=
  NameMap.lookup_modify _ _ _ _

/-- The port of a reference is there, attached or not. -/
def HasPort (netlist : Netlist) (ref : PortRef) : Prop :=
  ∃ cell, netlist.cells[ref.cell]? = some cell ∧ ref.port ∈ cell.ports

theorem hasPort_of_portNet? {netlist : Netlist} {ref : PortRef} {name : String}
    (attached : netlist.portNet? ref = some name) : netlist.HasPort ref := by
  obtain ⟨cell, there, onPort⟩ := cell_of_portNet? attached
  exact ⟨cell, there, Cell.mem_ports_of_portNet? onPort⟩

theorem portNet?_setPortNet {netlist : Netlist} {target : PortRef} (hasPort : netlist.HasPort target)
    (net : Option String) (ref : PortRef) :
    (netlist.setPortNet target.cell target.port net).portNet? ref =
      if ref = target then net else netlist.portNet? ref := by
  obtain ⟨held, there, onTarget⟩ := hasPort
  unfold portNet?
  rw [lookup_setPortNet]
  by_cases same : ref = target
  · subst same
    simp [there, Cell.portNet?_withPortNet, onTarget]
  · by_cases sameCell : target.cell = ref.cell
    · have samePort : target.port ≠ ref.port := by
        intro equal
        exact same (by cases ref; cases target; simp_all)
      rw [sameCell] at there
      simp [there, same, sameCell, Cell.portNet?_withPortNet, samePort]
    · simp [same, sameCell]

theorem dropReferences_eq (ref : PortRef) (net : Net) :
    dropReferences ref net = net.keepRefs (· ≠ ref) := by
  cases driver : net.driver with
  | none => simp [dropReferences, Net.keepRefs, driver]
  | some held =>
    by_cases same : held = ref <;>
      simp [dropReferences, Net.keepRefs, driver, Option.filter_some, same]

theorem disconnect_free {netlist : Netlist} {cell port : String}
    (free : netlist.portNet? ⟨cell, port⟩ = none) : netlist.disconnect cell port = netlist := by
  unfold disconnect
  split
  · rfl
  · rename_i attached
    exact absurd (free.symm.trans attached) (by simp)

theorem disconnect_attached {netlist : Netlist} {cell port name : String}
    (attached : netlist.portNet? ⟨cell, port⟩ = some name) :
    netlist.disconnect cell port =
      { netlist.setPortNet cell port none with
        nets := netlist.nets.modify name (dropReferences ⟨cell, port⟩) } := by
  unfold disconnect
  split
  · rename_i free
    exact absurd (free.symm.trans attached) (by simp)
  · rename_i other
    cases other.symm.trans attached
    rfl

theorem portNet?_disconnect (netlist : Netlist) (cell port : String) (ref : PortRef) :
    (netlist.disconnect cell port).portNet? ref =
      if ref = ⟨cell, port⟩ then none else netlist.portNet? ref := by
  cases attached : netlist.portNet? ⟨cell, port⟩ with
  | none =>
    rw [disconnect_free attached]
    by_cases same : ref = ⟨cell, port⟩
    · simp [same, attached]
    · simp [same]
  | some name =>
    rw [disconnect_attached attached]
    exact portNet?_setPortNet (hasPort_of_portNet? attached) none ref

theorem lookup_nets_disconnect (netlist : Netlist) (cell port name : String) :
    (netlist.disconnect cell port).nets[name]? = netlist.nets[name]?.map (·.keepRefs fun ref =>
      !decide (ref = ⟨cell, port⟩ ∧ netlist.portNet? ref = some name)) := by
  cases attached : netlist.portNet? ⟨cell, port⟩ with
  | none =>
    have none_drop : ∀ ref : PortRef, ¬ (ref = ⟨cell, port⟩ ∧ netlist.portNet? ref = some name) := by
      rintro ref ⟨rfl, onNet⟩
      exact absurd (attached.symm.trans onNet) (by simp)
    rw [disconnect_free attached]
    cases netlist.nets[name]? with
    | none => rfl
    | some net => simp [none_drop, Net.keepRefs_eq_self]
  | some held =>
    rw [disconnect_attached attached]
    simp only [NameMap.lookup_modify]
    by_cases same : held = name
    · subst same
      have drop : dropReferences ⟨cell, port⟩ = fun net : Net => net.keepRefs fun ref =>
          !decide (ref = ⟨cell, port⟩ ∧ netlist.portNet? ref = some held) := by
        funext net
        rw [dropReferences_eq]
        congr 1
        funext ref
        by_cases here : ref = ⟨cell, port⟩ <;> simp [here, attached]
      rw [if_pos rfl, drop]
    · have none_drop : ∀ ref : PortRef,
          ¬ (ref = ⟨cell, port⟩ ∧ netlist.portNet? ref = some name) := by
        rintro ref ⟨rfl, onNet⟩
        exact same (Option.some.inj (attached.symm.trans onNet))
      rw [if_neg same]
      cases netlist.nets[name]? with
      | none => rfl
      | some net => simp [none_drop, Net.keepRefs_eq_self]

/-- The frame of a detachment: all but the ports of one cell and the references of the nets. -/
theorem disconnect_frame (netlist : Netlist) (cell port : String) :
    (∀ key, cell ≠ key → (netlist.disconnect cell port).cells[key]? = netlist.cells[key]?) ∧
      (netlist.disconnect cell port).settings = netlist.settings ∧
      (netlist.disconnect cell port).nextName = netlist.nextName := by
  cases attached : netlist.portNet? ⟨cell, port⟩ with
  | none => simp [disconnect_free attached]
  | some name =>
    rw [disconnect_attached attached]
    refine ⟨fun key apart => ?_, rfl, rfl⟩
    exact (lookup_setPortNet ..).trans (if_neg apart)

/-- The netlist with ports of one cell detached, one after the other. -/
def detachPorts (cell : String) (ports : List String) (netlist : Netlist) : Netlist :=
  ports.foldl (fun netlist port => netlist.disconnect cell port) netlist

theorem lookup_nets_detachPorts (cell : String) (ports : List String) (netlist : Netlist)
    (name : String) :
    (netlist.detachPorts cell ports).nets[name]? = netlist.nets[name]?.map (·.keepRefs fun ref =>
      !decide (ref.cell = cell ∧ ref.port ∈ ports ∧ netlist.portNet? ref = some name)) := by
  induction ports generalizing netlist with
  | nil =>
    cases there : netlist.nets[name]? with
    | none => simp [detachPorts, there]
    | some net => simp [detachPorts, there, Net.keepRefs_eq_self]
  | cons port rest ih =>
    have step : netlist.detachPorts cell (port :: rest) =
        (netlist.disconnect cell port).detachPorts cell rest := rfl
    rw [step, ih, lookup_nets_disconnect, Option.map_map]
    congr 1
    funext net
    rw [Function.comp_apply, Net.keepRefs_keepRefs]
    congr 1
    funext ref
    rw [portNet?_disconnect]
    cases ref
    grind

theorem detachPorts_frame (cell : String) (ports : List String) (netlist : Netlist) :
    (∀ key, cell ≠ key → (netlist.detachPorts cell ports).cells[key]? = netlist.cells[key]?) ∧
      (netlist.detachPorts cell ports).settings = netlist.settings ∧
      (netlist.detachPorts cell ports).nextName = netlist.nextName := by
  induction ports generalizing netlist with
  | nil => exact ⟨fun _ _ => rfl, rfl, rfl⟩
  | cons port rest ih =>
    have one := disconnect_frame netlist cell port
    have others := ih (netlist.disconnect cell port)
    exact ⟨fun key apart => (others.1 key apart).trans (one.1 key apart),
      others.2.1.trans one.2.1, others.2.2.trans one.2.2⟩

/-- The netlist without some cells and without the references that their ports account for. -/
def withoutCells (names : List String) (netlist : Netlist) : Netlist :=
  { netlist with
    cells := netlist.cells.filter fun name _ => !decide (name ∈ names)
    nets := netlist.nets.map fun name net => net.keepRefs fun ref =>
      !decide (ref.cell ∈ names ∧ netlist.portNet? ref = some name) }

theorem lookup_cells_withoutCells (names : List String) (netlist : Netlist) (key : String) :
    (netlist.withoutCells names).cells[key]? =
      if key ∈ names then none else netlist.cells[key]? := by
  unfold withoutCells
  rw [Std.ExtTreeMap.getElem?_filter']
  by_cases gone : key ∈ names <;> cases netlist.cells[key]? <;> simp [gone, Option.filter_some]

theorem lookup_nets_withoutCells (names : List String) (netlist : Netlist) (name : String) :
    (netlist.withoutCells names).nets[name]? = netlist.nets[name]?.map (·.keepRefs fun ref =>
      !decide (ref.cell ∈ names ∧ netlist.portNet? ref = some name)) :=
  Std.ExtTreeMap.getElem?_map

theorem portNet?_withoutCells (names : List String) (netlist : Netlist) (ref : PortRef) :
    (netlist.withoutCells names).portNet? ref =
      if ref.cell ∈ names then none else netlist.portNet? ref := by
  unfold portNet?
  rw [lookup_cells_withoutCells]
  by_cases gone : ref.cell ∈ names <;> simp [gone]

theorem eq_of_lookups {left right : Netlist}
    (cells : ∀ key : String, left.cells[key]? = right.cells[key]?)
    (nets : ∀ name : String, left.nets[name]? = right.nets[name]?)
    (settings : left.settings = right.settings) (nextName : left.nextName = right.nextName) :
    left = right := by
  cases left
  cases right
  simp only [mk.injEq]
  exact ⟨Std.ExtTreeMap.ext_getElem? cells, Std.ExtTreeMap.ext_getElem? nets, settings,
    nextName⟩

theorem withoutCells_nil (netlist : Netlist) : netlist.withoutCells [] = netlist := by
  apply eq_of_lookups
  · intro key
    simp [lookup_cells_withoutCells]
  · intro name
    rw [lookup_nets_withoutCells]
    cases netlist.nets[name]? with
    | none => rfl
    | some net => simp [Net.keepRefs_eq_self]
  · rfl
  · rfl

theorem withoutCells_withoutCells (first second : List String) (netlist : Netlist) :
    (netlist.withoutCells first).withoutCells second = netlist.withoutCells (first ++ second) := by
  apply eq_of_lookups
  · intro key
    simp only [lookup_cells_withoutCells, List.mem_append]
    grind
  · intro name
    simp only [lookup_nets_withoutCells, portNet?_withoutCells, Option.map_map]
    congr 1
    funext net
    rw [Function.comp_apply, Net.keepRefs_keepRefs]
    congr 1
    funext ref
    simp only [List.mem_append]
    grind
  · rfl
  · rfl

/-- Removing a cell erases it with the references that its ports account for. -/
theorem removeCell_eq (name : String) (netlist : Netlist) :
    (netlist.removeCell name).2 = netlist.withoutCells [name] := by
  cases there : netlist.cells[name]? with
  | none =>
    have free : ∀ ref : PortRef, ref.cell = name → netlist.portNet? ref = none := by
      rintro ref rfl
      simp [portNet?, there]
    simp only [removeCell, there]
    apply eq_of_lookups
    · intro key
      rw [lookup_cells_withoutCells]
      by_cases same : key = name <;> simp [same, there]
    · intro query
      rw [lookup_nets_withoutCells]
      cases netlist.nets[query]? with
      | none => rfl
      | some net =>
        rw [Option.map_some, Net.keepRefs_eq_self]
        intro ref _
        by_cases here : ref.cell = name <;> simp [here, free ref]
    · rfl
    · rfl
  | some cell =>
    have frame := detachPorts_frame name cell.ports.keys netlist
    have removed : (netlist.removeCell name).2 =
        { netlist.detachPorts name cell.ports.keys with
          cells := (netlist.detachPorts name cell.ports.keys).cells.erase name } := by
      simp only [removeCell, there, detachPorts]
    rw [removed]
    apply eq_of_lookups
    · intro key
      rw [lookup_cells_withoutCells, NameMap.lookup_erase]
      by_cases same : name = key
      · simp [same]
      · simp [same, Ne.symm same, frame.1 key same]
    · intro query
      rw [lookup_nets_detachPorts, lookup_nets_withoutCells]
      congr 1
      funext net
      congr 1
      funext ref
      -- A port that is attached is one of the cell's ports.
      have owned : ref.cell = name → netlist.portNet? ref = some query →
          ref.port ∈ cell.ports.keys := by
        rintro rfl attached
        rw [portNet?_of_cell there] at attached
        exact Std.ExtTreeMap.mem_keys.mpr (Cell.mem_ports_of_portNet? attached)
      simp only [List.mem_singleton]
      grind
    · exact frame.2.1
    · exact frame.2.2

theorem removeCells_eq (names : List String) (netlist : Netlist) :
    names.foldl (fun netlist name => (netlist.removeCell name).2) netlist =
      netlist.withoutCells names := by
  induction names generalizing netlist with
  | nil => exact (withoutCells_nil netlist).symm
  | cons name rest ih =>
    rw [List.foldl_cons, ih, removeCell_eq, withoutCells_withoutCells]
    rfl

theorem Linked.withoutCells {netlist : Netlist} (linked : Linked netlist.portNet? netlist.nets)
    (names : List String) :
    Linked (netlist.withoutCells names).portNet? (netlist.withoutCells names).nets := by
  constructor
  · intro name net ref there member
    rw [lookup_nets_withoutCells] at there
    obtain ⟨old, oldThere, rfl⟩ := Option.map_eq_some_iff.mp there
    rw [Net.references_keepRefs, List.mem_filter] at member
    have attached := linked.resolved oldThere member.1
    have stays : ref.cell ∉ names := by simpa [attached] using member.2
    rw [portNet?_withoutCells, if_neg stays, attached]
  · intro ref name attached
    rw [portNet?_withoutCells] at attached
    split at attached
    · cases attached
    · obtain ⟨net, there⟩ := (NameMap.mem_iff_lookup _ _).mp (linked.present attached)
      rw [NameMap.mem_iff_lookup, lookup_nets_withoutCells, there]
      exact ⟨_, rfl⟩

theorem Named.withoutCells {netlist : Netlist} (named : Named netlist) (names : List String) :
    Named (netlist.withoutCells names) := by
  constructor
  · intro key cell there
    rw [lookup_cells_withoutCells] at there
    split at there
    · cases there
    · exact named.cell there
  · intro key net there
    rw [lookup_nets_withoutCells] at there
    obtain ⟨old, oldThere, rfl⟩ := Option.map_eq_some_iff.mp there
    exact (Net.keepRefs_name ..).trans (named.net oldThere)

/-- Removing cells keeps a consistent netlist consistent. -/
theorem Consistent.withoutCells {netlist : Netlist} (consistent : Consistent netlist)
    (names : List String) : Consistent (netlist.withoutCells names) :=
  ⟨consistent.toNamed.withoutCells names, consistent.linked.withoutCells names⟩

end Netlist

end TileFabric
