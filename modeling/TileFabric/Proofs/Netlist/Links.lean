import Mathlib.Data.List.Basic
import TileFabric.Netlist.Consistency
import TileFabric.Proofs.NameMap

/-!
# The two sides of a netlist

`Netlist.portNet?` is one side of a netlist, what its ports say; the references of its nets are
the other. `Linked` relates the two sides and `Consistent` adds that cells and nets are kept under
their own names: a netlist passes its check exactly when it is consistent.
-/

set_option autoImplicit false

namespace TileFabric

namespace Net

/-- The net with its references replaced, in place. -/
def mapRefs (f : PortRef → PortRef) (net : Net) : Net :=
  { net with driver := net.driver.map f, users := net.users.map f }

/-- The net with the references that pass a test, in order. -/
def keepRefs (keep : PortRef → Bool) (net : Net) : Net :=
  { net with driver := net.driver.filter keep, users := net.users.filter keep }

/-- The net with its references replaced in place, less those that have no replacement. -/
def filterMapRefs (f : PortRef → Option PortRef) (net : Net) : Net :=
  { net with driver := net.driver.bind f, users := net.users.filterMap f }

@[simp] theorem mapRefs_name (f : PortRef → PortRef) (net : Net) :
    (net.mapRefs f).name = net.name := rfl

@[simp] theorem keepRefs_name (keep : PortRef → Bool) (net : Net) :
    (net.keepRefs keep).name = net.name := rfl

@[simp] theorem references_mapRefs (f : PortRef → PortRef) (net : Net) :
    (net.mapRefs f).references = net.references.map f := by
  cases driver : net.driver <;> simp [references, mapRefs, driver]

@[simp] theorem references_keepRefs (keep : PortRef → Bool) (net : Net) :
    (net.keepRefs keep).references = net.references.filter keep := by
  cases driver : net.driver with
  | none => simp [references, keepRefs, driver]
  | some ref =>
    by_cases kept : keep ref <;> simp [references, keepRefs, driver, Option.filter_some, kept]

theorem mapRefs_mapRefs (first second : PortRef → PortRef) (net : Net) :
    (net.mapRefs first).mapRefs second = net.mapRefs fun ref => second (first ref) := by
  cases driver : net.driver <;> simp [mapRefs, driver, Function.comp_def]

/-- Replacements that agree on the references of the net do the same to it. -/
theorem mapRefs_congr {first second : PortRef → PortRef} {net : Net}
    (same : ∀ ref ∈ net.references, first ref = second ref) :
    net.mapRefs first = net.mapRefs second := by
  have driver : net.driver.map first = net.driver.map second := by
    cases held : net.driver with
    | none => rfl
    | some ref => simp [same ref (by simp [references, held])]
  have users : net.users.map first = net.users.map second :=
    List.map_congr_left fun ref member => same ref (by simp [references, member])
  simp only [mapRefs, driver, users]

/-- Replacing all references and then keeping some is replacing some and dropping the others. -/
theorem keepRefs_mapRefs {f : PortRef → PortRef} {keep : PortRef → Bool}
    {image : PortRef → Option PortRef} {net : Net}
    (same : ∀ ref ∈ net.references, image ref = if keep (f ref) then some (f ref) else none) :
    (net.mapRefs f).keepRefs keep = net.filterMapRefs image := by
  have driver : (net.driver.map f).filter keep = net.driver.bind image := by
    cases held : net.driver with
    | none => rfl
    | some ref => simp [same ref (by simp [references, held]), Option.filter_some]
  have users : (net.users.map f).filter keep = net.users.filterMap image := by
    rw [List.filterMap_congr fun ref member => same ref (by simp [references, member]),
      ← List.filterMap_eq_filter, List.filterMap_map]
    rfl
  simp only [mapRefs, keepRefs, filterMapRefs, driver, users]

/-- References that a replacement fixes stay where they are. -/
theorem mapRefs_eq_self (f : PortRef → PortRef) (net : Net)
    (fixed : ∀ ref ∈ net.references, f ref = ref) : net.mapRefs f = net := by
  have driver : net.driver.map f = net.driver := by
    cases held : net.driver with
    | none => rfl
    | some ref => simp [fixed ref (by simp [references, held])]
  have users : net.users.map f = net.users := by
    rw [List.map_congr_left (g := id) fun ref member => fixed ref (by simp [references, member])]
    exact List.map_id net.users
  simp only [mapRefs, driver, users]

theorem map_mapRefs_self (net : Option Net) : net.map (·.mapRefs fun ref => ref) = net := by
  cases net with
  | none => rfl
  | some net => simp [mapRefs_eq_self]

theorem keepRefs_keepRefs (first second : PortRef → Bool) (net : Net) :
    (net.keepRefs first).keepRefs second = net.keepRefs fun ref => first ref && second ref := by
  cases driver : net.driver with
  | none => simp [keepRefs, driver, Bool.and_comm]
  | some ref =>
    cases kept : first ref <;> simp [keepRefs, driver, Option.filter_some, kept, Bool.and_comm]

/-- Tests that agree on the references of the net keep the same of it. -/
theorem keepRefs_congr {first second : PortRef → Bool} {net : Net}
    (same : ∀ ref ∈ net.references, first ref = second ref) :
    net.keepRefs first = net.keepRefs second := by
  have driver : net.driver.filter first = net.driver.filter second := by
    cases held : net.driver with
    | none => rfl
    | some ref => simp [Option.filter_some, same ref (by simp [references, held])]
  have users : net.users.filter first = net.users.filter second :=
    List.filter_congr fun ref member => same ref (by simp [references, member])
  simp only [keepRefs, driver, users]

/-- A test that no reference of the net fails keeps all of the net. -/
theorem keepRefs_eq_self (keep : PortRef → Bool) (net : Net)
    (all : ∀ ref ∈ net.references, keep ref = true) : net.keepRefs keep = net := by
  have driver : net.driver.filter keep = net.driver := by
    cases held : net.driver with
    | none => rfl
    | some ref => simp [all ref (by simp [references, held])]
  have users : net.users.filter keep = net.users :=
    List.filter_eq_self.mpr fun ref member => all ref (by simp [references, member])
  simp only [keepRefs, driver, users]

theorem mem_references_iff (net : Net) (ref : PortRef) :
    ref ∈ net.references ↔ net.driver = some ref ∨ ref ∈ net.users := by
  simp [references]

end Net

namespace Netlist

/-- The net that a port is attached to, by reference. -/
def portNet? (netlist : Netlist) (ref : PortRef) : Option String :=
  netlist.cells[ref.cell]?.bind (·.portNet? ref.port)

theorem portNet?_of_cell {netlist : Netlist} {ref : PortRef} {cell : Cell}
    (there : netlist.cells[ref.cell]? = some cell) :
    netlist.portNet? ref = cell.portNet? ref.port := by
  simp [portNet?, there]

theorem cell_of_portNet? {netlist : Netlist} {ref : PortRef} {name : String}
    (attached : netlist.portNet? ref = some name) :
    ∃ cell, netlist.cells[ref.cell]? = some cell ∧ cell.portNet? ref.port = some name :=
  Option.bind_eq_some_iff.mp attached

/-- Every reference of a net is a port on that net, and every attached port is on a net there is. -/
structure Linked (attached : PortRef → Option String) (nets : NameMap Net) : Prop where
  resolved : ∀ {name : String} {net : Net} {ref : PortRef}, nets[name]? = some net →
    ref ∈ net.references → attached ref = some name
  present : ∀ {ref : PortRef} {name : String}, attached ref = some name → name ∈ nets

/-- Cells and nets are kept under their own names. -/
structure Named (netlist : Netlist) : Prop where
  cell : ∀ {key : String} {cell : Cell}, netlist.cells[key]? = some cell → cell.name = key
  net : ∀ {key : String} {net : Net}, netlist.nets[key]? = some net → net.name = key

structure Consistent (netlist : Netlist) : Prop extends Named netlist where
  linked : Linked netlist.portNet? netlist.nets

theorem misnamed_eq_nil_iff (netlist : Netlist) : netlist.misnamed = [] ↔ Named netlist := by
  simp only [misnamed, List.filter_eq_nil_iff, List.mem_append, List.mem_map, Prod.exists,
    Std.ExtTreeMap.mem_toList_iff_getElem?_eq_some, decide_eq_true_eq, Decidable.not_not]
  constructor
  · intro equal
    exact ⟨fun there => (equal _ (.inl ⟨_, _, there, rfl⟩)).symm,
      fun there => (equal _ (.inr ⟨_, _, there, rfl⟩)).symm⟩
  · rintro named entry (⟨key, cell, there, rfl⟩ | ⟨key, net, there, rfl⟩)
    · exact (named.cell there).symm
    · exact (named.net there).symm

theorem referenceError?_eq_none_iff (netlist : Netlist) (net : Net) (ref : PortRef) :
    netlist.referenceError? net ref = none ↔ netlist.portNet? ref = some net.name := by
  cases there : netlist.cells[ref.cell]? with
  | none => simp [referenceError?, portNet?, there]
  | some cell => simp [referenceError?, portNet?, there]

theorem attachmentError?_eq_none_iff (netlist : Netlist) (cell : Cell) (port : String) (p : Port) :
    netlist.attachmentError? cell port p = none ↔
      ∀ name, p.net = some name → name ∈ netlist.nets := by
  cases attached : p.net with
  | none => simp [attachmentError?, attached]
  | some name => simp [attachmentError?, attached]

theorem error?_eq_none_iff (netlist : Netlist) :
    netlist.error? = none ↔ Named netlist ∧
      (∀ net ∈ netlist.nets.values, ∀ ref ∈ net.references,
        netlist.portNet? ref = some net.name) ∧
      (∀ cell ∈ netlist.cells.values, ∀ entry ∈ cell.ports.toList,
        ∀ name, entry.2.net = some name → name ∈ netlist.nets) := by
  simp only [error?, Option.orElse_eq_orElse, Option.orElse_eq_or, Option.or_eq_none_iff,
    Option.map_eq_none_iff, List.head?_eq_none_iff, misnamed_eq_nil_iff, List.findSome?_eq_none_iff,
    referenceError?_eq_none_iff, attachmentError?_eq_none_iff]

/-- A netlist passes its check exactly when it is consistent. -/
theorem check_eq_ok_iff (netlist : Netlist) : netlist.check = .ok () ↔ Consistent netlist := by
  have passes : netlist.check = .ok () ↔ netlist.error? = none := by
    cases found : netlist.error? <;> simp [check, found]
  rw [passes, error?_eq_none_iff]
  constructor
  · rintro ⟨named, resolved, present⟩
    refine ⟨named, ⟨?_, ?_⟩⟩
    · intro name net ref there member
      rw [← named.net there]
      exact resolved net ((NameMap.mem_values_iff _ _).mpr ⟨name, there⟩) ref member
    · intro ref name attached
      obtain ⟨cell, there, onPort⟩ := cell_of_portNet? attached
      obtain ⟨port, portThere, onNet⟩ := Option.bind_eq_some_iff.mp onPort
      exact present cell ((NameMap.mem_values_iff _ _).mpr ⟨_, there⟩) (ref.port, port)
        (Std.ExtTreeMap.mem_toList_iff_getElem?_eq_some.mpr portThere) name onNet
  · intro consistent
    refine ⟨consistent.toNamed, ?_, ?_⟩
    · intro net member ref listed
      obtain ⟨key, there⟩ := (NameMap.mem_values_iff _ _).mp member
      rw [consistent.net there]
      exact consistent.linked.resolved there listed
    · intro cell member entry listed name onNet
      obtain ⟨key, there⟩ := (NameMap.mem_values_iff _ _).mp member
      have portThere := Std.ExtTreeMap.mem_toList_iff_getElem?_eq_some.mp listed
      have attached : netlist.portNet? ⟨key, entry.1⟩ = some name := by
        rw [portNet?_of_cell there]
        exact Option.bind_eq_some_iff.mpr ⟨entry.2, portThere, onNet⟩
      exact consistent.linked.present attached

end Netlist

end TileFabric
