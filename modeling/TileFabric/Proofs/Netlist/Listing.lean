import Mathlib.Data.List.Dedup
import Mathlib.Data.List.Flatten
import Mathlib.Data.List.Perm.Subperm
import TileFabric.Proofs.Netlist.Links

/-!
# Ports that their nets list

The check of a netlist looks up every reference of a net at the ports, but of a port only whether
its net is there: a port may be on a net that does not list it. What a net lists are ports that are
on it, so such a port shows in the numbers of the two.
-/

set_option autoImplicit false

namespace TileFabric

namespace Netlist

/-- The ports that are on a net, cell by cell. -/
def portsOn (netlist : Netlist) (name : String) : List PortRef :=
  netlist.cells.toList.flatMap fun (key, cell) =>
    (cell.ports.toList.filter fun (_, p) => p.net = some name).map fun (port, _) => ⟨key, port⟩

theorem mem_portsOn_iff (netlist : Netlist) (name : String) (ref : PortRef) :
    ref ∈ netlist.portsOn name ↔ netlist.portNet? ref = some name := by
  simp only [portsOn, List.mem_flatMap, List.mem_map, List.mem_filter, Prod.exists,
    Std.ExtTreeMap.mem_toList_iff_getElem?_eq_some, decide_eq_true_eq]
  constructor
  · rintro ⟨key, cell, there, port, p, ⟨portThere, onNet⟩, rfl⟩
    rw [portNet?_of_cell there]
    exact Option.bind_eq_some_iff.mpr ⟨p, portThere, onNet⟩
  · intro attached
    obtain ⟨cell, there, onPort⟩ := cell_of_portNet? attached
    obtain ⟨p, portThere, onNet⟩ := Option.bind_eq_some_iff.mp onPort
    exact ⟨ref.cell, cell, there, ref.port, p, ⟨portThere, onNet⟩, rfl⟩

/-- No port is counted twice: cells differ by their keys and the ports of a cell by theirs. -/
theorem nodup_portsOn (netlist : Netlist) (name : String) : (netlist.portsOn name).Nodup := by
  have keysDiffer {α : Type} (map : NameMap α) :
      map.toList.Pairwise fun first second => first.1 ≠ second.1 :=
    Std.ExtTreeMap.distinct_keys_toList.imp fun apart same => apart (by simp [same])
  unfold portsOn
  rw [List.nodup_flatMap]
  constructor
  · rintro ⟨key, cell⟩ -
    rw [List.Nodup, List.pairwise_map]
    refine ((keysDiffer cell.ports).filter _).imp fun apart same => ?_
    exact apart (congrArg PortRef.port same)
  · refine (keysDiffer netlist.cells).imp fun apart ref left right => ?_
    obtain ⟨_, -, rfl⟩ := List.mem_map.mp left
    obtain ⟨_, -, same⟩ := List.mem_map.mp right
    exact apart (congrArg PortRef.cell same).symm

/-- Of a net whose references are to ports on it, all ports on it are listed if there are as many
of them as it lists. -/
theorem listed_iff_length_eq {netlist : Netlist} {name : String} {net : Net}
    (resolved : ∀ ref ∈ net.references, netlist.portNet? ref = some name) :
    (∀ ref, netlist.portNet? ref = some name → ref ∈ net.references) ↔
      net.references.dedup.length = (netlist.portsOn name).length := by
  have within : net.references.dedup ⊆ netlist.portsOn name := by
    intro ref member
    exact (mem_portsOn_iff ..).mpr (resolved ref (List.mem_dedup.mp member))
  have fewer := List.subperm_of_subset (List.nodup_dedup net.references) within
  constructor
  · intro listed
    have back : netlist.portsOn name ⊆ net.references.dedup := by
      intro ref member
      exact List.mem_dedup.mpr (listed ref ((mem_portsOn_iff ..).mp member))
    have more := List.subperm_of_subset (netlist.nodup_portsOn name) back
    exact Nat.le_antisymm fewer.length_le more.length_le
  · intro sameLength ref attached
    have all := fewer.perm_of_length_le (Nat.le_of_eq sameLength.symm)
    exact List.mem_dedup.mp (all.mem_iff.mpr ((mem_portsOn_iff ..).mpr attached))

/-- In a netlist that passes its check every reference of a net is to a port on that net. Every
attached port is listed by its net just if each net lists as many ports as there are on it. -/
theorem ports_listed_iff_counts {netlist : Netlist} (checked : netlist.check = .ok ()) :
    (∀ (name : String) (net : Net) (ref : PortRef), netlist.nets[name]? = some net →
      ref ∈ net.references → netlist.portNet? ref = some name) ∧
    ((∀ (ref : PortRef) (name : String), netlist.portNet? ref = some name →
        ∃ net, netlist.nets[name]? = some net ∧ ref ∈ net.references) ↔
      ∀ (name : String) (net : Net), netlist.nets[name]? = some net →
        net.references.dedup.length = (netlist.portsOn name).length) := by
  have consistent := (check_eq_ok_iff _).mp checked
  have resolved : ∀ (name : String) (net : Net) (ref : PortRef), netlist.nets[name]? = some net →
      ref ∈ net.references → netlist.portNet? ref = some name :=
    fun _ _ _ there member => consistent.linked.resolved there member
  refine ⟨resolved, ?_⟩
  constructor
  · intro listed name net there
    refine (listed_iff_length_eq fun ref => resolved name net ref there).mp fun ref attached => ?_
    obtain ⟨same, sameThere, member⟩ := listed ref name attached
    cases there.symm.trans sameThere
    exact member
  · intro counts ref name attached
    obtain ⟨net, there⟩ := (NameMap.mem_iff_lookup ..).mp (consistent.linked.present attached)
    have listed := (listed_iff_length_eq fun ref => resolved name net ref there).mpr
      (counts name net there)
    exact ⟨net, there, listed ref attached⟩

/-- A driver and a user that its net lists twice. -/
def repeatedUser : Netlist where
  cells :=
    let output : Port := { direction := .output, net := some "n" }
    let input : Port := { direction := .input, net := some "n" }
    let free : Port := { direction := .input }
    let first : Cell := { name := "a", cellType := "BUF", ports := .ofList [("Y", output)] }
    let second : Cell :=
      { name := "b", cellType := "BUF", ports := .ofList [("A", input), ("B", free)] }
    .ofList [("a", first), ("b", second)]
  nets :=
    let net : Net :=
      { name := "n", driver := some ⟨"a", "Y"⟩, users := [⟨"b", "A"⟩, ⟨"b", "A"⟩] }
    .ofList [("n", net)]
  settings := ∅
  nextName := 0

theorem repeatedUser_ports_listed :
    repeatedUser.check = .ok () ∧
      ∀ (ref : PortRef) (name : String), repeatedUser.portNet? ref = some name →
        ∃ net, repeatedUser.nets[name]? = some net ∧ ref ∈ net.references := by
  have checked : repeatedUser.check = .ok () := by decide +kernel
  have counts : ∀ name ∈ repeatedUser.nets.keys, ∀ net ∈ repeatedUser.nets[name]?,
      net.references.dedup.length = (repeatedUser.portsOn name).length := by decide +kernel
  refine ⟨checked, (ports_listed_iff_counts checked).2.mpr fun name net there => ?_⟩
  exact counts name ((NameMap.mem_keys_iff ..).mpr ⟨net, there⟩) net there

/-- A port on a net that lists nothing. -/
def unlistedPort : Netlist where
  cells :=
    let input : Port := { direction := .input, net := some "n" }
    let buffer : Cell := { name := "x", cellType := "BUF", ports := .ofList [("A", input)] }
    .ofList [("x", buffer)]
  nets := .ofList [("n", ({ name := "n" } : Net))]
  settings := ∅
  nextName := 0

theorem unlistedPort_passes_check :
    unlistedPort.check = .ok () ∧ unlistedPort.portNet? ⟨"x", "A"⟩ = some "n" ∧
      ¬ ∃ net, unlistedPort.nets["n"]? = some net ∧ ⟨"x", "A"⟩ ∈ net.references := by
  have there : unlistedPort.nets["n"]? = some { name := "n" } := by decide +kernel
  refine ⟨by decide +kernel, by decide +kernel, ?_⟩
  rintro ⟨net, found, member⟩
  cases there.symm.trans found
  cases member

end Netlist

end TileFabric
