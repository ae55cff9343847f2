import TileFabric.Proofs.Packing.Carrying
import TileFabric.Proofs.Packing.PassConsistency

/-!
# Conversions of cells

A `Conversion` describes a replacement that goes well: the new cell for each old one and the
wiring between the two. Replacing cells one after the other and committing them then comes to one
renaming of the references, done in place. While it runs, references to ports that do not move
still stand in the nets; consistency with the pending cells says that exactly these are dropped
with the old cells.
-/

set_option autoImplicit false

namespace TileFabric

/-- What cells of some kind are converted to. -/
structure Conversion where
  /-- The new cell before connections move to it. -/
  blank : Cell → Cell
  wiring : Cell → List (String × String)
  /-- What a cell has to be like to be converted. -/
  fits : Cell → Prop

namespace Conversion

/-- The new cell with the connections of the old one. -/
def result (c : Conversion) (source : Cell) : Cell :=
  ((⟨∅, source, c.blank source⟩ : Bench).carried (c.wiring source)).target

/-- What becomes of a reference when cells are converted: one to a port of these cells that does
not move is dropped. -/
def image (c : Conversion) (netlist : Netlist) (names : List String) (ref : PortRef) :
    Option PortRef :=
  if ref.cell ∈ names then do
    let source ← netlist.cells[ref.cell]?
    let port ← (c.wiring source).lookup ref.port
    pure ⟨(c.blank source).name, port⟩
  else some ref

/-- Where a reference stands as long as nothing is dropped. -/
def relocate (c : Conversion) (netlist : Netlist) (names : List String) (ref : PortRef) : PortRef :=
  (c.image netlist names ref).getD ref

variable {c : Conversion} {netlist : Netlist} {names : List String} {ref : PortRef}

theorem name_result (c : Conversion) (source : Cell) :
    (c.result source).name = (c.blank source).name := by
  rw [result, Bench.target_carried]

/-- Connections change nothing of the new cell but the nets of its ports. -/
theorem result_eq (c : Conversion) (source : Cell) :
    c.result source = { c.blank source with ports := (c.result source).ports } :=
  Bench.target_carried ..

theorem map_direction_result (c : Conversion) (source : Cell) (port : String) :
    (c.result source).ports[port]?.map (·.direction) =
      (c.blank source).ports[port]?.map (·.direction) :=
  Bench.map_direction_carried ..

theorem portNet?_result_of_not_mem {source : Cell} {port : String}
    (absent : port ∉ (c.wiring source).map (·.2)) :
    (c.result source).portNet? port = (c.blank source).portNet? port := by
  unfold Cell.portNet? result
  rw [Bench.lookup_ports_carried_of_not_mem absent]

/-- A free port that the wiring names ends on the net of the port that moves to it. -/
theorem portNet?_result_of_mem {source : Cell} {sourcePort targetPort : String}
    (member : (sourcePort, targetPort) ∈ c.wiring source)
    (sources : ((c.wiring source).map (·.1)).Nodup)
    (targets : ((c.wiring source).map (·.2)).Nodup)
    (free : ∃ p, (c.blank source).ports[targetPort]? = some p ∧ p.net = none) :
    (c.result source).portNet? targetPort = source.portNet? sourcePort := by
  obtain ⟨p, there, free⟩ := free
  have ports := Bench.lookup_ports_carried_of_mem member sources targets
    ⟨∅, source, c.blank source⟩
  rw [there, Option.map_some, free, Option.or_none] at ports
  rw [Cell.portNet?, result, ports]
  rfl

theorem image_of_not_mem (other : ref.cell ∉ names) : c.image netlist names ref = some ref :=
  if_neg other

theorem image_of_mem {source : Cell} (member : ref.cell ∈ names)
    (there : netlist.cells[ref.cell]? = some source) : c.image netlist names ref =
      ((c.wiring source).lookup ref.port).map (⟨(c.blank source).name, ·⟩) := by
  rw [image, if_pos member, there]
  cases moved : (c.wiring source).lookup ref.port <;> simp [moved]

theorem relocate_of_not_mem (other : ref.cell ∉ names) : c.relocate netlist names ref = ref := by
  rw [relocate, image_of_not_mem other]
  rfl

/-- A reference stays or is relocated to a new cell. -/
theorem relocate_cases (c : Conversion) (netlist : Netlist) (names : List String) (ref : PortRef) :
    c.relocate netlist names ref = ref ∨ ∃ source, ref.cell ∈ names ∧
      netlist.cells[ref.cell]? = some source ∧
      (c.relocate netlist names ref).cell = (c.blank source).name := by
  by_cases member : ref.cell ∈ names
  · unfold relocate
    cases there : netlist.cells[ref.cell]? with
    | none => simp [image, member, there]
    | some source =>
      rw [image_of_mem member there]
      cases (c.wiring source).lookup ref.port with
      | none => exact .inl rfl
      | some port => exact .inr ⟨source, member, rfl, rfl⟩
  · exact .inl (relocate_of_not_mem member)

/-- Where a reference goes depends on the netlist only at the cell that it is to. -/
theorem relocate_congr {first second : Netlist} {fewer : List String}
    (same : first.cells[ref.cell]? = second.cells[ref.cell]?)
    (listed : ref.cell ∈ fewer ↔ ref.cell ∈ names) :
    c.relocate first fewer ref = c.relocate second names ref := by
  simp only [relocate, image, same, listed]

/-- Relocating for one cell and then for others is relocating for all of them at once, if the new
cell is none of the others. -/
theorem relocate_cons {between : Netlist} {name : String} {source : Cell}
    (there : netlist.cells[name]? = some source) (unlisted : name ∉ names)
    (notListed : (c.blank source).name ∉ names)
    (others : ∀ other ∈ names, between.cells[other]? = netlist.cells[other]?) (ref : PortRef) :
    c.relocate between names (c.relocate netlist [name] ref) =
      c.relocate netlist (name :: names) ref := by
  by_cases toFirst : ref.cell = name
  · have first : c.relocate netlist [name] ref = c.relocate netlist (name :: names) ref :=
      relocate_congr rfl (by simp [toFirst])
    rw [first]
    rcases c.relocate_cases netlist (name :: names) ref with stays | ⟨found, -, foundThere, toNew⟩
    · rw [stays, relocate_of_not_mem (toFirst ▸ unlisted)]
    · rw [toFirst, there] at foundThere
      cases foundThere
      exact relocate_of_not_mem (toNew ▸ notListed)
  · have stays : c.relocate netlist [name] ref = ref :=
      relocate_of_not_mem (by simpa using toFirst)
    rw [stays]
    by_cases listed : ref.cell ∈ names
    · exact relocate_congr (others _ listed) (by simp [toFirst])
    · rw [relocate_of_not_mem listed, relocate_of_not_mem (by simp [toFirst, listed])]

/-- What is dropped in the end are the references that still stand at an old cell. -/
theorem image_eq_relocate
    (fresh : ∀ source, ref.cell ∈ names → netlist.cells[ref.cell]? = some source →
      (c.blank source).name ∉ names) :
    c.image netlist names ref =
      if (c.relocate netlist names ref).cell ∈ names then none
      else some (c.relocate netlist names ref) := by
  by_cases member : ref.cell ∈ names
  · unfold relocate
    cases there : netlist.cells[ref.cell]? with
    | none => simp [image, member, there]
    | some source =>
      rw [image_of_mem member there]
      cases (c.wiring source).lookup ref.port with
      | none => simp [member]
      | some port => simp [fresh source member there]
  · rw [relocate_of_not_mem member, image_of_not_mem member, if_neg member]

end Conversion

/-- The netlist with some cells converted: nothing else has changed. -/
structure Converted (c : Conversion) (names : List String) (before after : Netlist) : Prop where
  kept : ∀ {key : String} {cell : Cell}, key ∉ names → before.cells[key]? = some cell →
    after.cells[key]? = some cell
  gone : ∀ {key : String}, key ∈ names → after.cells[key]? = none
  fits : ∀ {key : String} {source : Cell}, key ∈ names → before.cells[key]? = some source →
    c.fits source
  new : ∀ {key : String} {source : Cell}, key ∈ names → before.cells[key]? = some source →
    after.cells[(c.result source).name]? = some (c.result source)
  only : ∀ {key : String} {cell : Cell}, after.cells[key]? = some cell →
    (key ∉ names ∧ before.cells[key]? = some cell) ∨
      ∃ name ∈ names, ∃ source, before.cells[name]? = some source ∧ cell = c.result source ∧
        key = cell.name
  nets : ∀ name : String, after.nets[name]? =
    before.nets[name]?.map (·.filterMapRefs (c.image before names))
  settings : after.settings = before.settings
  nextName : after.nextName = before.nextName

/-- What becomes of a reference when all cells with a property are converted. -/
theorem Conversion.image_namesOf (c : Conversion) {netlist : Netlist} (named : Netlist.Named netlist)
    (p : Cell → Bool) (ref : PortRef) : c.image netlist (netlist.namesOf p) ref =
      match netlist.cells[ref.cell]? with
      | some source =>
        if p source then ((c.wiring source).lookup ref.port).map (⟨(c.blank source).name, ·⟩)
        else some ref
      | none => some ref := by
  have listed := Netlist.mem_namesOf_iff named p ref.cell
  cases there : netlist.cells[ref.cell]? with
  | none => exact image_of_not_mem (by simp [listed, there])
  | some source =>
    dsimp only
    split
    · rename_i selected
      exact image_of_mem (listed.mpr ⟨source, there, selected⟩) there
    · rename_i other
      exact image_of_not_mem (by simpa [listed, there] using other)

/-- What becomes of a reference when the cells with a property get a suffix to their names and their
ports move along a wiring: one to a port of theirs that does not move is dropped. -/
def Netlist.imageAlong (netlist : Netlist) (p : Cell → Bool) (suffix : String)
    (wiring : Cell → List (String × String)) (ref : PortRef) : Option PortRef :=
  match netlist.cells[ref.cell]? with
  | some cell =>
    if p cell then ((wiring cell).lookup ref.port).map (⟨ref.cell ++ suffix, ·⟩) else some ref
  | none => some ref

/-- A new cell has the connections of an old one along a wiring, and no others. -/
structure WiredFrom (wiring : List (String × String)) (old new : Cell) : Prop where
  along : ∀ {source target : String}, (source, target) ∈ wiring →
    new.portNet? target = old.portNet? source
  others : ∀ port, port ∉ wiring.map (·.2) → new.portNet? port = none

/-- The netlist with each cell that has a property replaced by a new one, under its name with a
suffix: references follow the wiring in their order, and nothing else has changed. -/
structure Replaced (p : Cell → Bool) (suffix : String) (wiring : Cell → List (String × String))
    (becomes : Cell → Cell → Prop) (before after : Netlist) : Prop where
  kept : ∀ {name : String} {cell : Cell}, before.cells[name]? = some cell → p cell = false →
    after.cells[name]? = some cell
  gone : ∀ {name : String} {old : Cell}, before.cells[name]? = some old → p old = true →
    after.cells[name]? = none
  new : ∀ {name : String} {old : Cell}, before.cells[name]? = some old → p old = true →
    ∃ new, after.cells[name ++ suffix]? = some new ∧ becomes old new
  only : ∀ {name : String} {cell : Cell}, after.cells[name]? = some cell →
    (before.cells[name]? = some cell ∧ p cell = false) ∨
      ∃ (key : String) (old : Cell), before.cells[key]? = some old ∧ p old = true ∧
        name = key ++ suffix ∧ becomes old cell
  nets : ∀ name : String, after.nets[name]? =
    before.nets[name]?.map (·.filterMapRefs (before.imageAlong p suffix wiring))
  settings : after.settings = before.settings
  nextName : after.nextName = before.nextName

theorem Conversion.image_eq_imageAlong {c : Conversion} {netlist : Netlist} {suffix : String}
    (named : Netlist.Named netlist)
    (renamed : ∀ source, (c.blank source).name = source.name ++ suffix) (p : Cell → Bool)
    (ref : PortRef) :
    c.image netlist (netlist.namesOf p) ref = netlist.imageAlong p suffix c.wiring ref := by
  rw [image_namesOf c named, Netlist.imageAlong]
  cases there : netlist.cells[ref.cell]? with
  | none => rfl
  | some cell =>
    dsimp only
    rw [renamed, named.cell there]

theorem Conversion.wiredFrom_result {c : Conversion} {source : Cell}
    (sources : ((c.wiring source).map (·.1)).Nodup) (targets : ((c.wiring source).map (·.2)).Nodup)
    (free : ∀ port ∈ (c.wiring source).map (·.2),
      ∃ p, (c.blank source).ports[port]? = some p ∧ p.net = none)
    (unattached : ∀ port, (c.blank source).portNet? port = none) :
    WiredFrom (c.wiring source) source (c.result source) where
  along member :=
    portNet?_result_of_mem member sources targets (free _ (List.mem_map_of_mem member))
  others port absent := (portNet?_result_of_not_mem absent).trans (unattached port)

namespace Converted

variable {c : Conversion} {before after : Netlist} {p : Cell → Bool}

/-- The cells after all cells with a property are converted. -/
theorem cells_of_namesOf (named : Netlist.Named before)
    (converted : Converted c (before.namesOf p) before after) :
    (∀ {key : String} {cell : Cell}, before.cells[key]? = some cell → p cell = false →
        after.cells[key]? = some cell) ∧
      (∀ {key : String} {source : Cell}, before.cells[key]? = some source → p source = true →
        after.cells[key]? = none ∧ c.fits source ∧
          after.cells[(c.result source).name]? = some (c.result source)) ∧
      ∀ {key : String} {cell : Cell}, after.cells[key]? = some cell →
        (before.cells[key]? = some cell ∧ p cell = false) ∨
          ∃ (name : String) (source : Cell), before.cells[name]? = some source ∧ p source = true ∧
            cell = c.result source ∧ key = cell.name := by
  have listed := Netlist.mem_namesOf_iff named p
  refine ⟨?_, ?_, ?_⟩
  · intro key cell there other
    refine converted.kept ?_ there
    rw [listed]
    rintro ⟨found, foundThere, selected⟩
    rw [there] at foundThere
    cases foundThere
    rw [other] at selected
    cases selected
  · intro key source there selected
    have member := (listed key).mpr ⟨source, there, selected⟩
    exact ⟨converted.gone member, converted.fits member there, converted.new member there⟩
  · intro key cell there
    rcases converted.only there with ⟨other, wasThere⟩ | ⟨name, member, source, sourceThere, new⟩
    · refine .inl ⟨wasThere, Bool.eq_false_iff.mpr fun selected => other ?_⟩
      exact (listed key).mpr ⟨cell, wasThere, selected⟩
    · obtain ⟨found, foundThere, selected⟩ := (listed name).mp member
      rw [sourceThere] at foundThere
      cases foundThere
      exact .inr ⟨name, source, sourceThere, selected, new⟩

/-- Converting all cells with a property replaces each of them by what it is converted to. -/
theorem replaced (named : Netlist.Named before)
    (converted : Converted c (before.namesOf p) before after) {suffix : String}
    {becomes : Cell → Cell → Prop}
    (renamed : ∀ source, (c.blank source).name = source.name ++ suffix)
    (result : ∀ source, p source = true → c.fits source → becomes source (c.result source)) :
    Replaced p suffix c.wiring becomes before after := by
  obtain ⟨kept, new, only⟩ := converted.cells_of_namesOf named
  have newName : ∀ {key : String} {source : Cell}, before.cells[key]? = some source →
      (c.result source).name = key ++ suffix := by
    intro key source there
    rw [c.name_result, renamed, named.cell there]
  constructor
  case kept => exact kept
  case gone => exact fun there selected => (new there selected).1
  case new =>
    intro name old there selected
    obtain ⟨-, fits, newThere⟩ := new there selected
    rw [newName there] at newThere
    exact ⟨_, newThere, result old selected fits⟩
  case only =>
    intro name cell there
    rcases only there with wasThere | ⟨key, old, oldThere, selected, rfl, rfl⟩
    · exact .inl wasThere
    · have fits := (new oldThere selected).2.1
      exact .inr ⟨key, old, oldThere, selected, newName oldThere, result old selected fits⟩
  case nets =>
    intro name
    rw [converted.nets, funext (Conversion.image_eq_imageAlong named renamed p)]
  case settings => exact converted.settings
  case nextName => exact converted.nextName

end Converted

namespace Replacement

open Netlist

/-- The moves of a replacement go well only on a cell that fits, and are those of a wiring. -/
structure Performs (r : Replacement) (c : Conversion) : Prop where
  carries : ∀ {source target : Cell} {nets : NameMap Net} {after : Bench},
    r.make source = .ok target → r.move.run ⟨nets, source, target⟩ = (.ok (), after) →
      c.fits source ∧
        after = (⟨nets, source, c.blank source⟩ : Bench).carried (c.wiring source)

/-- The references of the nets to some cells are to ports on these nets. -/
def Resolved (netlist : Netlist) (names : List String) : Prop :=
  ∀ {name : String} {net : Net} {ref : PortRef}, netlist.nets[name]? = some net →
    ref ∈ net.references → ref.cell ∈ names → netlist.portNet? ref = some name

/-- New cells are made, and references to the old ones are relocated; nothing is committed yet. -/
structure Relocated (c : Conversion) (names : List String) (cells : List Cell)
    (before after : Netlist) : Prop where
  made : cells.map some = names.map fun name => before.cells[name]?.map c.result
  fits : ∀ name ∈ names, ∀ source, before.cells[name]? = some source → c.fits source
  nets : ∀ query : String,
    after.nets[query]? = before.nets[query]?.map (·.mapRefs (c.relocate before names))
  settings : after.settings = before.settings
  nextName : after.nextName = before.nextName

section Relocated

variable {c : Conversion} {names : List String} {cells : List Cell} {first second third : Netlist}
  {name : String} {cell source : Cell}

theorem Relocated.refl (netlist : Netlist) : Relocated c [] [] netlist netlist where
  made := rfl
  fits _ member := by cases member
  nets query := by
    have fixed : c.relocate netlist [] = fun ref => ref := by
      funext ref
      exact Conversion.relocate_of_not_mem List.not_mem_nil
    rw [fixed, Net.map_mapRefs_self]
  settings := rfl
  nextName := rfl

theorem Relocated.exists_source (one : Relocated c [name] [cell] first second) :
    ∃ source, first.cells[name]? = some source ∧ cell = c.result source := by
  have made : some cell = first.cells[name]?.map c.result := by simpa using one.made
  obtain ⟨source, there, result⟩ := Option.map_eq_some_iff.mp made.symm
  exact ⟨source, there, result.symm⟩

/-- One more cell in front, if its new cell is none of the others. -/
theorem Relocated.cons (one : Relocated c [name] [cell] first second)
    (rest : Relocated c names cells second third) (there : first.cells[name]? = some source)
    (unlisted : name ∉ names) (notListed : (c.blank source).name ∉ names)
    (others : ∀ other ∈ names, second.cells[other]? = first.cells[other]?) :
    Relocated c (name :: names) (cell :: cells) first third where
  made := by
    rw [List.map_cons, List.map_cons, rest.made]
    congr 1
    · simpa using one.made
    · exact List.map_congr_left fun other member => by rw [others other member]
  fits other member := by
    rcases List.mem_cons.mp member with rfl | later
    · exact one.fits other List.mem_cons_self
    · rw [← others other later]
      exact rest.fits other later
  nets query := by
    rw [rest.nets, one.nets, Option.map_map]
    congr 1
    funext net
    rw [Function.comp_apply, Net.mapRefs_mapRefs]
    congr 1
    funext ref
    exact Conversion.relocate_cons there unlisted notListed others ref
  settings := rest.settings.trans one.settings
  nextName := rest.nextName.trans one.nextName

/-- References to the cells that are still to come have not moved. -/
theorem Relocated.resolved (one : Relocated c [name] [cell] first second)
    (resolved : Resolved first (name :: names)) (there : first.cells[name]? = some source)
    (notListed : (c.blank source).name ∉ names)
    (others : ∀ other ∈ names, second.cells[other]? = first.cells[other]?) :
    Resolved second names := by
  intro query net ref netThere member toCell
  rw [one.nets] at netThere
  obtain ⟨old, oldThere, rfl⟩ := Option.map_eq_some_iff.mp netThere
  rw [Net.references_mapRefs] at member
  obtain ⟨oldRef, oldMember, rfl⟩ := List.mem_map.mp member
  rcases c.relocate_cases first [name] oldRef with stays | ⟨found, isName, foundThere, toNew⟩
  · rw [stays] at toCell ⊢
    rw [portNet?, others _ toCell]
    exact resolved oldThere oldMember (List.mem_cons_of_mem _ toCell)
  · rw [List.mem_singleton.mp isName, there] at foundThere
    cases foundThere
    exact absurd (toNew ▸ toCell) notListed

/-- On the net that its port is on, the wiring takes a reference where it is relocated. -/
theorem follow_eq_relocate {nets : NameMap Net} {query : String} {ref : PortRef}
    (there : first.cells[name]? = some source) (sourceKey : source.name = name)
    (onNet : ref.cell ∈ [name] → first.portNet? ref = some query) :
    (⟨nets, source, c.blank source⟩ : Bench).follow (c.wiring source) query ref =
      c.relocate first [name] ref := by
  by_cases listed : ref.cell ∈ [name]
  · have toSource := List.mem_singleton.mp listed
    have refThere : first.cells[ref.cell]? = some source := toSource ▸ there
    have attached : source.portNet? ref.port = some query := by
      rw [← portNet?_of_cell refThere]
      exact onNet listed
    rw [Bench.follow, if_pos ⟨toSource.trans sourceKey.symm, attached⟩, Conversion.relocate,
      Conversion.image_of_mem listed refThere]
    cases (c.wiring source).lookup ref.port <;> rfl
  · rw [Conversion.relocate_of_not_mem listed]
    exact if_neg fun moves => listed (List.mem_singleton.mpr (moves.1.trans sourceKey))

end Relocated

variable {r : Replacement} {c : Conversion} {suffix : String}

/-- One replacement that goes well. -/
theorem Performs.relocated_of_replaceOne (performs : r.Performs c) (lawful : r.Lawful suffix)
    {name : String} {w after : Workspace} {cell : Cell} (named : Named w.netlist)
    (resolved : Resolved w.netlist [name])
    (done : (r.replaceOne name).run w = (.ok cell, after)) :
    Relocated c [name] [cell] w.netlist after.netlist := by
  have frame := lawful.frame_of_replaceOne named done
  obtain ⟨source, target, bench, there, made, -, moved, rfl, left⟩ := replaceOne_ok done
  obtain ⟨fits, rfl⟩ := performs.carries made moved
  have sourceKey : source.name = name := named.cell there
  have newCell : ((⟨w.netlist.nets, source, c.blank source⟩ : Bench).carried
      (c.wiring source)).target = c.result source := Bench.target_carried_congr _ rfl rfl
  have apart : (c.blank source).name ≠ source.name := by
    rw [← c.name_result, ← newCell, sourceKey]
    intro same
    apply frame.fresh _ List.mem_cons_self
    rw [same, NameMap.mem_iff_lookup]
    exact ⟨source, there⟩
  constructor
  case made => simp [there, newCell]
  case fits =>
    intro other member found foundThere
    rw [List.mem_singleton.mp member, there] at foundThere
    cases foundThere
    exact fits
  case nets =>
    intro query
    rw [left]
    refine (Bench.lookup_nets_carried _ apart query).trans ?_
    cases netThere : w.netlist.nets[query]? with
    | none => rfl
    | some net =>
      rw [Option.map_some, Option.map_some, Net.mapRefs_congr]
      exact fun ref member => follow_eq_relocate there sourceKey (resolved netThere member)
  case settings => rw [left]; rfl
  case nextName => rw [left]; rfl

/-- Replacing cells one after the other relocates the references to all of them at once. -/
theorem Performs.relocated_of_progress (performs : r.Performs c) (lawful : r.Lawful suffix)
    {names : List String} {w stop : Workspace} {cells : List Cell}
    (progress : Progress r w names cells stop) (distinct : names.Nodup)
    (present : ∀ name ∈ names, name ∈ w.netlist.cells) (named : Named w.netlist)
    (resolved : Resolved w.netlist names) :
    Relocated c names cells w.netlist stop.netlist := by
  induction progress with
  | nil w => exact .refl w.netlist
  | @cons w between stop name names cell cells done _ ih =>
    have frame := lawful.frame_of_replaceOne named done
    obtain ⟨unlisted, distinct⟩ := List.nodup_cons.mp distinct
    have one := performs.relocated_of_replaceOne lawful named (fun there member toCell =>
      resolved there member (List.mem_singleton.mp toCell ▸ List.mem_cons_self)) done
    obtain ⟨source, there, newCell⟩ := one.exists_source
    have others : ∀ other ∈ names, between.netlist.cells[other]? = w.netlist.cells[other]? := by
      intro other member
      apply frame.others
      intro isName
      exact unlisted (List.mem_singleton.mp isName ▸ member)
    -- The new cell is none of the cells that are still to come.
    have notListed : (c.blank source).name ∉ names := by
      intro member
      apply frame.fresh cell List.mem_cons_self
      rw [newCell, c.name_result]
      exact present _ (List.mem_cons_of_mem _ member)
    have presentLater : ∀ other ∈ names, other ∈ between.netlist.cells := fun other member =>
      (frame.keys other).mpr (present other (List.mem_cons_of_mem _ member))
    have rest := ih distinct presentLater frame.named
      (one.resolved resolved there notListed others)
    exact one.cons rest there unlisted notListed others

/-- Committing the cells of a progress converts them and drops the references that are left. -/
theorem Performs.converted_of_commit (performs : r.Performs c) (lawful : r.Lawful suffix)
    {names : List String} {w stop : Workspace} {cells : List Cell}
    (progress : Progress r w names cells stop) (distinct : names.Nodup)
    (present : ∀ name ∈ names, name ∈ w.netlist.cells) (consistent : Consistent w.netlist) :
    Converted c names w.netlist ((stop.netlist.withoutCells names).withCells cells) := by
  have named := consistent.toNamed
  have frame := lawful.frame_of_progress named progress
  have relocated := performs.relocated_of_progress lawful progress distinct present named
    fun there member _ => consistent.linked.resolved there member
  have together : Consistent (stop.netlist.withCells cells) :=
    lawful.consistent_of_progress progress distinct named [] (by simp) (by simp) consistent
  have newDistinct := frame.distinct distinct
  have notNew : ∀ {key : String}, key ∈ w.netlist.cells → key ∉ cells.map (·.name) := by
    intro key there member
    obtain ⟨cell, isNew, rfl⟩ := List.mem_map.mp member
    exact frame.fresh cell isNew there
  have isNew : ∀ {name : String} {source : Cell}, name ∈ names →
      w.netlist.cells[name]? = some source → c.result source ∈ cells := by
    intro name source member there
    have listed : some (c.result source) ∈ cells.map some := by
      rw [relocated.made]
      exact List.mem_map.mpr ⟨name, member, by rw [there]; rfl⟩
    simpa using listed
  constructor
  case kept =>
    intro key cell other there
    rw [lookup_withCells_of_not_mem (notNew ((NameMap.mem_iff_lookup ..).mpr ⟨cell, there⟩)),
      lookup_cells_withoutCells, if_neg other, frame.others key other, there]
  case gone =>
    intro key member
    rw [lookup_withCells_of_not_mem (notNew (present key member)), lookup_cells_withoutCells,
      if_pos member]
  case fits => exact fun member there => relocated.fits _ member _ there
  case new =>
    intro key source member there
    exact lookup_withCells_of_distinct newDistinct (isNew member there) _
  case only =>
    intro key cell there
    by_cases new : key ∈ cells.map (·.name)
    · obtain ⟨member, sameName⟩ := lookup_withCells_of_mem new there
      have listed : some cell ∈ cells.map some := List.mem_map_of_mem member
      rw [relocated.made] at listed
      obtain ⟨name, isName, result⟩ := List.mem_map.mp listed
      obtain ⟨source, sourceThere, rfl⟩ := Option.map_eq_some_iff.mp result
      exact .inr ⟨name, isName, source, sourceThere, rfl, sameName.symm⟩
    · rw [lookup_withCells_of_not_mem new, lookup_cells_withoutCells] at there
      split at there
      · cases there
      · rename_i other
        exact .inl ⟨other, frame.others key other ▸ there⟩
  case nets =>
    intro query
    refine (lookup_nets_withoutCells names stop.netlist query).trans ?_
    rw [relocated.nets, Option.map_map]
    cases there : w.netlist.nets[query]? with
    | none => rfl
    | some net =>
      simp only [Option.map_some, Function.comp_apply, Option.some.injEq]
      have resolved : ∀ ref ∈ (net.mapRefs (c.relocate w.netlist names)).references,
          ref.cell ∈ names → stop.netlist.portNet? ref = some query := by
        intro ref member old
        have stillOld := lookup_withCells_of_not_mem (notNew (present _ old)) stop.netlist
        rw [portNet?, ← stillOld]
        exact together.linked.resolved ((relocated.nets query).trans (by rw [there]; rfl)) member
      have dropped : ∀ ref ∈ (net.mapRefs (c.relocate w.netlist names)).references,
          (!decide (ref.cell ∈ names ∧ stop.netlist.portNet? ref = some query)) =
            !decide (ref.cell ∈ names) := by
        intro ref member
        rw [decide_eq_decide.mpr (and_iff_left_of_imp (resolved ref member))]
      rw [Net.keepRefs_congr dropped]
      apply Net.keepRefs_mapRefs
      intro ref _
      rw [Conversion.image_eq_relocate]
      · simp
      · intro source member sourceThere isOld
        apply frame.fresh _ (isNew member sourceThere)
        rw [c.name_result]
        exact present _ isOld
  case settings => exact relocated.settings
  case nextName => exact relocated.nextName

/-- A pass that goes well converts all the cells that it selects and counts them. -/
theorem Performs.converted_of_replaceCells (performs : r.Performs c) (lawful : r.Lawful suffix)
    {p : Cell → Bool} {before : Netlist} {log : Log} {after : Workspace} {count : Nat}
    (consistent : Consistent before)
    (done : (r.replaceCells (before.namesOf p)).run ⟨before, log⟩ = (.ok count, after)) :
    count = before.cells.values.countP p ∧
      Converted c (before.namesOf p) before after.netlist := by
  have named := consistent.toNamed
  have distinct := nodup_namesOf named p
  have present : ∀ name ∈ before.namesOf p, name ∈ before.cells := by
    intro name member
    obtain ⟨cell, there, -⟩ := (mem_namesOf_iff named p name).mp member
    exact (NameMap.mem_iff_lookup ..).mpr ⟨cell, there⟩
  have counted : (before.namesOf p).length = before.cells.values.countP p := by
    rw [namesOf, List.length_map, List.countP_eq_length_filter]
  obtain ⟨cells, stop, progress, ends⟩ := lawful.run_replaceCells (w := ⟨before, log⟩) distinct named
  rcases ends with ⟨all, run⟩ | ⟨_, _, _, -, -, run⟩
  · rw [run] at done
    cases done
    rw [all, List.take_length] at progress
    exact ⟨counted, performs.converted_of_commit lawful progress distinct present consistent⟩
  · rw [run] at done
    cases done

end Replacement

end TileFabric
