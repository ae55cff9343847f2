import TileFabric.Packing.Replacement
import TileFabric.Proofs.Netlist.Editing
import TileFabric.Proofs.Packing.Moves

/-!
# Runs of a replacement

`Progress` says what replacing cells one after the other comes to: new cells for as many names as
go well, and the error of the one that does not. New names never clash, so that the cells always
enter the netlist when the old ones have left it: `replaceCells` ends with the cells of its
progress in place of the old ones, whether it fails or not.
-/

set_option autoImplicit false

namespace TileFabric

namespace Netlist

/-- The netlist with new cells under their names. -/
def withCells (cells : List Cell) (netlist : Netlist) : Netlist :=
  { netlist with
    cells := cells.foldl (fun kept cell => kept.insert cell.name cell) netlist.cells }

theorem withCells_append (first second : List Cell) (netlist : Netlist) :
    netlist.withCells (first ++ second) = (netlist.withCells first).withCells second := by
  simp [withCells, List.foldl_append]

/-- A lookup behind new cells depends on the netlist only at the name looked up. -/
theorem lookup_withCells_congr (cells : List Cell) {netlist other : Netlist} {key : String}
    (same : netlist.cells[key]? = other.cells[key]?) :
    (netlist.withCells cells).cells[key]? = (other.withCells cells).cells[key]? := by
  induction cells generalizing netlist other with
  | nil => exact same
  | cons cell rest ih =>
    have sameLater : ({ netlist with cells := netlist.cells.insert cell.name cell } :
        Netlist).cells[key]? =
          ({ other with cells := other.cells.insert cell.name cell } : Netlist).cells[key]? := by
      simp only [NameMap.lookup_insert, same]
    exact ih sameLater

theorem lookup_withCells_of_not_mem {cells : List Cell} {key : String}
    (absent : key ∉ cells.map (·.name)) (netlist : Netlist) :
    (netlist.withCells cells).cells[key]? = netlist.cells[key]? := by
  induction cells generalizing netlist with
  | nil => rfl
  | cons cell rest ih =>
    rw [List.map_cons, List.mem_cons, not_or] at absent
    obtain ⟨apart, absent⟩ := absent
    refine (ih absent { netlist with cells := netlist.cells.insert cell.name cell }).trans ?_
    exact (NameMap.lookup_insert ..).trans (if_neg (Ne.symm apart))

theorem lookup_withCells_of_mem {cells : List Cell} {key : String} {found : Cell}
    {netlist : Netlist} (member : key ∈ cells.map (·.name))
    (there : (netlist.withCells cells).cells[key]? = some found) :
    found ∈ cells ∧ found.name = key := by
  induction cells generalizing netlist with
  | nil => cases member
  | cons cell rest ih =>
    by_cases later : key ∈ rest.map (·.name)
    · have thereLater : (({ netlist with cells := netlist.cells.insert cell.name cell } :
          Netlist).withCells rest).cells[key]? = some found := there
      obtain ⟨inRest, name⟩ := ih later thereLater
      exact ⟨List.mem_cons_of_mem _ inRest, name⟩
    · have same : key = cell.name := by simpa [later] using member
      have lookup := lookup_withCells_of_not_mem later
        { netlist with cells := netlist.cells.insert cell.name cell }
      have first : some found = some cell :=
        there.symm.trans (lookup.trans (by simp [same]))
      cases first
      exact ⟨List.mem_cons_self, same.symm⟩

theorem lookup_withCells_of_distinct {cells : List Cell} (distinct : (cells.map (·.name)).Nodup)
    {cell : Cell} (member : cell ∈ cells) (netlist : Netlist) :
    (netlist.withCells cells).cells[cell.name]? = some cell := by
  induction cells generalizing netlist with
  | nil => cases member
  | cons first rest ih =>
    obtain ⟨unused, distinct⟩ := List.nodup_cons.mp distinct
    rcases List.mem_cons.mp member with rfl | later
    · refine (lookup_withCells_of_not_mem unused
        { netlist with cells := netlist.cells.insert cell.name cell }).trans ?_
      exact (NameMap.lookup_insert ..).trans (if_pos rfl)
    · exact ih distinct later { netlist with cells := netlist.cells.insert first.name first }

theorem Named.withCells {netlist : Netlist} (named : Named netlist) (cells : List Cell) :
    Named (netlist.withCells cells) := by
  constructor
  · intro key cell there
    by_cases new : key ∈ cells.map (·.name)
    · exact (lookup_withCells_of_mem new there).2
    · rw [lookup_withCells_of_not_mem new] at there
      exact named.cell there
  · exact named.net

/-- Taking old cells out and putting new ones in can go in either order. -/
theorem withoutCells_withCells {old : List String} {new : List Cell}
    (apart : ∀ cell ∈ new, cell.name ∉ old) (netlist : Netlist) :
    (netlist.withoutCells old).withCells new = (netlist.withCells new).withoutCells old := by
  have notNew : ∀ name ∈ old, name ∉ new.map (·.name) := by
    intro name isOld isNew
    obtain ⟨cell, member, rfl⟩ := List.mem_map.mp isNew
    exact apart cell member isOld
  apply eq_of_lookups
  · intro key
    rw [lookup_cells_withoutCells]
    by_cases gone : key ∈ old
    · rw [if_pos gone, lookup_withCells_of_not_mem (notNew key gone), lookup_cells_withoutCells,
        if_pos gone]
    · rw [if_neg gone]
      exact lookup_withCells_congr new (by rw [lookup_cells_withoutCells, if_neg gone])
  · intro name
    change (netlist.withoutCells old).nets[name]? = _
    rw [lookup_nets_withoutCells, lookup_nets_withoutCells]
    congr 1
    funext net
    congr 1
    funext ref
    by_cases gone : ref.cell ∈ old
    · have lookup := lookup_withCells_of_not_mem (notNew ref.cell gone) netlist
      simp [gone, portNet?, lookup]
    · simp [gone]
  · rfl
  · rfl

theorem run_addCells {cells : List Cell} {netlist : Netlist}
    (fresh : ∀ cell ∈ cells, cell.name ∉ netlist.cells)
    (distinct : (cells.map (·.name)).Nodup) :
    (cells.forM addCell).run netlist = (.ok (), netlist.withCells cells) := by
  induction cells generalizing netlist with
  | nil => rfl
  | cons cell rest ih =>
    obtain ⟨unused, distinct⟩ := List.nodup_cons.mp distinct
    let added : Netlist := { netlist with cells := netlist.cells.insert cell.name cell }
    have others : ∀ other ∈ rest, other.name ∉ added.cells := by
      intro other member
      have apart : cell.name ≠ other.name := by
        intro same
        exact unused (List.mem_map.mpr ⟨other, member, same.symm⟩)
      rw [NameMap.not_mem_iff_lookup]
      refine (NameMap.lookup_insert ..).trans ((if_neg apart).trans ?_)
      exact (NameMap.not_mem_iff_lookup ..).mp (fresh other (List.mem_cons_of_mem _ member))
    exact (run_bind_of_ok (run_addCell (fresh cell List.mem_cons_self))).trans (ih others distinct)

end Netlist

namespace Packing

theorem run_netlist (w : Workspace) : netlist.run w = (.ok w.netlist, w) := rfl

theorem run_setNetlist (netlist : Netlist) (w : Workspace) :
    (setNetlist netlist).run w = (.ok (), { w with netlist }) := rfl

theorem run_reports (remarks : List Diagnostic) (w : Workspace) :
    (remarks.forM report).run w = (.ok (), { w with log := remarks.foldl Log.add w.log }) := by
  induction remarks generalizing w with
  | nil => rfl
  | cons remark rest ih => exact (run_bind_of_ok rfl).trans (ih _)

theorem run_edit {α : Type} {change : Edit α} {w : Workspace} {result : Except NetlistError α}
    {netlist : Netlist} (done : change.run w.netlist = (result, netlist)) :
    (edit change).run w = (result, { w with netlist }) := by
  change ((change.run w.netlist).1, { w with netlist := (change.run w.netlist).2 }) = _
  rw [done]

end Packing

namespace Replacement

open Packing

/-- The netlist in which the nets and the source of a bench are put back. -/
def putBack (netlist : Netlist) (name : String) (bench : Bench) : Netlist :=
  { netlist with nets := bench.nets, cells := netlist.cells.insert name bench.source }

theorem run_replaceOne (r : Replacement) {name : String} {w : Workspace} {source : Cell}
    (there : w.netlist.cells[name]? = some source) :
    (r.replaceOne name).run w =
      let log := (r.remarks source).foldl Log.add w.log
      match r.make source with
      | .error e => (.error e, ⟨w.netlist, log⟩)
      | .ok target =>
        if (w.netlist.cells.erase name).contains target.name then
          (.error (.duplicateCell target.name), ⟨w.netlist, log⟩)
        else
          match r.move.run ⟨w.netlist.nets, source, target⟩ with
          | (.ok (), bench) => (.ok bench.target, ⟨putBack w.netlist name bench, log⟩)
          | (.error e, bench) => (.error e, ⟨putBack w.netlist name bench, log⟩) := by
  unfold replaceOne
  rw [run_bind_of_ok (run_netlist w)]
  simp only [there]
  rw [run_bind_of_ok (run_reports _ w)]
  cases made : r.make source with
  | error e => exact run_bind_of_error (run_liftExcept ..)
  | ok target =>
    rw [run_bind_of_ok (run_liftExcept ..)]
    dsimp only
    split
    · rfl
    · cases outcome : r.move.run ⟨w.netlist.nets, source, target⟩ with
      | mk result bench =>
        cases result with
        | ok => exact run_bind_of_ok (run_setNetlist ..)
        | error e => exact run_bind_of_ok (run_setNetlist ..)

theorem replaceOne_ok {r : Replacement} {name : String} {w after : Workspace} {cell : Cell}
    (done : (r.replaceOne name).run w = (.ok cell, after)) :
    ∃ source target bench, w.netlist.cells[name]? = some source ∧ r.make source = .ok target ∧
      target.name ∉ w.netlist.cells.erase name ∧
      r.move.run ⟨w.netlist.nets, source, target⟩ = (.ok (), bench) ∧ cell = bench.target ∧
      after.netlist = putBack w.netlist name bench := by
  cases there : w.netlist.cells[name]? with
  | none =>
    unfold replaceOne at done
    rw [run_bind_of_ok (run_netlist w)] at done
    simp only [there] at done
    cases done
  | some source =>
    rw [run_replaceOne r there] at done
    cases made : r.make source with
    | error e =>
      rw [made] at done
      cases done
    | ok target =>
      rw [made] at done
      dsimp only at done
      split at done
      · cases done
      · rename_i fresh
        cases outcome : r.move.run ⟨w.netlist.nets, source, target⟩ with
        | mk result bench =>
          rw [outcome] at done
          cases result with
          | error e => cases done
          | ok =>
            cases done
            exact ⟨source, target, bench, rfl, made, by simpa using fresh, outcome, rfl, rfl⟩

/-- A replacement that fails has changed nothing, unless it has failed in its move. -/
theorem replaceOne_error {r : Replacement} {name : String} {w after : Workspace} {e : NetlistError}
    (failed : (r.replaceOne name).run w = (.error e, after)) :
    after.netlist = w.netlist ∨ ∃ source target bench, w.netlist.cells[name]? = some source ∧
      r.make source = .ok target ∧
      r.move.run ⟨w.netlist.nets, source, target⟩ = (.error e, bench) ∧
      after.netlist = putBack w.netlist name bench := by
  cases there : w.netlist.cells[name]? with
  | none =>
    unfold replaceOne at failed
    rw [run_bind_of_ok (run_netlist w)] at failed
    simp only [there] at failed
    cases failed
    exact .inl rfl
  | some source =>
    rw [run_replaceOne r there] at failed
    cases made : r.make source with
    | error e =>
      rw [made] at failed
      cases failed
      exact .inl rfl
    | ok target =>
      rw [made] at failed
      dsimp only at failed
      split at failed
      · cases failed
        exact .inl rfl
      · cases outcome : r.move.run ⟨w.netlist.nets, source, target⟩ with
        | mk result bench =>
          rw [outcome] at failed
          cases result with
          | ok => cases failed
          | error e =>
            cases failed
            exact .inr ⟨source, target, bench, rfl, made, outcome, rfl⟩

theorem mem_cells_putBack_iff {netlist : Netlist} {name : String} {source : Cell}
    (there : netlist.cells[name]? = some source) (bench : Bench) (key : String) :
    key ∈ (putBack netlist name bench).cells ↔ key ∈ netlist.cells := by
  have inserted : (putBack netlist name bench).cells[key]? =
      if name = key then some bench.source else netlist.cells[key]? := NameMap.lookup_insert ..
  rw [NameMap.mem_iff_lookup, NameMap.mem_iff_lookup, inserted]
  by_cases same : name = key
  · subst same
    simp [there]
  · simp [same]

/-- Putting a bench back changes nothing exactly if nothing has changed on the bench. -/
theorem putBack_eq_iff {netlist : Netlist} {name : String} {source : Cell}
    (there : netlist.cells[name]? = some source) (bench : Bench) :
    putBack netlist name bench = netlist ↔ bench.nets = netlist.nets ∧ bench.source = source := by
  constructor
  · intro same
    have held : (putBack netlist name bench).cells[name]? = some bench.source := by
      simp [putBack]
    rw [same, there] at held
    exact ⟨congrArg Netlist.nets same, (Option.some.inj held).symm⟩
  · rintro ⟨nets, rfl⟩
    apply Netlist.eq_of_lookups
    · intro key
      refine (NameMap.lookup_insert ..).trans ?_
      by_cases same : name = key
      · rw [if_pos same, ← same, there]
      · rw [if_neg same]
    · intro key
      rw [← nets]
      rfl
    · rfl
    · rfl

/-- What a replacement promises whenever it goes well. -/
structure Lawful (r : Replacement) (suffix : String) : Prop where
  suffix_ne : suffix ≠ ""
  renamed : ∀ {source target}, r.make source = .ok target → target.name = source.name ++ suffix
  unattached : ∀ {source target}, r.make source = .ok target →
    ∀ port, target.portNet? port = none
  rewires : ∀ {bench after}, r.move.run bench = (.ok (), after) → Bench.Rewired bench after

/-- A replacement that fails on a cell has moved nothing of it, if the cell's nets are there. -/
def Atomic (r : Replacement) : Prop :=
  ∀ {source target nets}, r.make source = .ok target →
    (∀ {port name : String}, source.portNet? port = some name → name ∈ nets) →
    Bench.AllOrNothing r.move ⟨nets, source, target⟩

theorem Atomic.unchanged_of_error {r : Replacement} (atomic : r.Atomic) {name : String}
    {w after : Workspace} {source : Cell} {e : NetlistError}
    (there : w.netlist.cells[name]? = some source)
    (known : ∀ {port name : String}, source.portNet? port = some name → name ∈ w.netlist.nets)
    (failed : (r.replaceOne name).run w = (.error e, after)) : after.netlist = w.netlist := by
  rcases replaceOne_error failed with unchanged | ⟨source, target, bench, found, made, stopped, left⟩
  · exact unchanged
  · cases there.symm.trans found
    rcases atomic made known with ⟨after, done⟩ | ⟨e, after, failed, nets, sourceLeft⟩
    · rw [stopped] at done
      cases done
    · rw [stopped] at failed
      cases failed
      rw [left]
      exact (putBack_eq_iff there _).mpr ⟨nets, sourceLeft⟩

/-- What a replacement makes of a cell whose nets are there: it has a new cell for it, and it
refuses the move before any connection has moved or moves them all. -/
structure Refuses (r : Replacement) (refusal? : Cell → Option NetlistError) : Prop where
  makes : ∀ source, ∃ target, r.make source = .ok target
  refused : ∀ nets {source target e}, r.make source = .ok target → refusal? source = some e →
    ∃ after, r.move.run ⟨nets, source, target⟩ = (.error e, after) ∧ after.nets = nets ∧
      after.source = source
  moves : ∀ {source target nets}, r.make source = .ok target →
    (∀ {port name : String}, source.portNet? port = some name → name ∈ nets) →
    refusal? source = none → ∃ after, r.move.run ⟨nets, source, target⟩ = (.ok (), after)

theorem Refuses.atomic {r : Replacement} {refusal? : Cell → Option NetlistError}
    (refuses : r.Refuses refusal?) : r.Atomic := by
  intro source target nets made known
  cases refusal : refusal? source with
  | none => exact .inl (refuses.moves made known refusal)
  | some e => exact .inr ⟨e, refuses.refused nets made refusal⟩

variable {r : Replacement} {suffix : String}

theorem Lawful.name_ne (lawful : r.Lawful suffix) (name : String) : name ++ suffix ≠ name := by
  intro same
  apply lawful.suffix_ne
  have lengths := congrArg String.length same
  rw [String.length_append] at lengths
  exact String.length_eq_zero_iff.mp (by omega)

/-- A replacement fails before its move, where the new name is taken, or in its move. -/
theorem Lawful.taken_or_stopped_of_error (lawful : r.Lawful suffix) {name : String}
    {w after : Workspace} {source target : Cell} {e : NetlistError}
    (there : w.netlist.cells[name]? = some source) (sourceKey : source.name = name)
    (made : r.make source = .ok target) (failed : (r.replaceOne name).run w = (.error e, after)) :
    (name ++ suffix ∈ w.netlist.cells ∧ e = .duplicateCell (name ++ suffix) ∧
        after.netlist = w.netlist) ∨
      (name ++ suffix ∉ w.netlist.cells ∧ ∃ bench,
        r.move.run ⟨w.netlist.nets, source, target⟩ = (.error e, bench) ∧
          after.netlist = putBack w.netlist name bench) := by
  have newName : target.name = name ++ suffix := sourceKey ▸ lawful.renamed made
  have taken : (w.netlist.cells.erase name).contains target.name = true ↔
      name ++ suffix ∈ w.netlist.cells := by
    rw [Std.ExtTreeMap.contains_iff_mem, newName, NameMap.mem_iff_lookup, NameMap.mem_iff_lookup,
      NameMap.lookup_erase, if_neg (lawful.name_ne name).symm]
  rw [run_replaceOne r there, made] at failed
  dsimp only at failed
  split at failed
  · rename_i clash
    cases failed
    exact .inl ⟨taken.mp clash, by rw [newName], rfl⟩
  · rename_i fresh
    refine .inr ⟨fun member => fresh (taken.mpr member), ?_⟩
    cases outcome : r.move.run ⟨w.netlist.nets, source, target⟩ with
    | mk result bench =>
      rw [outcome] at failed
      cases result with
      | ok => cases failed
      | error reason =>
        cases failed
        exact ⟨bench, rfl, rfl⟩

/-- What replacements that go well leave of a netlist: only the cells replaced change, and in the
nets only references to them. -/
structure Frame (r : Replacement) (suffix : String) (before : Netlist) (names : List String)
    (cells : List Cell) (after : Netlist) : Prop where
  new_names : cells.map (·.name) = names.map (· ++ suffix)
  fresh : ∀ cell ∈ cells, cell.name ∉ before.cells
  made : ∀ cell ∈ cells, ∃ source target, r.make source = .ok target ∧
    cell.cellType = target.cellType
  keys : ∀ key, key ∈ after.cells ↔ key ∈ before.cells
  others : ∀ key : String, key ∉ names → after.cells[key]? = before.cells[key]?
  nets : ∃ follow : String → PortRef → PortRef,
    (∀ name ref, ref.cell ∉ names → follow name ref = ref) ∧
      ∀ name : String, after.nets[name]? = before.nets[name]?.map (·.mapRefs (follow name))
  named : Netlist.Named after

theorem Frame.refl {netlist : Netlist} (named : Netlist.Named netlist) :
    Frame r suffix netlist [] [] netlist where
  new_names := rfl
  fresh _ member := by cases member
  made _ member := by cases member
  keys _ := Iff.rfl
  others _ _ := rfl
  nets := ⟨fun _ ref => ref, fun _ _ _ => rfl, fun _ => (Net.map_mapRefs_self _).symm⟩
  named := named

theorem Frame.trans {first second third : Netlist} {names names' : List String}
    {cells cells' : List Cell} (one : Frame r suffix first names cells second)
    (two : Frame r suffix second names' cells' third) :
    Frame r suffix first (names ++ names') (cells ++ cells') third where
  new_names := by rw [List.map_append, List.map_append, one.new_names, two.new_names]
  fresh cell member := by
    rcases List.mem_append.mp member with early | late
    · exact one.fresh cell early
    · rw [← one.keys]
      exact two.fresh cell late
  made cell member := (List.mem_append.mp member).elim (one.made cell) (two.made cell)
  keys key := (two.keys key).trans (one.keys key)
  others key apart := by
    rw [List.mem_append, not_or] at apart
    exact (two.others key apart.2).trans (one.others key apart.1)
  nets := by
    obtain ⟨follow, fixed, nets⟩ := one.nets
    obtain ⟨follow', fixed', nets'⟩ := two.nets
    refine ⟨fun name ref => follow' name (follow name ref), ?_, ?_⟩
    · intro name ref apart
      rw [List.mem_append, not_or] at apart
      dsimp only
      rw [fixed name ref apart.1, fixed' name ref apart.2]
    · intro name
      rw [nets', nets, Option.map_map]
      congr 1
      funext net
      exact Net.mapRefs_mapRefs ..
  named := two.named

/-- One replacement that goes well. -/
theorem Lawful.frame_of_replaceOne (lawful : r.Lawful suffix) {name : String}
    {w after : Workspace} {cell : Cell} (named : Netlist.Named w.netlist)
    (done : (r.replaceOne name).run w = (.ok cell, after)) :
    Frame r suffix w.netlist [name] [cell] after.netlist := by
  obtain ⟨source, target, bench, there, made, fresh, moved, rfl, left⟩ := replaceOne_ok done
  have rewired := lawful.rewires moved
  obtain ⟨⟨sourceName, -⟩, targetName, targetType⟩ := rewired.cells
  have sourceKey : source.name = name := named.cell there
  have lookup : ∀ key : String, after.netlist.cells[key]? =
      if name = key then some bench.source else w.netlist.cells[key]? := by
    intro key
    rw [left]
    exact NameMap.lookup_insert ..
  obtain ⟨follow, others, nets⟩ := rewired.nets
  have netsLeft : ∀ net : String, after.netlist.nets[net]? =
      w.netlist.nets[net]?.map (·.mapRefs (follow net)) := by
    intro net
    rw [left]
    exact nets net
  constructor
  case new_names =>
    simp [targetName, lawful.renamed made, sourceKey]
  case fresh =>
    intro cell member
    have apart : name ≠ target.name := by
      rw [lawful.renamed made, sourceKey]
      exact (lawful.name_ne name).symm
    rw [NameMap.not_mem_iff_lookup, NameMap.lookup_erase, if_neg apart] at fresh
    rw [List.mem_singleton.mp member, targetName, NameMap.not_mem_iff_lookup]
    exact fresh
  case made =>
    intro cell member
    rw [List.mem_singleton.mp member]
    exact ⟨source, target, made, targetType⟩
  case keys =>
    intro key
    rw [left]
    exact mem_cells_putBack_iff there bench key
  case others =>
    intro key apart
    rw [lookup, if_neg (Ne.symm (List.ne_of_not_mem_cons apart))]
  case nets =>
    refine ⟨follow, fun net ref apart => others net ref ?_, netsLeft⟩
    rw [sourceKey]
    exact List.ne_of_not_mem_cons apart
  case named =>
    constructor
    · intro key held keyThere
      rw [lookup] at keyThere
      split at keyThere
      · rename_i same
        cases keyThere
        rw [sourceName, sourceKey, same]
      · exact named.cell keyThere
    · intro key net netThere
      rw [netsLeft] at netThere
      obtain ⟨old, oldThere, rfl⟩ := Option.map_eq_some_iff.mp netThere
      exact (Net.mapRefs_name ..).trans (named.net oldThere)

/-- Replacements that all go well, one after the other, with the new cells that they make. -/
inductive Progress (r : Replacement) : Workspace → List String → List Cell → Workspace → Prop
  | nil (w : Workspace) : Progress r w [] [] w
  | cons {w between after : Workspace} {name : String} {names : List String} {cell : Cell}
      {cells : List Cell} : (r.replaceOne name).run w = (.ok cell, between) →
      Progress r between names cells after → Progress r w (name :: names) (cell :: cells) after

theorem Lawful.frame_of_progress (lawful : r.Lawful suffix) {names : List String}
    {w after : Workspace} {cells : List Cell} (named : Netlist.Named w.netlist)
    (progress : Progress r w names cells after) :
    Frame r suffix w.netlist names cells after.netlist := by
  induction progress with
  | nil => exact .refl named
  | cons done _ ih =>
    have one := lawful.frame_of_replaceOne named done
    exact one.trans (ih one.named)

/-- Replacing while it goes well ends behind the last cell or at the first that fails. -/
theorem run_replaceWhileWell (r : Replacement) (names : List String) (w : Workspace) :
    ∃ cells stop, Progress r w (names.take cells.length) cells stop ∧
      ((cells.length = names.length ∧
          (r.replaceWhileWell names).run w = (.ok (cells, none), stop)) ∨
        ∃ name e after, names[cells.length]? = some name ∧
          (r.replaceOne name).run stop = (.error e, after) ∧
          (r.replaceWhileWell names).run w = (.ok (cells, some e), after)) := by
  induction names generalizing w with
  | nil => exact ⟨[], w, .nil w, .inl ⟨rfl, rfl⟩⟩
  | cons name rest ih =>
    rw [replaceWhileWell]
    cases outcome : (r.replaceOne name).run w with
    | mk result between =>
      cases result with
      | error e =>
        refine ⟨[], w, .nil w, .inr ⟨name, e, between, rfl, outcome, ?_⟩⟩
        exact (run_tryCatch_of_error (run_bind_of_error outcome)).trans rfl
      | ok cell =>
        obtain ⟨cells, stop, progress, ends⟩ := ih between
        refine ⟨cell :: cells, stop, .cons outcome progress, ?_⟩
        rcases ends with ⟨all, run⟩ | ⟨failing, e, after, there, failed, run⟩
        · refine .inl ⟨by simp [all], ?_⟩
          apply run_tryCatch_of_ok
          rw [run_bind_of_ok outcome, run_bind_of_ok run]
          rfl
        · refine .inr ⟨failing, e, after, by simpa using there, failed, ?_⟩
          apply run_tryCatch_of_ok
          rw [run_bind_of_ok outcome, run_bind_of_ok run]
          rfl

theorem run_commit {old : List String} {new : List Cell} {w : Workspace}
    (fresh : ∀ cell ∈ new, cell.name ∉ w.netlist.cells)
    (distinct : (new.map (·.name)).Nodup) :
    (commit old new).run w =
      (.ok (), { w with netlist := (w.netlist.withoutCells old).withCells new }) := by
  apply run_edit
  refine (run_bind_of_ok (run_forM_modify _ old w.netlist)).trans ?_
  rw [Netlist.removeCells_eq]
  apply Netlist.run_addCells _ distinct
  intro cell member
  rw [NameMap.not_mem_iff_lookup, Netlist.lookup_cells_withoutCells]
  split
  · rfl
  · exact (NameMap.not_mem_iff_lookup ..).mp (fresh cell member)

theorem Frame.distinct {before after : Netlist} {names : List String} {cells : List Cell}
    (frame : Frame r suffix before names cells after) (distinct : names.Nodup) :
    (cells.map (·.name)).Nodup := by
  rw [frame.new_names, List.Nodup, List.pairwise_map]
  exact distinct.imp fun apart same => apart ((String.append_left_inj suffix).mp same)

theorem replaceOne_error_keys {name : String} {w after : Workspace} {e : NetlistError}
    (failed : (r.replaceOne name).run w = (.error e, after)) (key : String) :
    key ∈ after.netlist.cells ↔ key ∈ w.netlist.cells := by
  rcases replaceOne_error failed with unchanged | ⟨source, target, bench, there, -, -, left⟩
  · rw [unchanged]
  · rw [left]
    exact mem_cells_putBack_iff there bench key

/-- The cells replaced are committed whether all cells go well or one fails. -/
theorem Lawful.run_replaceCells (lawful : r.Lawful suffix) {names : List String}
    (distinct : names.Nodup) {w : Workspace} (named : Netlist.Named w.netlist) :
    ∃ cells stop, Progress r w (names.take cells.length) cells stop ∧
      ((cells.length = names.length ∧ (r.replaceCells names).run w =
          (.ok names.length,
            { stop with netlist := (stop.netlist.withoutCells names).withCells cells })) ∨
        ∃ name e after, names[cells.length]? = some name ∧
          (r.replaceOne name).run stop = (.error e, after) ∧
          (r.replaceCells names).run w =
            (.error e, { after with netlist :=
              (after.netlist.withoutCells (names.take cells.length)).withCells cells })) := by
  obtain ⟨cells, stop, progress, ends⟩ := run_replaceWhileWell r names w
  have frame := lawful.frame_of_progress named progress
  have newDistinct := frame.distinct (distinct.sublist (List.take_sublist ..))
  have fresh : ∀ cell ∈ cells, cell.name ∉ stop.netlist.cells := by
    intro cell member
    rw [frame.keys]
    exact frame.fresh cell member
  refine ⟨cells, stop, progress, ?_⟩
  unfold replaceCells
  rcases ends with ⟨all, run⟩ | ⟨name, e, after, there, failed, run⟩
  · refine .inl ⟨all, ?_⟩
    rw [run_bind_of_ok run]
    dsimp only
    rw [run_bind_of_ok (run_commit fresh newDistinct), all, List.take_length]
    rfl
  · refine .inr ⟨name, e, after, there, failed, ?_⟩
    rw [run_bind_of_ok run]
    dsimp only
    have freshAfter : ∀ cell ∈ cells, cell.name ∉ after.netlist.cells := by
      intro cell member
      rw [replaceOne_error_keys failed]
      exact fresh cell member
    rw [run_bind_of_ok (run_commit freshAfter newDistinct)]
    rfl

/-- Replacing that goes well swaps the old cells for new ones that lawfully come from them. -/
theorem Lawful.replaceCells_ok (lawful : r.Lawful suffix) {names : List String}
    (distinct : names.Nodup) {w after : Workspace} (named : Netlist.Named w.netlist) {count : Nat}
    (done : (r.replaceCells names).run w = (.ok count, after)) :
    ∃ cells between, Frame r suffix w.netlist names cells between ∧
      after.netlist = (between.withoutCells names).withCells cells := by
  obtain ⟨cells, stop, progress, ends⟩ := lawful.run_replaceCells distinct named
  rcases ends with ⟨all, run⟩ | ⟨_, _, _, -, -, run⟩
  · rw [run] at done
    cases done
    rw [all, List.take_length] at progress
    exact ⟨cells, stop.netlist, lawful.frame_of_progress named progress, rfl⟩
  · rw [run] at done
    cases done

end Replacement

end TileFabric
