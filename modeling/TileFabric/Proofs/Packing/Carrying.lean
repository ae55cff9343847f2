import TileFabric.Proofs.Packing.Moves

/-!
# Wirings

A wiring lists which port of the source moves to which port of the target. `carried` is what its
moves come to, one after the other: in the nets, references to the source follow the wiring in
place, and a port of the target ends on the net of the port that moves to it.
-/

set_option autoImplicit false

namespace TileFabric.Bench

theorem source_name_moved (sourcePort targetPort : String) (bench : Bench) :
    (bench.moved sourcePort targetPort).source.name = bench.source.name := by
  unfold moved
  cases bench.source.portNet? sourcePort <;> rfl

theorem portNet?_source_moved (sourcePort targetPort : String) (bench : Bench) (port : String) :
    (bench.moved sourcePort targetPort).source.portNet? port =
      if sourcePort = port then none else bench.source.portNet? port := by
  unfold moved
  cases held : bench.source.portNet? sourcePort with
  | none =>
    by_cases same : sourcePort = port
    · simp [← same, held]
    · simp [same]
  | some name => exact Cell.portNet?_detach ..

/-- A move changes nothing of the target but the net of one port. -/
theorem target_moved (sourcePort targetPort : String) (bench : Bench) :
    (bench.moved sourcePort targetPort).target =
      { bench.target with ports := (bench.moved sourcePort targetPort).target.ports } := by
  unfold moved
  cases bench.source.portNet? sourcePort <;> rfl

theorem lookup_ports_moved (sourcePort targetPort : String) (bench : Bench) (port : String) :
    (bench.moved sourcePort targetPort).target.ports[port]? =
      if targetPort = port then bench.target.ports[port]?.map fun p =>
        { p with net := (bench.source.portNet? sourcePort).or p.net }
      else bench.target.ports[port]? := by
  unfold moved
  cases bench.source.portNet? sourcePort with
  | none => simp
  | some name => exact NameMap.lookup_modify ..

theorem lookup_nets_moved (sourcePort targetPort : String) (bench : Bench) (name : String) :
    (bench.moved sourcePort targetPort).nets[name]? = bench.nets[name]?.map (·.mapRefs fun ref =>
      if ref = ⟨bench.source.name, sourcePort⟩ ∧ bench.source.portNet? sourcePort = some name then
        ⟨bench.target.name, targetPort⟩
      else ref) := by
  have untouched := (Net.map_mapRefs_self bench.nets[name]?).symm
  unfold moved
  cases held : bench.source.portNet? sourcePort with
  | none => simpa using untouched
  | some other =>
    refine (NameMap.lookup_modify ..).trans ?_
    by_cases same : other = name
    · rw [if_pos same]
      simp [same, Net.redirect, Net.mapRefs]
    · simpa [same] using untouched

theorem moved_withParam (name : String) (value : Property) (sourcePort targetPort : String)
    (bench : Bench) : (bench.withParam name value).moved sourcePort targetPort =
      (bench.moved sourcePort targetPort).withParam name value := by
  have attached : (bench.withParam name value).source.portNet? sourcePort =
      bench.source.portNet? sourcePort := rfl
  unfold moved
  rw [attached]
  cases bench.source.portNet? sourcePort <;> rfl

/-- The bench with the connections of a wiring moved, one after the other. -/
def carried (wiring : List (String × String)) (bench : Bench) : Bench :=
  wiring.foldl (fun bench pair => bench.moved pair.1 pair.2) bench

theorem carried_append (first second : List (String × String)) (bench : Bench) :
    bench.carried (first ++ second) = (bench.carried first).carried second :=
  List.foldl_append

theorem carried_withParam (name : String) (value : Property) (wiring : List (String × String))
    (bench : Bench) : (bench.withParam name value).carried wiring =
      (bench.carried wiring).withParam name value := by
  induction wiring generalizing bench with
  | nil => rfl
  | cons pair rest ih =>
    refine Eq.trans ?_ (ih (bench.moved pair.1 pair.2))
    exact congrArg (carried rest) (moved_withParam ..)

theorem carried_of_forM {ι : Type} (sourcePort targetPort : ι → String) (items : List ι)
    {bench after : Bench}
    (done : (items.forM fun i => movePort (sourcePort i) (targetPort i)).run bench =
      (.ok (), after)) :
    after = bench.carried (items.map fun i => (sourcePort i, targetPort i)) := by
  induction items generalizing bench with
  | nil =>
    cases done
    rfl
  | cons item rest ih =>
    obtain ⟨_, between, first, others⟩ := run_bind_ok done
    obtain ⟨-, rfl⟩ := movable_of_movePort first
    exact ih others

theorem portNet?_source_carried (wiring : List (String × String)) (bench : Bench) (port : String) :
    (bench.carried wiring).source.portNet? port =
      if port ∈ wiring.map (·.1) then none else bench.source.portNet? port := by
  induction wiring generalizing bench with
  | nil => rfl
  | cons pair rest ih =>
    refine (ih _).trans ?_
    rw [portNet?_source_moved]
    grind

/-- A wiring whose ports are all unattached moves nothing. -/
theorem carried_of_unattached {wiring : List (String × String)} {bench : Bench}
    (unattached : ∀ port ∈ wiring.map (·.1), bench.source.portNet? port = none) :
    bench.carried wiring = bench := by
  induction wiring with
  | nil => rfl
  | cons pair rest ih =>
    obtain ⟨first, others⟩ := List.forall_mem_cons.mp unattached
    exact (congrArg (carried rest) (moved_of_unattached first _)).trans (ih others)

/-- On the side of the source, a wiring changes nothing exactly if its ports are all unattached. -/
theorem carried_unchanged_iff (wiring : List (String × String)) (bench : Bench) :
    (bench.carried wiring).nets = bench.nets ∧ (bench.carried wiring).source = bench.source ↔
      ∀ port ∈ wiring.map (·.1), bench.source.portNet? port = none := by
  constructor
  · rintro ⟨-, same⟩ port member
    rw [← same, portNet?_source_carried, if_pos member]
  · intro unattached
    rw [carried_of_unattached unattached]
    exact ⟨rfl, rfl⟩

/-- A wiring changes nothing of the target but the nets of its ports. -/
theorem target_carried (wiring : List (String × String)) (bench : Bench) :
    (bench.carried wiring).target =
      { bench.target with ports := (bench.carried wiring).target.ports } := by
  induction wiring generalizing bench with
  | nil => rfl
  | cons pair rest ih =>
    refine (ih _).trans ?_
    rw [target_moved]
    rfl

/-- What the target becomes does not depend on the nets. -/
theorem target_carried_congr (wiring : List (String × String)) {bench other : Bench}
    (sources : bench.source = other.source) (targets : bench.target = other.target) :
    (bench.carried wiring).target = (other.carried wiring).target := by
  induction wiring generalizing bench other with
  | nil => exact targets
  | cons pair rest ih =>
    have sourcesLater : (bench.moved pair.1 pair.2).source =
        (other.moved pair.1 pair.2).source := by
      unfold moved
      rw [sources]
      cases other.source.portNet? pair.1 with
      | none => exact sources
      | some name => rfl
    have targetsLater : (bench.moved pair.1 pair.2).target =
        (other.moved pair.1 pair.2).target := by
      unfold moved
      rw [sources, targets]
      cases other.source.portNet? pair.1 with
      | none => exact targets
      | some name => rfl
    exact ih sourcesLater targetsLater

/-- Where a wiring takes a reference of a net. -/
def follow (wiring : List (String × String)) (bench : Bench) (name : String) (ref : PortRef) :
    PortRef :=
  if ref.cell = bench.source.name ∧ bench.source.portNet? ref.port = some name then
    match wiring.lookup ref.port with
    | some port => ⟨bench.target.name, port⟩
    | none => ref
  else ref

/-- References to the source follow the wiring in place; the others stay. -/
theorem lookup_nets_carried (wiring : List (String × String)) {bench : Bench}
    (apart : bench.target.name ≠ bench.source.name) (name : String) :
    (bench.carried wiring).nets[name]? =
      bench.nets[name]?.map (·.mapRefs (bench.follow wiring name)) := by
  induction wiring generalizing bench with
  | nil =>
    have fixed : bench.follow [] name = fun ref => ref := by
      funext ref
      simp [follow]
    rw [fixed, Net.map_mapRefs_self]
    rfl
  | cons pair rest ih =>
    obtain ⟨sourcePort, targetPort⟩ := pair
    have sourceName := source_name_moved sourcePort targetPort bench
    have targetName : (bench.moved sourcePort targetPort).target.name = bench.target.name := by
      rw [target_moved]
    have apartLater : (bench.moved sourcePort targetPort).target.name ≠
        (bench.moved sourcePort targetPort).source.name := by
      rwa [sourceName, targetName]
    refine (ih apartLater).trans ?_
    rw [lookup_nets_moved, Option.map_map]
    congr 1
    funext net
    rw [Function.comp_apply, Net.mapRefs_mapRefs]
    congr 1
    funext ref
    obtain ⟨cell, port⟩ := ref
    simp only [follow, sourceName, targetName, portNet?_source_moved, PortRef.mk.injEq,
      List.lookup_cons]
    grind

/-- A port of the target that the wiring does not name keeps its net. -/
theorem lookup_ports_carried_of_not_mem {wiring : List (String × String)} {port : String}
    (absent : port ∉ wiring.map (·.2)) (bench : Bench) :
    (bench.carried wiring).target.ports[port]? = bench.target.ports[port]? := by
  induction wiring generalizing bench with
  | nil => rfl
  | cons pair rest ih =>
    rw [List.map_cons, List.mem_cons, not_or] at absent
    refine (ih absent.2 _).trans ?_
    rw [lookup_ports_moved, if_neg (Ne.symm absent.1)]

theorem free_carried_iff {wiring : List (String × String)} {port : String}
    (absent : port ∉ wiring.map (·.2)) (bench : Bench) :
    (bench.carried wiring).Free port ↔ bench.Free port := by
  unfold Free
  rw [lookup_ports_carried_of_not_mem absent]

/-- A port of the target that the wiring names ends on the net of the port that moves to it. -/
theorem lookup_ports_carried_of_mem {wiring : List (String × String)}
    {sourcePort targetPort : String} (member : (sourcePort, targetPort) ∈ wiring)
    (sources : (wiring.map (·.1)).Nodup) (targets : (wiring.map (·.2)).Nodup) (bench : Bench) :
    (bench.carried wiring).target.ports[targetPort]? =
      bench.target.ports[targetPort]?.map fun p =>
        { p with net := (bench.source.portNet? sourcePort).or p.net } := by
  induction wiring generalizing bench with
  | nil => cases member
  | cons pair rest ih =>
    obtain ⟨sourceUnused, sources⟩ := List.nodup_cons.mp sources
    obtain ⟨targetUnused, targets⟩ := List.nodup_cons.mp targets
    rcases List.mem_cons.mp member with rfl | later
    · refine (lookup_ports_carried_of_not_mem targetUnused _).trans ?_
      rw [lookup_ports_moved, if_pos rfl]
    · refine (ih later sources targets _).trans ?_
      have sourceApart : pair.1 ≠ sourcePort := by
        rintro rfl
        exact sourceUnused (List.mem_map.mpr ⟨_, later, rfl⟩)
      have targetApart : pair.2 ≠ targetPort := by
        rintro rfl
        exact targetUnused (List.mem_map.mpr ⟨_, later, rfl⟩)
      rw [lookup_ports_moved, if_neg targetApart, portNet?_source_moved, if_neg sourceApart]

/-- A wiring takes no port of the target away and adds none. -/
theorem map_direction_carried (wiring : List (String × String)) (bench : Bench) (port : String) :
    (bench.carried wiring).target.ports[port]?.map (·.direction) =
      bench.target.ports[port]?.map (·.direction) := by
  induction wiring generalizing bench with
  | nil => rfl
  | cons pair rest ih =>
    refine (ih _).trans ?_
    rw [lookup_ports_moved]
    by_cases same : pair.2 = port
    · rw [if_pos same, Option.map_map]
      rfl
    · rw [if_neg same]

end TileFabric.Bench
