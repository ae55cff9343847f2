import TileFabric.Proofs.Packing.Carrying

/-!
# One move and its way back

A move changes one port of each cell and, in place, the references of one net. The move the other
way, between the same cells `turned`, takes it back exactly where that net did not list the
target's port already: from such a net both kinds of references would come back as one.
-/

set_option autoImplicit false

namespace TileFabric

namespace Net

theorem redirect_eq (ref replacement : PortRef) (net : Net) : net.redirect ref replacement =
    net.mapRefs fun r => if r = ref then replacement else r := rfl

/-- A replacement of references can be taken back unless the net listed the new one already. -/
theorem redirect_back_iff (ref replacement : PortRef) (net : Net) :
    (net.redirect ref replacement).redirect replacement ref = net ↔
      (replacement ∈ net.references → replacement = ref) := by
  rw [redirect_eq, redirect_eq, mapRefs_mapRefs]
  constructor
  · intro restored listed
    have fixed := congrArg references restored
    rw [references_mapRefs, ← List.map_id net.references, List.map_map] at fixed
    simpa using (List.map_inj_left.mp fixed replacement listed).symm
  · intro unlisted
    refine mapRefs_eq_self _ net fun r member => ?_
    grind

end Net

namespace Bench

/-- The bench with its two cells in each other's place. -/
def turned (bench : Bench) : Bench :=
  { bench with source := bench.target, target := bench.source }

/-- One connection, to the net of a name, has moved, and everything else is as it was. -/
structure MovedOne (sourcePort targetPort name : String) (before after : Bench) : Prop where
  detached : ∃ port, before.source.ports[sourcePort]? = some port ∧
    after.source.ports[sourcePort]? = some { port with net := none }
  attached : ∃ port, before.target.ports[targetPort]? = some port ∧ port.net = none ∧
    after.target.ports[targetPort]? = some { port with net := some name }
  sourcePorts : ∀ port : String, port ≠ sourcePort →
    after.source.ports[port]? = before.source.ports[port]?
  targetPorts : ∀ port : String, port ≠ targetPort →
    after.target.ports[port]? = before.target.ports[port]?
  source : after.source = { before.source with ports := after.source.ports }
  target : after.target = { before.target with ports := after.target.ports }
  redirected : ∃ net, before.nets[name]? = some net ∧
    after.nets[name]? = some (net.mapRefs fun ref =>
      if ref = ⟨before.source.name, sourcePort⟩ then ⟨before.target.name, targetPort⟩ else ref)
  nets : ∀ other : String, other ≠ name → after.nets[other]? = before.nets[other]?

variable {bench : Bench} {sourcePort targetPort name : String}

theorem Movable.movedOne (movable : bench.Movable sourcePort targetPort)
    (held : bench.source.portNet? sourcePort = some name) :
    MovedOne sourcePort targetPort name bench (bench.moved sourcePort targetPort) := by
  obtain ⟨⟨port, there, free⟩, known⟩ := movable name held
  obtain ⟨net, netThere⟩ := (NameMap.mem_iff_lookup ..).mp known
  obtain ⟨sourcePortThere, sourceThere⟩ :=
    (NameMap.mem_iff_lookup ..).mp (Cell.mem_ports_of_portNet? held)
  rw [moved_of_held held]
  refine ⟨⟨sourcePortThere, sourceThere, ?_⟩, ⟨port, there, free, ?_⟩, ?_, ?_, rfl, rfl,
    ⟨net, netThere, ?_⟩, ?_⟩
  · simp [Cell.withPortNet, sourceThere]
  · simp [Cell.withPortNet, there]
  · intro other apart
    simp [Cell.withPortNet, NameMap.lookup_modify, apart.symm]
  · intro other apart
    simp [Cell.withPortNet, NameMap.lookup_modify, apart.symm]
  · simp [netThere, Net.redirect_eq]
  · intro other apart
    simp [NameMap.lookup_modify, apart.symm]

/-- What has moved can move back. -/
theorem Movable.back (movable : bench.Movable sourcePort targetPort)
    (held : bench.source.portNet? sourcePort = some name) :
    (bench.moved sourcePort targetPort).turned.Movable targetPort sourcePort := by
  have moved := movable.movedOne held
  obtain ⟨port, -, freed⟩ := moved.detached
  obtain ⟨_, -, -, onTarget⟩ := moved.attached
  obtain ⟨net, -, there⟩ := moved.redirected
  intro other attached
  have same : name = other := by simpa [turned, Cell.portNet?, onTarget] using attached
  subst same
  exact ⟨⟨_, freed, rfl⟩, (NameMap.mem_iff_lookup ..).mpr ⟨_, there⟩⟩

/-- The way back restores both cells, and every net but the one of the connection. -/
theorem moved_back (movable : bench.Movable sourcePort targetPort)
    (held : bench.source.portNet? sourcePort = some name) :
    (bench.moved sourcePort targetPort).turned.moved targetPort sourcePort =
      { bench.turned with
        nets := bench.nets.modify name fun net =>
          (net.redirect ⟨bench.source.name, sourcePort⟩ ⟨bench.target.name, targetPort⟩).redirect
            ⟨bench.target.name, targetPort⟩ ⟨bench.source.name, sourcePort⟩ } := by
  obtain ⟨⟨port, there, free⟩, -⟩ := movable name held
  have freeTarget : bench.target.portNet? targetPort = none := by
    simp [Cell.portNet?, there, free]
  have heldBack : (bench.moved sourcePort targetPort).turned.source.portNet? targetPort =
      some name := by
    have onTarget : targetPort ∈ bench.target.ports := (NameMap.mem_iff_lookup ..).mpr ⟨port, there⟩
    rw [moved_of_held held]
    exact (Cell.portNet?_attach onTarget ..).trans (if_pos rfl)
  rw [moved_of_held heldBack, moved_of_held held]
  -- Each cell has one port set to and fro; the nets are one net redirected twice.
  have source := Cell.withPortNet_back freeTarget (some name)
  have target := Cell.withPortNet_back held none
  simp only [turned, source, target, Bench.mk.injEq, and_self, and_true]
  apply Std.ExtTreeMap.ext_getElem?
  intro other
  simp only [NameMap.lookup_modify]
  by_cases same : name = other
  · simp [same, Cell.withPortNet, Function.comp_def]
  · simp [same]

/-- The way back leads to where the move started unless the net listed the target's port. -/
theorem moved_back_eq_iff (movable : bench.Movable sourcePort targetPort)
    (held : bench.source.portNet? sourcePort = some name) {net : Net}
    (there : bench.nets[name]? = some net) :
    (bench.moved sourcePort targetPort).turned.moved targetPort sourcePort = bench.turned ↔
      (⟨bench.target.name, targetPort⟩ ∈ net.references →
        (⟨bench.target.name, targetPort⟩ : PortRef) = ⟨bench.source.name, sourcePort⟩) := by
  rw [moved_back movable held, ← Net.redirect_back_iff]
  constructor
  · intro restored
    have netBack := congrArg (·.nets[name]?) restored
    simpa [turned, NameMap.lookup_modify, there] using netBack
  · intro netBack
    refine congrArg (fun nets => { bench.turned with nets }) ?_
    apply Std.ExtTreeMap.ext_getElem?
    intro other
    rw [NameMap.lookup_modify]
    by_cases same : name = other
    · subst same
      simp [there, netBack]
    · simp [same]

/--
A move either fails, or finds no connection, and changes nothing, or moves that one connection in
place. Where no net listed the target's port, the move the other way then restores the nets and
both cells.
-/
theorem movePort_moves_one (sourcePort targetPort : String) (bench : Bench) :
    let outcome := (movePort sourcePort targetPort).run bench
    (outcome.1 = .ok () ↔ bench.Movable sourcePort targetPort) ∧
    (∀ e, outcome.1 = .error e → outcome.2 = bench) ∧
    (outcome.1 = .ok () → bench.source.portNet? sourcePort = none → outcome.2 = bench) ∧
    ∀ name, outcome.1 = .ok () → bench.source.portNet? sourcePort = some name →
      MovedOne sourcePort targetPort name bench outcome.2 ∧
      ((∀ (other : String) net, bench.nets[other]? = some net →
          (⟨bench.target.name, targetPort⟩ : PortRef) ∉ net.references) →
        (movePort targetPort sourcePort).run outcome.2.turned = (.ok (), bench.turned)) := by
  intro outcome
  by_cases movable : bench.Movable sourcePort targetPort
  · have done : outcome = (.ok (), bench.moved sourcePort targetPort) :=
      movePort_of_movable movable
    rw [done]
    refine ⟨by simp [movable], by simp, fun _ free => by simp [moved, free], fun name _ held => ?_⟩
    refine ⟨movable.movedOne held, fun unlisted => ?_⟩
    obtain ⟨net, there⟩ := (NameMap.mem_iff_lookup ..).mp (movable name held).2
    have restored := (moved_back_eq_iff movable held there).mpr fun listed =>
      absurd listed (unlisted name net there)
    rw [movePort_of_movable (movable.back held), restored]
  · obtain ⟨e, refused⟩ := movePort_of_not_movable movable
    have failed : outcome = (.error e, bench) := refused
    rw [failed]
    simp [movable]

/-- A connection about to move off a port that its net lists as its driver and twice as a user. -/
def repeatedSource : Bench where
  nets :=
    let old : PortRef := ⟨"old", "p"⟩
    let held : Net := { name := "n", driver := some old, users := [old, ⟨"x", "a"⟩, old] }
    .ofList [("n", held)]
  source :=
    let attached : Port := { direction := .inout, net := some "n" }
    { name := "old", cellType := "BUF", ports := .ofList [("p", attached)] }
  target :=
    let free : Port := { direction := .inout }
    { name := "new", cellType := "BUF", ports := .ofList [("q", free)] }

theorem repeatedSource_moves_one :
    let outcome := (movePort "p" "q").run repeatedSource
    outcome.1 = .ok () ∧ repeatedSource.source.portNet? "p" = some "n" ∧
      MovedOne "p" "q" "n" repeatedSource outcome.2 ∧
      (movePort "q" "p").run outcome.2.turned = (.ok (), repeatedSource.turned) := by
  have done : ((movePort "p" "q").run repeatedSource).1 = .ok () := by decide +kernel
  have held : repeatedSource.source.portNet? "p" = some "n" := by decide +kernel
  have unlisted : ∀ (other : String) net, repeatedSource.nets[other]? = some net →
      (⟨repeatedSource.target.name, "q"⟩ : PortRef) ∉ net.references := by
    intro other net there
    have all : ∀ net ∈ repeatedSource.nets.values, (⟨"new", "q"⟩ : PortRef) ∉ net.references := by
      decide +kernel
    exact all net ((NameMap.mem_values_iff ..).mpr ⟨other, there⟩)
  obtain ⟨-, -, -, one⟩ := movePort_moves_one "p" "q" repeatedSource
  obtain ⟨movedOne, back⟩ := one "n" done held
  exact ⟨done, held, movedOne, back unlisted⟩

end Bench

end TileFabric
