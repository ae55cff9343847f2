import TileFabric.Proofs.Netlist.Removal
import TileFabric.Proofs.Packing.Blocks
import TileFabric.Proofs.Runs

/-!
# Moves between two cells

`movePort` either goes well, with the bench `moved`, or leaves the bench alone. Each way of moving
a cell is a series of such moves between settings of parameters (`Rewired`). On a new target no
move fails after the first one, so a way of moving fails before it has moved anything or not at
all.
-/

set_option autoImplicit false

namespace TileFabric.Bench

/-- A port of the target that a connection can move to. -/
def Free (bench : Bench) (port : String) : Prop :=
  ∃ p, bench.target.ports[port]? = some p ∧ p.net = none

/-- The bench with a connection of the source moved to a port of the target. -/
def moved (sourcePort targetPort : String) (bench : Bench) : Bench :=
  match bench.source.portNet? sourcePort with
  | none => bench
  | some name =>
    { nets := bench.nets.modify name
        (·.redirect ⟨bench.source.name, sourcePort⟩ ⟨bench.target.name, targetPort⟩)
      source := bench.source.withPortNet sourcePort none
      target := bench.target.withPortNet targetPort (some name) }

theorem moved_of_held {bench : Bench} {sourcePort name : String}
    (held : bench.source.portNet? sourcePort = some name) (targetPort : String) :
    bench.moved sourcePort targetPort =
      { nets := bench.nets.modify name
          (·.redirect ⟨bench.source.name, sourcePort⟩ ⟨bench.target.name, targetPort⟩)
        source := bench.source.withPortNet sourcePort none
        target := bench.target.withPortNet targetPort (some name) } := by
  simp [moved, held]

theorem moved_of_unattached {bench : Bench} {sourcePort : String}
    (unattached : bench.source.portNet? sourcePort = none) (targetPort : String) :
    bench.moved sourcePort targetPort = bench := by
  simp [moved, unattached]

/-- The bench with a parameter of the target set. -/
def withParam (name : String) (value : Property) (bench : Bench) : Bench :=
  { bench with target := bench.target.setParam name value }

/-- What a move asks for: where there is a connection, a free port for it and its net. -/
def Movable (bench : Bench) (sourcePort targetPort : String) : Prop :=
  ∀ name, bench.source.portNet? sourcePort = some name →
    bench.Free targetPort ∧ name ∈ bench.nets

theorem run_setTarget (name : String) (value : Property) (bench : Bench) :
    (setTarget name value).run bench = (.ok (), bench.withParam name value) := rfl

private theorem run_movePort (sourcePort targetPort : String) (bench : Bench) :
    (movePort sourcePort targetPort).run bench =
      match bench.source.portNet? sourcePort with
      | none => (.ok (), bench)
      | some name =>
        match bench.target.ports[targetPort]? with
        | none => (.error (.missingPort bench.target.name targetPort), bench)
        | some port =>
          if port.net.isSome then (.error (.portInUse bench.target.name targetPort), bench)
          else
            match bench.nets[name]? with
            | none => (.error (.unknownNet name), bench)
            | some _ => (.ok (), bench.moved sourcePort targetPort) := by
  unfold movePort
  rw [run_get_bind]
  cases attached : bench.source.portNet? sourcePort with
  | none => rfl
  | some name =>
    cases bench.target.ports[targetPort]? with
    | none => rfl
    | some port =>
      cases inUse : port.net.isSome with
      | true =>
        simp only [inUse, if_true]
        rfl
      | false =>
        cases there : bench.nets[name]? with
        | none =>
          simp only [inUse, Bool.false_eq_true, if_false, there]
          rfl
        | some net =>
          have updated : bench.nets.insert name (net.redirect ⟨bench.source.name, sourcePort⟩
              ⟨bench.target.name, targetPort⟩) = bench.nets.modify name
                (·.redirect ⟨bench.source.name, sourcePort⟩ ⟨bench.target.name, targetPort⟩) := by
            apply Std.ExtTreeMap.ext_getElem?
            intro key
            rw [NameMap.lookup_insert, NameMap.lookup_modify]
            grind
          simp only [inUse, there, moved, attached, ← updated]
          rfl

theorem movePort_of_movable {bench : Bench} {sourcePort targetPort : String}
    (movable : bench.Movable sourcePort targetPort) :
    (movePort sourcePort targetPort).run bench = (.ok (), bench.moved sourcePort targetPort) := by
  rw [run_movePort]
  cases attached : bench.source.portNet? sourcePort with
  | none => simp [moved, attached]
  | some name =>
    obtain ⟨⟨port, there, free⟩, known⟩ := movable name attached
    obtain ⟨net, netThere⟩ := (NameMap.mem_iff_lookup _ _).mp known
    simp [there, free, netThere]

/-- A move that is refused changes nothing. -/
theorem movePort_of_not_movable {bench : Bench} {sourcePort targetPort : String}
    (refused : ¬ bench.Movable sourcePort targetPort) :
    ∃ e, (movePort sourcePort targetPort).run bench = (.error e, bench) := by
  unfold Movable at refused
  push Not at refused
  obtain ⟨name, attached, obstacle⟩ := refused
  rw [run_movePort, attached]
  cases there : bench.target.ports[targetPort]? with
  | none => exact ⟨_, rfl⟩
  | some port =>
    cases inUse : port.net with
    | some other => exact ⟨.portInUse bench.target.name targetPort, by simp [inUse]⟩
    | none =>
      have unknown := (NameMap.not_mem_iff_lookup ..).mp (obstacle ⟨port, there, inUse⟩)
      exact ⟨.unknownNet name, by simp [inUse, unknown]⟩

theorem movable_of_movePort {bench after : Bench} {sourcePort targetPort : String}
    (done : (movePort sourcePort targetPort).run bench = (.ok (), after)) :
    bench.Movable sourcePort targetPort ∧ after = bench.moved sourcePort targetPort := by
  have movable : bench.Movable sourcePort targetPort := by
    intro name attached
    rw [run_movePort, attached] at done
    dsimp only at done
    split at done
    · cases done
    · rename_i port there
      split at done
      · cases done
      · rename_i free
        split at done
        · cases done
        · rename_i net netThere
          have known := (NameMap.mem_iff_lookup ..).mpr ⟨net, netThere⟩
          exact ⟨⟨port, there, by simpa using free⟩, known⟩
  refine ⟨movable, ?_⟩
  rw [movePort_of_movable movable] at done
  cases done
  rfl

theorem movePort_error {bench after : Bench} {sourcePort targetPort : String} {e : NetlistError}
    (failed : (movePort sourcePort targetPort).run bench = (.error e, after)) :
    ¬ bench.Movable sourcePort targetPort ∧ after = bench := by
  by_cases movable : bench.Movable sourcePort targetPort
  · rw [movePort_of_movable movable] at failed
    cases failed
  · obtain ⟨reason, refused⟩ := movePort_of_not_movable movable
    rw [refused] at failed
    cases failed
    exact ⟨movable, rfl⟩

/-- A series of moves that all went well, between settings of parameters of the target. -/
inductive Rewired : Bench → Bench → Prop
  | refl (bench : Bench) : Rewired bench bench
  | param {bench after : Bench} (name : String) (value : Property) :
      Rewired bench after → Rewired bench (after.withParam name value)
  | port {bench after : Bench} {sourcePort targetPort : String} :
      Rewired bench after → after.Movable sourcePort targetPort →
      Rewired bench (after.moved sourcePort targetPort)

theorem Rewired.trans {first second third : Bench} (before : Rewired first second)
    (after : Rewired second third) : Rewired first third := by
  induction after with
  | refl => exact before
  | param name value _ ih => exact .param name value ih
  | port _ movable ih => exact .port ih movable

theorem rewired_of_setTarget {bench after : Bench} {name : String} {value : Property}
    (done : (setTarget name value).run bench = (.ok (), after)) : Rewired bench after := by
  rw [run_setTarget] at done
  cases done
  exact .param name value (.refl bench)

theorem rewired_of_movePort {bench after : Bench} {sourcePort targetPort : String}
    (done : (movePort sourcePort targetPort).run bench = (.ok (), after)) :
    Rewired bench after := by
  obtain ⟨movable, rfl⟩ := movable_of_movePort done
  exact .port (.refl bench) movable

theorem rewired_of_bind {first second : Move Unit} {bench after : Bench}
    (done : (do first; second).run bench = (.ok (), after))
    (one : ∀ between, first.run bench = (.ok (), between) → Rewired bench between)
    (two : ∀ between, second.run between = (.ok (), after) → Rewired between after) :
    Rewired bench after := by
  obtain ⟨_, between, firstDone, secondDone⟩ := run_bind_ok done
  exact (one between firstDone).trans (two between secondDone)

theorem rewired_of_forM {ι : Type} (sourcePort targetPort : ι → String) (items : List ι)
    {bench after : Bench}
    (done : (items.forM fun i => movePort (sourcePort i) (targetPort i)).run bench =
      (.ok (), after)) : Rewired bench after := by
  induction items generalizing bench with
  | nil =>
    cases done
    exact .refl _
  | cons item rest ih =>
    exact rewired_of_bind done (fun _ => rewired_of_movePort) (fun _ => ih)

theorem rewired_of_lutToBlock {withoutFlipFlop : Bool} {bench after : Bench}
    (done : (lutToBlock withoutFlipFlop).run bench = (.ok (), after)) : Rewired bench after := by
  unfold lutToBlock at done
  rw [run_get_bind] at done
  refine rewired_of_bind done (fun _ => rewired_of_setTarget) fun between done => ?_
  dsimp only at done
  split at done
  · cases done
  · refine rewired_of_bind done (fun _ => rewired_of_forM _ _ _) fun between done => ?_
    split at done
    · exact rewired_of_bind done (fun _ => rewired_of_setTarget) fun _ => rewired_of_movePort
    · cases done
      exact .refl _

theorem rewired_of_flipFlopToBlock {passThrough : Bool} {bench after : Bench}
    (done : (flipFlopToBlock passThrough).run bench = (.ok (), after)) : Rewired bench after := by
  unfold flipFlopToBlock at done
  rw [run_get_bind] at done
  refine rewired_of_bind done (fun _ => rewired_of_setTarget) fun _ done => ?_
  refine rewired_of_bind done (fun _ => rewired_of_setTarget) fun _ done => ?_
  refine rewired_of_bind done (fun _ => rewired_of_movePort) fun _ done => ?_
  refine rewired_of_bind done (fun _ => rewired_of_movePort) fun _ done => ?_
  refine rewired_of_bind done (fun _ => rewired_of_movePort) fun _ done => ?_
  split at done
  · refine rewired_of_bind done (fun _ => rewired_of_setTarget) fun _ done => ?_
    exact rewired_of_bind done (fun _ => rewired_of_movePort) fun _ => rewired_of_movePort
  · exact rewired_of_movePort done

theorem rewired_of_bufferToFlipFlop {bench after : Bench}
    (done : bufferToFlipFlop.run bench = (.ok (), after)) : Rewired bench after := by
  unfold bufferToFlipFlop at done
  rw [run_get_bind] at done
  refine rewired_of_bind done (fun _ => rewired_of_setTarget) fun _ done => ?_
  split at done
  · exact rewired_of_movePort done
  · split at done
    · exact rewired_of_movePort done
    · cases done
      exact .refl _

/-- A series of moves changes neither the name nor the type of a cell. -/
theorem Rewired.cells {bench after : Bench} (rewired : Rewired bench after) :
    (after.source.name = bench.source.name ∧ after.source.cellType = bench.source.cellType) ∧
      after.target.name = bench.target.name ∧ after.target.cellType = bench.target.cellType := by
  induction rewired with
  | refl => simp
  | param name value _ ih => exact ih
  | @port after sourcePort targetPort _ _ ih =>
    unfold moved
    cases after.source.portNet? sourcePort with
    | none => exact ih
    | some name => exact ih

/-- A series of moves replaces references to the source and leaves the others in place. -/
theorem Rewired.nets {bench after : Bench} (rewired : Rewired bench after) :
    ∃ follow : String → PortRef → PortRef,
      (∀ name ref, ref.cell ≠ bench.source.name → follow name ref = ref) ∧
        ∀ name : String, after.nets[name]? = bench.nets[name]?.map (·.mapRefs (follow name)) := by
  induction rewired with
  | refl => exact ⟨fun _ ref => ref, fun _ _ _ => rfl, fun _ => (Net.map_mapRefs_self _).symm⟩
  | param _ _ _ ih => exact ih
  | @port after sourcePort targetPort rewired _ ih =>
    obtain ⟨follow, others, nets⟩ := ih
    unfold moved
    cases after.source.portNet? sourcePort with
    | none => exact ⟨follow, others, nets⟩
    | some held =>
      let source : PortRef := ⟨after.source.name, sourcePort⟩
      let target : PortRef := ⟨after.target.name, targetPort⟩
      refine ⟨fun name ref =>
        if held = name ∧ follow name ref = source then target else follow name ref, ?_, ?_⟩
      · intro name ref apart
        have fixed := others name ref apart
        have notSource : ref ≠ source := by
          rintro rfl
          exact apart rewired.cells.1.1
        simp [fixed, notSource]
      · intro name
        dsimp only
        rw [NameMap.lookup_modify, nets name]
        by_cases same : held = name
        · rw [if_pos same, Option.map_map]
          congr 1
          funext net
          exact (Net.mapRefs_mapRefs ..).trans (by simp [same, source, target])
        · simp [same]

/-- What the ports of a netlist say whose cells are the bench's two and others. -/
def attached (others : PortRef → Option String) (bench : Bench) (ref : PortRef) :
    Option String :=
  if ref.cell = bench.target.name then bench.target.portNet? ref.port
  else if ref.cell = bench.source.name then bench.source.portNet? ref.port
  else others ref

/-- Where the source stands in a netlist and the target, still unattached, does not, the bench says
of every port what the netlist says. -/
theorem attached_of_unattached {netlist : Netlist} {source target : Cell} (nets : NameMap Net)
    (sourceThere : netlist.cells[source.name]? = some source)
    (targetAbsent : netlist.cells[target.name]? = none)
    (unattached : ∀ port, target.portNet? port = none) :
    attached netlist.portNet? ⟨nets, source, target⟩ = netlist.portNet? := by
  funext ref
  unfold attached
  split
  · rename_i onTarget
    simp [Netlist.portNet?, onTarget, targetAbsent, unattached]
  · split
    · rename_i onSource
      simp [Netlist.portNet?, onSource, sourceThere]
    · rfl

/-- Where both cells of a bench stand in a netlist among the others, the bench says of every port
what that netlist says. -/
theorem portNet?_eq_attached {netlist others : Netlist} {bench : Bench}
    (lookup : ∀ key : String, netlist.cells[key]? =
      if bench.target.name = key then some bench.target
      else if bench.source.name = key then some bench.source
      else others.cells[key]?) :
    netlist.portNet? = bench.attached others.portNet? := by
  funext ref
  unfold Netlist.portNet? attached
  rw [lookup]
  grind

theorem attached_moved {bench : Bench} {sourcePort targetPort name : String}
    (apart : bench.source.name ≠ bench.target.name)
    (held : bench.source.portNet? sourcePort = some name) (free : bench.Free targetPort)
    (others : PortRef → Option String) (ref : PortRef) :
    (bench.moved sourcePort targetPort).attached others ref =
      if ref = ⟨bench.target.name, targetPort⟩ then some name
      else if ref = ⟨bench.source.name, sourcePort⟩ then none
      else bench.attached others ref := by
  obtain ⟨p, there, -⟩ := free
  have onTarget : targetPort ∈ bench.target.ports := (NameMap.mem_iff_lookup _ _).mpr ⟨p, there⟩
  have sourceName : (bench.source.withPortNet sourcePort none).name = bench.source.name := rfl
  have targetName : (bench.target.withPortNet targetPort (some name)).name =
    bench.target.name := rfl
  obtain ⟨cell, port⟩ := ref
  simp only [attached, moved_of_held held, sourceName, targetName, Cell.portNet?_detach,
    Cell.portNet?_attach onTarget, PortRef.mk.injEq]
  grind

/-- One move keeps the two sides of a netlist linked. -/
theorem Linked.moved {bench : Bench} {sourcePort targetPort : String}
    {others : PortRef → Option String} (apart : bench.source.name ≠ bench.target.name)
    (linked : Netlist.Linked (bench.attached others) bench.nets)
    (movable : bench.Movable sourcePort targetPort) :
    Netlist.Linked ((bench.moved sourcePort targetPort).attached others)
      (bench.moved sourcePort targetPort).nets := by
  cases held : bench.source.portNet? sourcePort with
  | none => simpa [Bench.moved, held] using linked
  | some name =>
    obtain ⟨free, known⟩ := movable name held
    have nets : (bench.moved sourcePort targetPort).nets = bench.nets.modify name
        (·.redirect ⟨bench.source.name, sourcePort⟩ ⟨bench.target.name, targetPort⟩) := by
      rw [moved_of_held held]
    have sourceSide : bench.attached others ⟨bench.source.name, sourcePort⟩ = some name := by
      simp [attached, apart, held]
    have targetSide : bench.attached others ⟨bench.target.name, targetPort⟩ = none := by
      obtain ⟨p, there, unattached⟩ := free
      simp [attached, Cell.portNet?, there, unattached]
    rw [nets]
    constructor
    · intro query net ref there member
      rw [attached_moved apart held free]
      rw [NameMap.lookup_modify] at there
      by_cases same : name = query
      · subst same
        rw [if_pos rfl] at there
        obtain ⟨old, oldThere, rfl⟩ := Option.map_eq_some_iff.mp there
        obtain ⟨oldRef, oldMember, followed⟩ :=
          List.mem_map.mp ((Net.references_mapRefs ..) ▸ member)
        have oldSide := linked.resolved oldThere oldMember
        grind
      · rw [if_neg same] at there
        have side := linked.resolved there member
        grind
    · intro ref query side
      rw [attached_moved apart held free] at side
      rw [Std.ExtTreeMap.mem_modify]
      split at side
      · cases side
        exact known
      · split at side
        · cases side
        · exact linked.present side

/-- A series of moves keeps the two sides of a netlist linked. -/
theorem Rewired.linked {bench after : Bench} (rewired : Rewired bench after)
    {others : PortRef → Option String} (apart : bench.source.name ≠ bench.target.name)
    (linked : Netlist.Linked (bench.attached others) bench.nets) :
    Netlist.Linked (after.attached others) after.nets := by
  induction rewired with
  | refl => exact linked
  | param _ _ _ ih => exact ih
  | port rewired movable ih =>
    have names := rewired.cells
    refine Linked.moved ?_ ih movable
    rw [names.1.1, names.2.1]
    exact apart

/-- The nets of the source are there, and the ports listed are free on the target. -/
structure Ready (bench : Bench) (ports : List String) : Prop where
  known : ∀ {port name : String}, bench.source.portNet? port = some name → name ∈ bench.nets
  free : ∀ {port : String}, port ∈ ports → bench.Free port

theorem Ready.movable {bench : Bench} {targetPort : String} {rest : List String}
    (ready : bench.Ready (targetPort :: rest)) (sourcePort : String) :
    bench.Movable sourcePort targetPort :=
  fun _ attached => ⟨ready.free List.mem_cons_self, ready.known attached⟩

theorem Ready.withParam {bench : Bench} {ports : List String} (ready : bench.Ready ports)
    (name : String) (value : Property) : (bench.withParam name value).Ready ports :=
  ⟨ready.known, ready.free⟩

theorem Ready.mono {bench : Bench} {ports fewer : List String} (ready : bench.Ready ports)
    (subset : ∀ port ∈ fewer, port ∈ ports) : bench.Ready fewer :=
  ⟨ready.known, fun member => ready.free (subset _ member)⟩

/-- A move uses up the port that it moves to. -/
theorem Ready.moved {bench : Bench} {targetPort : String} {rest : List String}
    (ready : bench.Ready (targetPort :: rest)) (unused : targetPort ∉ rest)
    (sourcePort : String) : (bench.moved sourcePort targetPort).Ready rest := by
  unfold Bench.moved
  cases attached : bench.source.portNet? sourcePort with
  | none => exact ⟨ready.known, fun member => ready.free (List.mem_cons_of_mem _ member)⟩
  | some name =>
    constructor
    · intro port held onPort
      rw [Cell.portNet?_detach] at onPort
      split at onPort
      · cases onPort
      · exact Std.ExtTreeMap.mem_modify.mpr (ready.known onPort)
    · intro port member
      obtain ⟨p, there, free⟩ := ready.free (List.mem_cons_of_mem targetPort member)
      have apart : targetPort ≠ port := by
        rintro rfl
        exact unused member
      refine ⟨p, ?_, free⟩
      simp only [Cell.withPortNet, NameMap.lookup_modify, if_neg apart]
      exact there

theorem Ready.run_movePort {bench : Bench} {targetPort : String} {rest : List String}
    (ready : bench.Ready (targetPort :: rest)) (unused : targetPort ∉ rest)
    (sourcePort : String) :
    ∃ after, (movePort sourcePort targetPort).run bench = (.ok (), after) ∧ after.Ready rest :=
  ⟨_, movePort_of_movable (ready.movable sourcePort), ready.moved unused sourcePort⟩

theorem Ready.run_forM {ι : Type} {targetPort : ι → String} {items : List ι}
    {rest : List String} {bench : Bench} (ready : bench.Ready (items.map targetPort ++ rest))
    (distinct : (items.map targetPort ++ rest).Nodup) (sourcePort : ι → String) :
    ∃ after, (items.forM fun i => movePort (sourcePort i) (targetPort i)).run bench =
      (.ok (), after) ∧ after.Ready rest := by
  induction items generalizing bench with
  | nil => exact ⟨bench, rfl, ready⟩
  | cons item items ih =>
    rw [List.map_cons, List.cons_append] at ready distinct
    obtain ⟨unused, distinct⟩ := List.nodup_cons.mp distinct
    obtain ⟨between, done, ready⟩ := ready.run_movePort unused (sourcePort item)
    obtain ⟨after, rest, ready⟩ := ih ready distinct
    exact ⟨after, (run_bind_of_ok done).trans rest, ready⟩

/-- What a way of moving a cell does on a bench: a failure has moved nothing. -/
def AllOrNothing (move : Move Unit) (bench : Bench) : Prop :=
  (∃ after, move.run bench = (.ok (), after)) ∨
    ∃ e after, move.run bench = (.error e, after) ∧ after.nets = bench.nets ∧
      after.source = bench.source

/-- The ports of a block that a lookup table of some width moves to. -/
def tablePorts (width : Nat) : List String :=
  (List.range width).map (LogicBlock.lutInput 1) ++ [LogicBlock.combOutput 1]

theorem tablePorts_subset {width : Nat} {k : UInt32} (narrow : width ≤ k.toNat) :
    ∀ port ∈ tablePorts width, port ∈ LogicBlock.lutInputs k ++ LogicBlock.outputs := by
  intro port member
  rcases List.mem_append.mp member with input | output
  · obtain ⟨i, inRange, rfl⟩ := List.mem_map.mp input
    have bound := List.mem_range.mp inRange
    exact List.mem_append_left _ (LogicBlock.lutInput_mem (by decide) (by omega))
  · rw [List.mem_singleton.mp output]
    exact List.mem_append_right _ (by decide +kernel)

theorem nodup_tablePorts {width : Nat} {k : UInt32} (narrow : width ≤ k.toNat) :
    (tablePorts width).Nodup := by
  unfold tablePorts
  rw [List.nodup_append]
  refine ⟨?_, by simp, ?_⟩
  · rw [List.Nodup, List.pairwise_map]
    exact List.nodup_range.imp fun apart same => apart (LogicBlock.lutInput_inj same).2
  · intro input inputMem output outputMem
    obtain ⟨i, inRange, rfl⟩ := List.mem_map.mp inputMem
    have bound := List.mem_range.mp inRange
    rintro rfl
    have isInput : LogicBlock.lutInput 1 i ∈ LogicBlock.lutInputs k :=
      LogicBlock.lutInput_mem (by decide) (by omega)
    refine LogicBlock.not_mem_lutInputs (.inr ?_) k isInput
    rw [List.mem_singleton.mp outputMem]
    decide +kernel

/-- A lookup table that is too wide is refused before anything moves. -/
theorem lutToBlock_refused {bench : Bench}
    (wide : bench.target.intParam "K" 4 < bench.source.intParam "K" 4) :
    (lutToBlock true).run bench =
      (.error (.lutTooWide bench.source.name (shownWidth (bench.source.intParam "K" 4))
        (shownWidth (bench.target.intParam "K" 4))),
          bench.withParam "LUT_INIT" bench.sourceInit) := by
  unfold lutToBlock
  simp only [run_get_bind, run_bind_of_ok (run_setTarget _ _ _), if_pos wide]
  rfl

theorem lutToBlock_done {bench : Bench} {k : UInt32}
    (ready : bench.Ready (LogicBlock.lutInputs k ++ LogicBlock.outputs))
    (width : bench.target.intParam "K" 4 = k.toNat)
    (fits : bench.source.intParam "K" 4 ≤ bench.target.intParam "K" 4) :
    ∃ after, (lutToBlock true).run bench = (.ok (), after) := by
  have narrow : (bench.source.intParam "K" 4).toNat ≤ k.toNat := by omega
  have readyTable := ready.mono (tablePorts_subset narrow)
  obtain ⟨between, done, readyOutput⟩ :=
    (readyTable.withParam "LUT_INIT" bench.sourceInit).run_forM (nodup_tablePorts narrow)
      fun i => s!"I{i}"
  obtain ⟨after, output, -⟩ :=
    (readyOutput.withParam "FF_USED" (.int 0)).run_movePort List.not_mem_nil "O"
  refine ⟨after, ?_⟩
  unfold lutToBlock
  simp only [run_get_bind, run_bind_of_ok (run_setTarget _ _ _), if_neg (Int.not_lt.mpr fits)]
  rw [run_bind_of_ok done]
  simp only [if_true]
  rw [run_bind_of_ok (run_setTarget _ _ _), output]

theorem flipFlopToBlock_done {bench : Bench}
    (ready : bench.Ready ["CLK", "CE", "RST", LogicBlock.lutInput 1 0, LogicBlock.syncOutput 1]) :
    ∃ after, (flipFlopToBlock true).run bench = (.ok (), after) := by
  have distinct : ["CLK", "CE", "RST", LogicBlock.lutInput 1 0, LogicBlock.syncOutput 1].Nodup := by
    decide +kernel
  simp only [List.nodup_cons] at distinct
  obtain ⟨clock, enable, reset, data, output, -⟩ := distinct
  have readyParams := (ready.withParam "FF_USED" (.int 1)).withParam "DFF_INIT" bench.sourceInit
  obtain ⟨_, clockDone, readyEnable⟩ := readyParams.run_movePort clock "CLK"
  obtain ⟨_, enableDone, readyReset⟩ := readyEnable.run_movePort enable "CE"
  obtain ⟨moved, resetDone, readyData⟩ := readyReset.run_movePort reset "RST"
  let k := max 1 (min 16 (bench.target.intParam "K" 4))
  obtain ⟨_, dataDone, readyOutput⟩ :=
    (readyData.withParam "LUT_INIT" (passThroughTable k.toNat)).run_movePort data "D"
  obtain ⟨after, outputDone, -⟩ := readyOutput.run_movePort output "Q"
  refine ⟨after, ?_⟩
  unfold flipFlopToBlock
  simp only [run_get_bind, run_bind_of_ok (run_setTarget _ _ _), if_true]
  rw [run_bind_of_ok clockDone, run_bind_of_ok enableDone, run_bind_of_ok resetDone,
    run_bind_of_ok (run_setTarget _ _ _), run_bind_of_ok dataDone, outputDone]

theorem bufferToFlipFlop_done {bench : Bench} (ready : bench.Ready ["D", "Q"]) :
    ∃ after, bufferToFlipFlop.run bench = (.ok (), after) := by
  have readyParams := ready.withParam "INIT" (.int 1)
  unfold bufferToFlipFlop
  simp only [run_get_bind, run_bind_of_ok (run_setTarget _ _ _)]
  split
  · have output : ∀ port ∈ ["Q"], port ∈ ["D", "Q"] := by simp
    exact ⟨_, movePort_of_movable ((readyParams.mono output).movable "O")⟩
  · split
    · exact ⟨_, movePort_of_movable (readyParams.movable "I")⟩
    · exact ⟨_, rfl⟩

end TileFabric.Bench
