import TileFabric.Proofs.Packing.ClockBuffers
import TileFabric.Proofs.Routing.GridBuild

/-!
# What the log tells of a run

Packing and building report to a log as they go. What they say on the way are notes and warnings;
an error is said once, by the one who knows that the run has failed, and nothing is said after it.
So the log tells how a run has ended, whatever it held before and wherever the run has failed, and
a run that has failed has left the settings of the netlist alone.
-/

set_option autoImplicit false

namespace TileFabric

namespace Log

/-- Nothing that has come in between is an error. -/
structure Quiet (log later : Log) : Prop where
  entries : ∃ between : List Diagnostic, later.entries.toList = log.entries.toList ++ between ∧
    ∀ d ∈ between, d.severity ≠ .error
  errorCount : later.errorCount = log.errorCount

theorem Quiet.refl (log : Log) : log.Quiet log := ⟨⟨[], by simp, by simp⟩, rfl⟩

theorem Quiet.trans {first second third : Log} (one : first.Quiet second)
    (two : second.Quiet third) : first.Quiet third := by
  obtain ⟨early, joined, earlyQuiet⟩ := one.entries
  obtain ⟨late, joined', lateQuiet⟩ := two.entries
  refine ⟨⟨early ++ late, by rw [joined', joined, List.append_assoc], ?_⟩,
    two.errorCount.trans one.errorCount⟩
  intro d member
  exact (List.mem_append.mp member).elim (earlyQuiet d) (lateQuiet d)

theorem quiet_add (log : Log) {d : Diagnostic} (harmless : d.severity ≠ .error) :
    log.Quiet (log.add d) where
  entries := ⟨[d], by simp [add], by simpa using harmless⟩
  errorCount := by simp [add, Severity.isError, harmless]

theorem quiet_addAll (log : Log) {remarks : List Diagnostic}
    (harmless : ∀ d ∈ remarks, d.severity ≠ .error) : log.Quiet (remarks.foldl add log) := by
  induction remarks generalizing log with
  | nil => exact .refl log
  | cons remark rest ih =>
    have first := log.quiet_add (harmless remark List.mem_cons_self)
    exact first.trans (ih _ fun d member => harmless d (List.mem_cons_of_mem _ member))

/-- A log tells how a run has ended that it was kept for: the run has failed just if the count of
errors has grown. Then it has grown by one and the error is the last entry, and all else that the
run has said are no errors. -/
structure Tells {ε α : Type} (diagnostic : ε → Diagnostic) (log : Log) (result : Except ε α)
    (later : Log) : Prop where
  failed_iff : (∃ e, result = .error e) ↔ log.errorCount < later.errorCount
  failed : ∀ e, result = .error e → later.errorCount = log.errorCount + 1 ∧
    ∃ quiet : Log, log.Quiet quiet ∧ later.entries = quiet.entries.push (diagnostic e)
  done : ∀ a, result = .ok a → log.Quiet later

variable {ε α : Type} {diagnostic : ε → Diagnostic} {log later : Log}

theorem Quiet.tells (quiet : log.Quiet later) (a : α) :
    log.Tells diagnostic (.ok a) later where
  failed_iff := by
    rw [quiet.errorCount]
    simp
  failed e isError := by cases isError
  done _ _ := quiet

theorem Quiet.tells_error (quiet : log.Quiet later) {e : ε}
    (isError : (diagnostic e).severity = .error) :
    log.Tells diagnostic (.error e : Except ε α) (later.add (diagnostic e)) := by
  have counted : (later.add (diagnostic e)).errorCount = log.errorCount + 1 := by
    simp [add, Severity.isError, isError, quiet.errorCount]
  constructor
  · simp [counted]
  · intro e' same
    cases same
    exact ⟨counted, later, quiet, rfl⟩
  · intro a isOk
    cases isOk

/-- What was said before without an error makes no difference. -/
theorem Tells.behind {first : Log} {result : Except ε α} (quiet : first.Quiet log)
    (tells : log.Tells diagnostic result later) : first.Tells diagnostic result later where
  failed_iff := by
    rw [← quiet.errorCount]
    exact tells.failed_iff
  failed e isError := by
    obtain ⟨counted, before, quietToo, last⟩ := tells.failed e isError
    exact ⟨by rw [counted, quiet.errorCount], before, quiet.trans quietToo, last⟩
  done a isOk := quiet.trans (tells.done a isOk)

/-- A failure is told alike whatever the run was to give. -/
theorem Tells.of_error {β : Type} {e : ε}
    (tells : log.Tells diagnostic (.error e : Except ε α) later) :
    log.Tells diagnostic (.error e : Except ε β) later where
  failed_iff := ⟨fun _ => tells.failed_iff.mp ⟨e, rfl⟩, fun _ => ⟨e, rfl⟩⟩
  failed e' same := tells.failed e' (by cases same; rfl)
  done b isOk := by cases isOk

end Log

theorem NetlistError.isError_diagnostic (e : NetlistError) : e.diagnostic.severity = .error := rfl

theorem RoutingError.isError_diagnostic (e : RoutingError) : e.diagnostic.severity = .error := by
  cases e <;> rfl

namespace Netlist

/-- An edit that leaves the settings alone. -/
def KeepsSettings {α : Type} (change : Edit α) : Prop :=
  ∀ settings : NameMap Property, Keeps (fun netlist : Netlist => netlist.settings = settings) change

theorem keepsSettings_addCell (cell : Cell) : KeepsSettings (addCell cell) := by
  intro settings netlist same
  by_cases taken : cell.name ∈ netlist.cells
  · rwa [run_addCell_of_taken taken]
  · rwa [run_addCell taken]

end Netlist

theorem Constant.keepsSettings_install (cell : Cell) (net : Net) :
    Netlist.KeepsSettings (install cell net) := by
  intro settings
  unfold install
  refine Keeps.get.bind fun netlist => ?_
  split
  · exact .throw _
  · exact (Netlist.keepsSettings_addCell _ settings).bind fun _ => .update fun _ same => same

namespace ConstantSweep

theorem settings_moveUser (high : Bool) (netlist : Netlist) (net : Net) (user : PortRef) :
    (moveUser high netlist net user).1.settings = netlist.settings := by
  unfold moveUser
  split
  · rfl
  · split
    · split <;> rfl
    · rfl

theorem settings_moveUsers (high : Bool) (netlist : Netlist) (name : String) (net : Net) :
    (moveUsers high netlist name net).1.settings = netlist.settings := by
  have moved (users : List PortRef) (start : Netlist) (net : Net) :
      (users.foldl (fun moving user => moveUser high moving.1 moving.2 user)
        (start, net)).1.settings = start.settings := by
    induction users generalizing start net with
    | nil => rfl
    | cons user rest ih => exact (ih _ _).trans (settings_moveUser ..)
  unfold moveUsers
  split
  · rfl
  · exact moved _ _ _

theorem settings_visit (sweep : ConstantSweep) (name : String) :
    (sweep.visit name).netlist.settings = sweep.netlist.settings := by
  unfold visit
  split
  · rfl
  · split
    · rfl
    · dsimp only
      split <;> exact settings_moveUsers ..

theorem settings_swept_ofNetlist (netlist : Netlist) :
    (ofNetlist netlist).swept.settings = netlist.settings := by
  have visited (names : List String) (sweep : ConstantSweep) :
      (names.foldl visit sweep).netlist.settings = sweep.netlist.settings := by
    induction names generalizing sweep with
    | nil => rfl
    | cons name rest ih => exact (ih _).trans (settings_visit ..)
  rw [swept_eq]
  exact visited _ _

end ConstantSweep

/-- Between two workspaces no error has been said and the settings are the same. -/
structure Workspace.Quiet (w after : Workspace) : Prop where
  log : w.log.Quiet after.log
  settings : after.netlist.settings = w.netlist.settings

namespace Packing

open Netlist

variable {α : Type} {w : Workspace}

theorem keeps_report {d : Diagnostic} (harmless : d.severity ≠ .error) :
    Keeps w.Quiet (report d) :=
  .update fun between quiet => ⟨quiet.log.trans (between.log.quiet_add harmless), quiet.settings⟩

theorem keeps_announce (message : String) : Keeps w.Quiet (announce message) :=
  keeps_report (by simp [Diagnostic.note])

theorem keeps_edit {change : Edit α} (kept : KeepsSettings change) : Keeps w.Quiet (edit change) :=
  fun between quiet => ⟨quiet.log, (kept _ between.netlist rfl).trans quiet.settings⟩

theorem keeps_setNetlist {netlist : Netlist} (same : netlist.settings = w.netlist.settings) :
    Keeps w.Quiet (setNetlist netlist) := .update fun _ quiet => ⟨quiet.log, same⟩

/-- The netlist that is looked at has the settings still. -/
theorem keeps_netlist_bind {next : Netlist → Packing α}
    (rest : ∀ found, found.settings = w.netlist.settings → Keeps w.Quiet (next found)) :
    Keeps w.Quiet (netlist >>= next) := by
  intro between quiet
  rw [run_bind_of_ok (run_netlist between)]
  exact rest between.netlist quiet.settings between quiet

end Packing

namespace Replacement

open Packing

variable {r : Replacement} {w : Workspace}

/-- What is said about cells that are replaced is no error. -/
def Harmless (r : Replacement) : Prop := ∀ cell, ∀ d ∈ r.remarks cell, d.severity ≠ .error

theorem keeps_replaceOne (harmless : r.Harmless) (name : String) :
    Keeps w.Quiet (r.replaceOne name) := by
  intro between quiet
  cases there : between.netlist.cells[name]? with
  | none =>
    have unchanged : ((r.replaceOne name).run between).2 = between := by
      unfold replaceOne
      rw [run_bind_of_ok (run_netlist between)]
      simp only [there]
      rfl
    rwa [unchanged]
  | some source =>
    have said := quiet.log.trans (between.log.quiet_addAll (harmless source))
    rw [run_replaceOne r there]
    dsimp only
    cases r.make source with
    | error e => exact ⟨said, quiet.settings⟩
    | ok target =>
      dsimp only
      split
      · exact ⟨said, quiet.settings⟩
      · split <;> exact ⟨said, quiet.settings⟩

theorem keeps_replaceWhileWell (harmless : r.Harmless) (names : List String) :
    Keeps w.Quiet (r.replaceWhileWell names) := by
  induction names with
  | nil => exact .pure _
  | cons name rest ih =>
    refine Keeps.tryCatch ?_ fun e => .pure _
    exact (keeps_replaceOne harmless name).bind fun cell => ih.bind fun _ => .pure _

theorem keeps_commit (old : List String) (new : List Cell) : Keeps w.Quiet (commit old new) := by
  refine keeps_edit fun settings => Keeps.bind (.forM fun name _ => .update ?_) fun _ =>
    .forM fun cell _ => Netlist.keepsSettings_addCell cell settings
  intro netlist same
  rw [Netlist.removeCell_eq]
  exact same

theorem keeps_replaceCells (harmless : r.Harmless) (names : List String) :
    Keeps w.Quiet (r.replaceCells names) := by
  unfold replaceCells
  refine (keeps_replaceWhileWell harmless names).bind fun (cells, failure) => ?_
  refine (keeps_commit _ _).bind fun _ => ?_
  cases failure with
  | none => exact .pure _
  | some e => exact .throw e

theorem harmless_lut (k : UInt32) : (lut k).Harmless := fun _ _ member => by cases member

theorem harmless_flipFlop (k : UInt32) : (flipFlop k).Harmless := fun _ _ member => by cases member

theorem harmless_buffer : buffer.Harmless := by
  intro cell d member
  simp only [buffer] at member
  split at member
  · rw [List.mem_singleton.mp member]
    simp [bidirectionalRemark, Diagnostic.warning, Diagnostic.about, Diagnostic.withNote]
  · cases member

end Replacement

namespace Packing

open Netlist Replacement

variable {w : Workspace} (k : UInt32)

theorem keeps_luts : Keeps w.Quiet (luts k) :=
  (keeps_announce _).bind fun _ => keeps_netlist_bind fun _ _ =>
    keeps_replaceCells (harmless_lut k) _

theorem keeps_flipFlops : Keeps w.Quiet (flipFlops k) :=
  (keeps_announce _).bind fun _ => keeps_netlist_bind fun _ _ =>
    keeps_replaceCells (harmless_flipFlop k) _

theorem keeps_virtualIo : Keeps w.Quiet virtualIo :=
  (keeps_announce _).bind fun _ => keeps_netlist_bind fun _ _ =>
    keeps_replaceCells harmless_buffer _

theorem keeps_constants : Keeps w.Quiet (constants k) := by
  unfold constants
  refine (keeps_announce _).bind fun _ => ?_
  refine (Keeps.lift _).bind fun groundCell => (Keeps.lift _).bind fun supplyCell => ?_
  refine keeps_netlist_bind fun netlist same => ?_
  have swept := (ConstantSweep.settings_swept_ofNetlist netlist).trans same
  refine (keeps_setNetlist swept).bind fun _ => ?_
  have installed (cell : Cell) (net : Net) : Keeps w.Quiet (edit (Constant.install cell net)) :=
    keeps_edit (Constant.keepsSettings_install cell net)
  dsimp only
  split
  · exact (installed _ _).bind fun _ => (installed _ _).bind fun _ => .pure _
  · exact (installed _ _).bind fun _ => .pure _

theorem keeps_stage (on : Bool) {pass : Packing Nat} (kept : Keeps w.Quiet pass) :
    Keeps w.Quiet (stage on pass) := by
  cases on with
  | true => exact kept
  | false => exact .pure _

/-- No stage says an error or touches the settings, however it ends. -/
theorem keeps_runStages (stages : Stages) : Keeps w.Quiet (runStages k stages) := by
  rw [runStages_eq]
  refine (keeps_stage _ (keeps_constants k)).bind fun _ => ?_
  refine (keeps_stage _ (keeps_luts k)).bind fun _ => ?_
  refine (keeps_stage _ (keeps_flipFlops k)).bind fun _ => ?_
  exact (keeps_stage _ keeps_virtualIo).bind fun _ => .pure _

/-- Packing ends as its stages do. Behind them it says the error or marks the netlist. -/
theorem run_pack (stages : Stages) (w : Workspace) : (pack k stages).run w =
    match (runStages k stages).run w with
    | (.ok summary, staged) =>
      (.ok summary, { staged with netlist := staged.netlist.setSetting "pack" (.int 1) })
    | (.error e, staged) => (.error e, { staged with log := staged.log.add e.diagnostic }) := by
  unfold pack
  cases outcome : (runStages k stages).run w with
  | mk result staged =>
    cases result with
    | ok summary => exact run_bind_of_ok (run_tryCatch_of_ok outcome)
    | error e => exact run_bind_of_error (run_tryCatch_of_error outcome)

end Packing

namespace Build

variable {α β : Type}

/-- However a program ends, and wherever it starts, the log tells of it. -/
def Tells (program : Build α) : Prop := ∀ site : BuildSite,
  site.log.Tells RoutingError.diagnostic (program.run site).1 (program.run site).2.log

theorem tells_pure (a : α) : Tells (pure a) := fun site => (Log.Quiet.refl site.log).tells a

theorem tells_announce (message : String) : Tells (announce message) := fun site =>
  (site.log.quiet_add (by simp [Diagnostic.note])).tells ()

theorem tells_declare (declarations : Declare α) : Tells (declare declarations) := by
  intro ⟨recorder, log⟩
  cases outcome : declarations.run recorder with
  | mk result later =>
    cases result with
    | ok a =>
      rw [run_declare_of_ok outcome]
      exact (Log.Quiet.refl log).tells a
    | error e =>
      rw [run_declare_of_error outcome]
      exact (Log.Quiet.refl log).tells_error e.isError_diagnostic

/-- The first part of a sequence that goes on has said no error. -/
theorem Tells.bind {program : Build α} {next : α → Build β} (first : Tells program)
    (rest : ∀ a, Tells (next a)) : Tells (program >>= next) := by
  intro site
  have told := first site
  cases outcome : program.run site with
  | mk result between =>
    rw [outcome] at told
    cases result with
    | ok a =>
      rw [run_bind_of_ok outcome]
      exact (rest a between).behind (told.done a rfl)
    | error e =>
      rw [run_bind_of_error outcome]
      exact told.of_error

theorem tells_grid (spec : GridSpec) : Tells (grid spec) := by
  unfold grid
  refine (tells_announce _).bind fun _ => ?_
  refine (tells_declare _).bind fun _ => ?_
  refine (tells_announce _).bind fun _ => ?_
  refine (tells_declare _).bind fun _ => ?_
  refine (tells_announce _).bind fun _ => ?_
  refine (tells_declare _).bind fun _ => ?_
  exact (tells_announce _).bind fun _ => tells_pure _

end Build

/-- Whatever netlist, recorder and log they start on, the log tells how packing has ended and how
building a grid has. Packing that fails leaves the settings alone, and packing that goes well marks
the netlist in them and changes no other. -/
theorem log_tells_outcome :
    (∀ (k : UInt32) (stages : Stages) (w : Workspace),
      let outcome := (Packing.pack k stages).run w
      w.log.Tells NetlistError.diagnostic outcome.1 outcome.2.log ∧
        (∀ e, outcome.1 = .error e → outcome.2.netlist.settings = w.netlist.settings) ∧
        ∀ summary, outcome.1 = .ok summary →
          outcome.2.netlist.settings = w.netlist.settings.insert "pack" (.int 1)) ∧
      ∀ (spec : GridSpec) (site : BuildSite),
        let outcome := (Build.grid spec).run site
        site.log.Tells RoutingError.diagnostic outcome.1 outcome.2.log := by
  refine ⟨fun k stages w => ?_, Build.tells_grid⟩
  have start : w.Quiet w := ⟨.refl w.log, rfl⟩
  have quiet := Packing.keeps_runStages k stages w start
  rw [Packing.run_pack]
  cases staged : (Packing.runStages k stages).run w with
  | mk result between =>
    rw [staged] at quiet
    cases result with
    | ok summary =>
      dsimp only
      refine ⟨quiet.log.tells summary, fun e isError => (nomatch isError), fun _ _ => ?_⟩
      exact congrArg (·.insert "pack" (Property.int 1)) quiet.settings
    | error e =>
      dsimp only
      exact ⟨quiet.log.tells_error e.isError_diagnostic, fun _ _ => quiet.settings,
        fun summary isOk => nomatch isOk⟩

end TileFabric
