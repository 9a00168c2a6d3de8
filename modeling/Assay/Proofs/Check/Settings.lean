import Assay.Check.Report
import Assay.Proofs.Computation
import Assay.Proofs.Log

/-!
Contract: the settings of the log and the outcome of a check.

Two runs over the same modules, with logs of different settings, are taken through the passes side by
side. The relation between them is that their logs have been given the same messages and that nothing
else is different. Binding is the one pass that looks at a log, and it looks at counts, on which the
settings have no influence.
-/

namespace Assay

open Assay.Computation (Mirrors)

namespace Settings

def keeps (settings : Settings) (severity : Severity) : Bool :=
  settings.ignore.all fun level => level.rank < severity.rank

theorem not_ignores_log (settings : Settings) (severity : Severity) :
    (!settings.log.ignores severity) = settings.keeps severity := by
  unfold keeps Log.ignores log
  cases settings.ignore with
  | none => rfl
  | some level =>
    show (!decide (severity.rank ≤ level.rank)) = decide (level.rank < severity.rank)
    rw [← decide_not, decide_eq_decide, Nat.not_le]

variable (settings other : Settings) (entries : List Entry)

/-- Of the messages that a log has been given it keeps those above its level, in their order. -/
theorem kept_log : (settings.log.recordAll entries).kept =
    (entries.filter fun entry => settings.keeps entry.severity).map settings.log.diagnose := by
  rw [Log.kept_recordAll]
  simp only [settings.not_ignores_log]
  rfl

theorem entries_log : (settings.log.recordAll entries).kept.map Diagnostic.entry =
    entries.filter fun entry => settings.keeps entry.severity := by
  rw [kept_log, List.map_map]
  exact List.map_id _

theorem origin_log {diagnostic : Diagnostic}
    (member : diagnostic ∈ (settings.log.recordAll entries).kept) :
    diagnostic.origin = (settings.debug && diagnostic.entry.severity.isError) := by
  rw [kept_log] at member
  obtain ⟨entry, _, rfl⟩ := List.mem_map.mp member
  rfl

/-- Settings have no influence on the counts. -/
theorem counts_log :
    (other.log.recordAll entries).counts = (settings.log.recordAll entries).counts := by
  funext severity
  rw [Log.counts_recordAll, Log.counts_recordAll]
  rfl

end Settings

/-! ## Runs side by side -/

/-- Two runs that differ in their logs only, which have been given the same messages. -/
inductive Run.Twins (first second : Settings) : Run → Run → Prop
  | intro (run : Run) (entries : List Entry) :
      Twins first second { run with log := first.log.recordAll entries }
        { run with log := second.log.recordAll entries }

theorem Run.twins (first second : Settings) (run : Run) (entries : List Entry) :
    Run.Twins first second { run with log := first.log.recordAll entries }
      { run with log := second.log.recordAll entries } :=
  .intro run entries

/-- From twins the pass comes to the same result and to twins again. -/
def Pass.Steady {α : Type} (first second : Settings) (pass : Pass α) : Prop :=
  Mirrors (Run.Twins first second) id pass pass

/-- The same structs are bound with both logs. An internal error shows in both counts. -/
theorem Session.bindStructs_log (first second : Settings) (count : Nat) (ids : List StructId)
    (session : Session) (entries : List Entry) :
    let bound := bindStructs count ids session (first.log.recordAll entries)
    let other := bindStructs count ids session (second.log.recordAll entries)
    other.session = bound.session ∧ ∃ later, bound.log = first.log.recordAll later ∧
      other.log = second.log.recordAll later := by
  induction ids generalizing session entries with
  | nil => exact ⟨rfl, entries, rfl, rfl⟩
  | cons id ids ih =>
    rw [bindStructs, bindStructs, ← Log.recordAll_append, ← Log.recordAll_append,
      first.counts_log second]
    split
    · exact ⟨rfl, _, rfl, rfl⟩
    · exact ih _ _

theorem Session.bindModule_log (first second : Settings) (session : Session) (module : ModuleId)
    (entries : List Entry) :
    let bound := session.bindModule module (first.log.recordAll entries)
    let other := session.bindModule module (second.log.recordAll entries)
    other.session = bound.session ∧ ∃ later, bound.log = first.log.recordAll later ∧
      other.log = second.log.recordAll later := by
  rw [bindModule, bindModule, first.counts_log second]
  exact bindStructs_log first second _ _ session entries

namespace Pass

variable {α β : Type} {first second : Settings}

namespace Steady

theorem pure (value : α) : Steady first second (Pure.pure value) :=
  Mirrors.pure id value

theorem bind {pass : Pass α} {next : α → Pass β} (steady : Steady first second pass)
    (onwards : ∀ value, Steady first second (next value)) : Steady first second (pass >>= next) := by
  intro state other related
  obtain ⟨same, twins⟩ := steady state other related
  rw [Computation.run_bind, Computation.run_bind, same]
  exact onwards _ _ _ twins

theorem forM {items : List α} {body : α → Pass Unit}
    (steady : ∀ item, Steady first second (body item)) : Steady first second (items.forM body) :=
  Mirrors.forM fun item _ => steady item

/-- A pass that goes on from what it sees of the run, which is not the log. -/
theorem get_bind {next : Run → Pass β}
    (blind : ∀ (run : Run) (log : Log), next { run with log := log } = next run)
    (steady : ∀ run, Steady first second (next run)) : Steady first second (get >>= next) := by
  refine Mirrors.get_bind ?_
  rintro _ _ ⟨run, entries⟩
  rw [blind run (first.log.recordAll entries), blind run (second.log.recordAll entries)]
  exact steady run

theorem modify {change : Run → Run}
    (blind : ∀ (run : Run) (log : Log),
      change { run with log := log } = { change run with log := log }) :
    Steady first second (modify change) := by
  rintro _ _ ⟨run, entries⟩
  have both := Run.twins first second (change run) entries
  rw [← blind, ← blind] at both
  exact ⟨rfl, both⟩

end Steady

/-! Steps -/

theorem place_steady (path : String) : Steady first second (place path) :=
  .get_bind (fun _ _ => rfl) fun _ => .pure _

theorem report_steady (entries : List Entry) : Steady first second (report entries) := by
  rintro _ _ ⟨run, earlier⟩
  have both := Run.twins first second run (earlier ++ entries)
  rw [Log.recordAll_append, Log.recordAll_append] at both
  exact ⟨rfl, both⟩

theorem onSession_steady (action : StateM Session α) : Steady first second (onSession action) := by
  rintro _ _ ⟨run, entries⟩
  exact ⟨rfl, .intro { run with session := (action.run run.session).2 } entries⟩

theorem register_steady (refusal : Fault → Entry) (edit : Edit α) :
    Steady first second (register refusal edit) := by
  refine (onSession_steady edit.run).bind fun outcome => ?_
  cases outcome with
  | ok value => exact .pure _
  | error fault => exact report_steady _

/-! Declarations -/

theorem declareModule_steady (spec : Manifest.Module) :
    Steady first second (declareModule spec) := by
  refine (place_steady _).bind fun loc => .get_bind (fun _ _ => rfl) fun run => ?_
  have allocated : Steady first second (do
      let module ← onSession (Session.allocModule spec.name loc)
      register (.internal loc) (Edit.installPrelude module)
      modify fun run => { run with modules := run.modules ++ [(module, spec)] }) :=
    (onSession_steady _).bind fun module => (register_steady _ _).bind fun _ =>
      .modify fun _ _ => rfl
  dsimp only
  split
  · exact (report_steady _).bind fun _ => allocated
  · exact allocated

theorem wireImport_steady (module : ModuleId) (spec : Manifest.Module) (name : String) :
    Steady first second (wireImport module spec name) := by
  refine (place_steady _).bind fun loc => .get_bind (fun _ _ => rfl) fun run => ?_
  cases declared? run name with
  | some imported => exact register_steady _ _
  | none => exact report_steady _

theorem registerLocals_steady (module : ModuleId) (id : FuncId) (func : Manifest.Func)
    (loc : Location) : Steady first second (registerLocals module id func loc) := by
  unfold registerLocals
  split
  · exact .pure _
  · exact (onSession_steady _).bind fun block => (Steady.forM fun slot => register_steady _ _).bind
      fun _ => (onSession_steady _).bind fun _ => .modify fun _ _ => rfl

theorem registerDefinitions_steady (module : ModuleId) (spec : Manifest.Module) :
    Steady first second (registerDefinitions module spec) := by
  refine (Steady.forM fun name => ?_).bind fun _ => (Steady.forM fun struct => ?_).bind fun _ =>
    .forM fun func => ?_
  · exact (place_steady _).bind fun loc => (onSession_steady _).bind fun object => register_steady _ _
  · exact (place_steady _).bind fun loc => (onSession_steady _).bind fun id =>
      (Steady.forM fun member => register_steady _ _).bind fun _ => register_steady _ _
  · exact (place_steady _).bind fun loc => (onSession_steady _).bind fun id =>
      (Steady.forM fun parameter => register_steady _ _).bind fun _ =>
      (Steady.forM fun parameter => register_steady _ _).bind fun _ =>
      (registerLocals_steady module id func loc).bind fun _ => register_steady _ _

/-! Binding -/

theorem bindModules_steady (modules : List (ModuleId × Manifest.Module)) :
    Steady first second (bindModules modules) := by
  induction modules with
  | nil => exact .pure _
  | cons module modules ih =>
    rintro _ _ ⟨run, entries⟩
    have goesOn : ∀ log, (bindModules (module :: modules)).run { run with log := log } =
        (if (run.session.bindModule module.1 log).log.hasInternal then Pure.pure false
          else bindModules modules).run
        { run with
          session := (run.session.bindModule module.1 log).session
          log := (run.session.bindModule module.1 log).log } := fun _ => rfl
    obtain ⟨session, later, isFirst, isSecond⟩ :=
      Session.bindModule_log first second run.session module.1 entries
    have internal : (second.log.recordAll later).hasInternal =
        (first.log.recordAll later).hasInternal := by
      rw [Log.hasInternal, Log.hasInternal, first.counts_log second]
    rw [goesOn, goesOn, session, isFirst, isSecond, internal]
    have twins := Run.twins first second
      { run with session := (run.session.bindModule module.1 (first.log.recordAll entries)).session }
      later
    split
    · exact ⟨rfl, twins⟩
    · exact ih _ _ twins

/-! Expressions -/

theorem lower_steady (spec : Manifest.Expr) (loc : Location) :
    Steady first second (lower spec loc) := by
  refine .get_bind (fun _ _ => rfl) fun run => ?_
  rcases (spec.lower loc).run.run run.arena with ⟨symbol | root, arena⟩
  · exact (Steady.modify fun _ _ => rfl).bind fun _ => (report_steady _).bind fun _ => .pure _
  · exact (Steady.modify fun _ _ => rfl).bind fun _ => .pure _

theorem resolve_steady (scope : ScopeId) (root : ExprId) :
    Steady first second (resolve scope root) :=
  .get_bind (fun _ _ => rfl) fun _ => (Steady.modify fun _ _ => rfl).bind fun _ =>
    (report_steady _).bind fun _ => .pure _

theorem judge_steady {verdict : Run → Verdict}
    (blind : ∀ (run : Run) (log : Log), verdict { run with log := log } = verdict run) :
    Steady first second (judge verdict) := by
  refine .get_bind (fun run log => ?_) fun run => (report_steady _).bind fun _ => .pure _
  rw [blind]

theorem prepare_steady (spec : Manifest.Expr) (scope : ScopeId) (loc : Location) :
    Steady first second (prepare spec scope loc) := by
  refine (lower_steady spec loc).bind fun lowered => ?_
  cases lowered with
  | none => exact .pure _
  | some root =>
    refine (resolve_steady scope root).bind fun resolved => ?_
    cases resolved with
    | false => exact .pure _
    | true =>
      refine (judge_steady fun _ _ => rfl).bind fun valid => ?_
      cases valid <;> exact .pure _

theorem foldRoot_steady (scope : ScopeId) (root : ExprId) (loc : Location) :
    Steady first second (foldRoot scope root loc) := by
  refine .get_bind (fun _ _ => rfl) fun run => ?_
  dsimp only
  rcases (Rooted.inlineNames run.session scope ⟨run.arena, root⟩).2.simplify with
    ⟨(fault | _) | folded, solved⟩
  · exact (Steady.modify fun _ _ => rfl).bind fun _ => (report_steady _).bind fun _ => .pure _
  · exact (Steady.modify fun _ _ => rfl).bind fun _ => (Steady.modify fun _ _ => rfl).bind
      fun _ => .pure _
  · exact (Steady.modify fun _ _ => rfl).bind fun _ => .pure _

theorem constantType_steady (scope : ScopeId) (spec : Manifest.Constant) (valueType : Ty)
    (loc : Location) : Steady first second (constantType scope spec valueType loc) := by
  unfold constantType
  cases spec.type with
  | none => exact .pure _
  | some name =>
    refine .get_bind (fun _ _ => rfl) fun run => ?_
    split
    · exact (report_steady _).bind fun _ => .pure _
    · split
      · exact .pure _
      · exact (report_steady _).bind fun _ => .pure _

theorem foldConstant_steady (module : ModuleId) (spec : Manifest.Constant) (loc : Location) :
    Steady first second (foldConstant module spec loc) := by
  refine (prepare_steady _ _ _).bind fun prepared => ?_
  cases prepared with
  | none => exact .pure _
  | some root =>
    refine (judge_steady fun _ _ => rfl).bind fun isConst => ?_
    cases isConst with
    | false => exact .pure _
    | true =>
      refine (foldRoot_steady _ root loc).bind fun folded => ?_
      cases folded with
      | none => exact .pure _
      | some folded =>
        refine .get_bind (fun _ _ => rfl) fun run => ?_
        dsimp only
        cases initializer? run.arena folded with
        | none => exact report_steady _
        | some value =>
          refine (constantType_steady _ spec value.1 loc).bind fun ty? => ?_
          cases ty? with
          | none => exact .pure _
          | some ty => exact register_steady _ _

theorem foldConstants_steady (module : ModuleId) (spec : Manifest.Module) :
    Steady first second (foldConstants module spec) :=
  .forM fun constant => (place_steady _).bind fun loc => foldConstant_steady module constant.1 loc

theorem foldLocal_steady (frame : Frame) (spec : Manifest.Variable) :
    Steady first second (foldLocal frame spec) := by
  unfold foldLocal
  cases spec.init with
  | none => exact .pure _
  | some init =>
    refine .get_bind (fun _ _ => rfl) fun run => (place_steady _).bind fun loc =>
      (prepare_steady init _ loc).bind fun prepared => ?_
    cases prepared with
    | none => exact .pure _
    | some root => exact register_steady _ _

theorem foldBlock_steady (frame : Frame) : Steady first second (foldBlock frame) := by
  refine (Steady.forM (foldLocal_steady frame)).bind fun _ => ?_
  rintro _ _ ⟨run, earlier⟩
  let folded := run.session.foldBlock run.arena frame.block
  have both := Run.twins first second
    { run with
      session := folded.session
      arena := folded.arena
      trapped := run.trapped || folded.trapped } (earlier ++ folded.entries)
  rw [Log.recordAll_append, Log.recordAll_append] at both
  exact ⟨rfl, both⟩

theorem all_steady (specs : List Manifest.Module) : Steady first second (all specs) := by
  refine .bind (.forM declareModule_steady) fun _ => .get_bind (fun _ _ => rfl) fun run =>
    .bind (.forM fun module => ?_) fun _ => .bind (.forM fun module => ?_) fun _ =>
    .bind (bindModules_steady run.modules) fun goesOn => ?_
  · exact .forM fun name => wireImport_steady module.1 module.2 name
  · exact registerDefinitions_steady module.1 module.2
  · cases goesOn with
    | false => exact .pure _
    | true =>
      refine .bind (.forM fun module => ?_) fun _ => .get_bind (fun _ _ => rfl) fun run =>
        .forM foldBlock_steady
      exact foldConstants_steady module.1 module.2

end Pass

/-- Runs over the same modules for the same target differ in their logs only. -/
theorem Run.ofManifest_twins {first second : Manifest} (sameModules : second.modules = first.modules)
    (sameTarget : second.settings.target = first.settings.target) (file : String) :
    Run.Twins first.settings second.settings (Run.ofManifest first file)
      (Run.ofManifest second file) := by
  have isStart : Run.start second file =
      { Run.start first file with log := second.settings.log.recordAll [] } := by
    rw [Run.start, sameTarget]
    rfl
  rw [ofManifest, ofManifest, sameModules, isStart]
  exact (Pass.all_steady first.modules _ _ (.intro (Run.start first file) [])).2

namespace Manifest

variable {manifest first second : Manifest} {file : String}

theorem check_eq_ok_iff {report : Report} :
    manifest.check file = .ok report ↔ manifest.settings.target.validate = .ok () ∧
      (Run.ofManifest manifest file).trapped = false ∧
      (Run.ofManifest manifest file).report = report := by
  unfold check
  cases manifest.settings.target.validate with
  | error fault => simp
  | ok _ =>
    cases trapped : (Run.ofManifest manifest file).trapped <;> simp [trapped]

theorem check_eq_error_iff {failure : CheckFailure} :
    manifest.check file = .error failure ↔
      (∃ fault, manifest.settings.target.validate = .error fault ∧ .target fault = failure) ∨
        manifest.settings.target.validate = .ok () ∧
          (Run.ofManifest manifest file).trapped = true ∧ .trap = failure := by
  unfold check
  cases manifest.settings.target.validate with
  | error fault => simp
  | ok _ =>
    cases trapped : (Run.ofManifest manifest file).trapped <;> simp [trapped]

/-- Two manifests that differ in the settings of the log only fail together, and otherwise have
reports with the same modules and counts. Against a report for which nothing is ignored the other
one has the same messages above its level, in the same order; with the same level both have the same
messages. Call sites are recorded for errors, where they are asked for. -/
theorem log_settings_keep_outcome (sameModules : second.modules = first.modules)
    (sameTarget : second.settings.target = first.settings.target) (file : String) :
    (∀ failure, first.check file = .error failure ↔ second.check file = .error failure) ∧
      ∀ report, first.check file = .ok report → ∃ other, second.check file = .ok other ∧
        other.modules = report.modules ∧ other.warnings = report.warnings ∧
        other.errors = report.errors ∧
        (first.settings.ignore = none →
          other.diagnostics.map Diagnostic.entry =
            (report.diagnostics.map Diagnostic.entry).filter fun entry =>
              second.settings.ignore.all fun level => level.rank < entry.severity.rank) ∧
        (first.settings.ignore = second.settings.ignore →
          other.diagnostics.map Diagnostic.entry = report.diagnostics.map Diagnostic.entry) ∧
        ∀ diagnostic ∈ other.diagnostics,
          diagnostic.origin = (second.settings.debug && diagnostic.entry.severity.isError) := by
  have twins := Run.ofManifest_twins sameModules sameTarget file
  simp only [check_eq_error_iff, check_eq_ok_iff, sameTarget]
  generalize Run.ofManifest first file = run at twins ⊢
  generalize Run.ofManifest second file = other at twins ⊢
  obtain ⟨run, entries⟩ := twins
  have counts := first.settings.counts_log second.settings entries
  refine ⟨fun _ => Iff.rfl, fun report isReport => ?_⟩
  obtain ⟨valid, untrapped, rfl⟩ := isReport
  refine ⟨_, ⟨valid, untrapped, rfl⟩, rfl, congrFun counts .warning, ?_, fun keepsAll => ?_,
    fun sameLevel => ?_, fun _ member => second.settings.origin_log entries member⟩
  · show Log.errors _ = Log.errors _
    rw [Log.errors, Log.errors, counts]
  · show List.map _ (Log.kept _) = List.filter _ (List.map _ (Log.kept _))
    rw [Settings.entries_log, Settings.entries_log, List.filter_filter]
    simp only [Settings.keeps, keepsAll, Option.all_none, Bool.and_true]
  · show List.map _ (Log.kept _) = List.map _ (Log.kept _)
    rw [Settings.entries_log, Settings.entries_log]
    simp only [Settings.keeps, sameLevel]

end Manifest

def unknownMember : Manifest :=
  { modules := [{ name := "m", structs := [{ name := "Box", members := [⟨"v", "missing_t"⟩] }] }] }

def unknownMemberTraced : Manifest :=
  { unknownMember with settings := { ignore := some .trace, debug := true } }

theorem log_settings_keep_outcome_unknownMember :
    ∃ report other, unknownMember.check "u" = .ok report ∧
      unknownMemberTraced.check "u" = .ok other ∧ other.modules = report.modules ∧
      other.errors = report.errors ∧ 0 < other.errors ∧
      other.diagnostics.map Diagnostic.entry =
        (report.diagnostics.map Diagnostic.entry).filter (fun entry => 0 < entry.severity.rank) ∧
      ∀ diagnostic ∈ other.diagnostics, diagnostic.origin = diagnostic.entry.severity.isError := by
  have passes : (unknownMember.check "u").toOption.any (fun report => 0 < report.errors) = true := by
    decide +kernel
  have sameModules : unknownMemberTraced.modules = unknownMember.modules := rfl
  have sameTarget : unknownMemberTraced.settings.target = unknownMember.settings.target := rfl
  obtain ⟨report, checked, reports⟩ := exists_ok_of_any passes
  obtain ⟨other, isOther, modules, _, errors, entries, _, origins⟩ :=
    (Manifest.log_settings_keep_outcome sameModules sameTarget "u").2 report checked
  refine ⟨report, other, checked, isOther, modules, errors, ?_, entries rfl, origins⟩
  rw [errors]
  exact of_decide_eq_true reports

end Assay
