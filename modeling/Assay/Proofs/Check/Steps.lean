import Assay.Proofs.Check.Passes

/-!
Contract: what the folding of one constant or one variable can do to a run.
-/

namespace Assay

open Assay.Computation

def Run.resolving (run : Run) (arena : Arena) (scope : ScopeId) (root : ExprId) : Run :=
  Run.reporting { run with arena := (arena.resolve run.session scope root).arena }
    (arena.resolve run.session scope root).entries

namespace Pass

variable {run : Run} {scope : ScopeId} {loc : Location}

inductive Prepares (spec : Manifest.Expr) (scope : ScopeId) (loc : Location) (run : Run) :
    Option ExprId × Run → Prop
  | unlowered {symbol : String} {arena : Arena}
      (lowered : (spec.lower loc).run.run run.arena = (.error symbol, arena)) :
      Prepares spec scope loc run
        (none, Run.reporting { run with arena := arena } [.error loc (.unknownOperator symbol)])
  | unresolved {root : ExprId} {arena : Arena}
      (lowered : (spec.lower loc).run.run run.arena = (.ok root, arena))
      (failed : (arena.resolve run.session scope root).ok = false) :
      Prepares spec scope loc run (none, run.resolving arena scope root)
  | unchecked {root : ExprId} {arena : Arena} {verdict : Verdict}
      (lowered : (spec.lower loc).run.run run.arena = (.ok root, arena))
      (resolved : (arena.resolve run.session scope root).ok = true)
      (checked : (run.resolving arena scope root).arena.check run.session root = verdict)
      (failed : verdict.ok = false) :
      Prepares spec scope loc run
        (none, (run.resolving arena scope root).reporting verdict.entries)
  | prepared {root : ExprId} {arena : Arena} {verdict : Verdict}
      (lowered : (spec.lower loc).run.run run.arena = (.ok root, arena))
      (resolved : (arena.resolve run.session scope root).ok = true)
      (checked : (run.resolving arena scope root).arena.check run.session root = verdict)
      (passed : verdict.ok = true) :
      Prepares spec scope loc run
        (some root, (run.resolving arena scope root).reporting verdict.entries)

theorem prepare_prepares (spec : Manifest.Expr) (scope : ScopeId) (loc : Location) (run : Run) :
    Prepares spec scope loc run ((prepare spec scope loc).run run) := by
  rcases lowered : (spec.lower loc).run.run run.arena with ⟨symbol | root, arena⟩
  · have lowering : (lower spec loc).run run = (none,
        Run.reporting { run with arena := arena } [.error loc (.unknownOperator symbol)]) := by
      rw [lower, run_get_bind, lowered]
      rfl
    rw [prepare, run_bind, lowering]
    exact .unlowered lowered
  · have lowering : (lower spec loc).run run = (some root, { run with arena := arena }) := by
      rw [lower, run_get_bind, lowered]
      rfl
    have resolving : (resolve scope root).run { run with arena := arena } =
        ((arena.resolve run.session scope root).ok, run.resolving arena scope root) := rfl
    rw [prepare, run_bind, lowering]
    dsimp only
    rw [run_bind, resolving]
    dsimp only
    cases resolved : (arena.resolve run.session scope root).ok with
    | false => exact .unresolved lowered resolved
    | true =>
      generalize checked : (run.resolving arena scope root).arena.check run.session root = verdict
      have judging : (judge fun run => run.arena.check run.session root).run
          (run.resolving arena scope root) =
            (verdict.ok, (run.resolving arena scope root).reporting verdict.entries) := by
        rw [← checked]
        rfl
      simp only [Bool.not_true, Bool.false_eq_true, ↓reduceIte]
      rw [run_bind, judging]
      dsimp only
      cases passed : verdict.ok with
      | false => exact .unchecked lowered resolved checked passed
      | true => exact .prepared lowered resolved checked passed

inductive FoldsRoot (scope : ScopeId) (root : ExprId) (loc : Location) (run : Run) :
    Option ExprId × Run → Prop
  | folded {folded : ExprId} {solved : Rooted}
      (outcome : (Rooted.inlineNames run.session scope ⟨run.arena, root⟩).2.simplify =
        (.ok folded, solved)) :
      FoldsRoot scope root loc run (some folded, { run with arena := solved.arena })
  | stopped {fault : FoldFault} {solved : Rooted}
      (outcome : (Rooted.inlineNames run.session scope ⟨run.arena, root⟩).2.simplify =
        (.error (.fault fault), solved)) :
      FoldsRoot scope root loc run
        (none, Run.reporting { run with arena := solved.arena } [.foldError loc fault])
  | trapped {solved : Rooted}
      (outcome : (Rooted.inlineNames run.session scope ⟨run.arena, root⟩).2.simplify =
        (.error .trap, solved)) :
      FoldsRoot scope root loc run (none, { run with arena := solved.arena, trapped := true })

theorem foldRoot_folds (scope : ScopeId) (root : ExprId) (loc : Location) (run : Run) :
    FoldsRoot scope root loc run ((foldRoot scope root loc).run run) := by
  rw [foldRoot, run_get_bind]
  dsimp only
  rcases outcome : (Rooted.inlineNames run.session scope ⟨run.arena, root⟩).2.simplify with
    ⟨(fault | _) | folded, solved⟩
  · exact .stopped outcome
  · exact .trapped outcome
  · exact .folded outcome

/-- The type under which a value is declared: its own, or one that takes it. -/
def Declares (session : Session) (scope : ScopeId) (spec : Manifest.Constant) (loc : Location)
    (valueType ty : Ty) : Prop :=
  match spec.type with
  | none => ty = valueType
  | some name =>
      session.resolveType scope (.ofName name loc) (.error loc (.definitionNotFound name)) =
          .ok ty ∧ ty.accepts valueType = true

def Declines (session : Session) (scope : ScopeId) (spec : Manifest.Constant) (loc : Location)
    (valueType : Ty) (entries : List Entry) : Prop :=
  (∃ name, session.resolveType scope (.ofName name loc) (.error loc (.definitionNotFound name)) =
      .error entries) ∨
    ∃ ty : Ty, entries = [.error loc (.constantTypeMismatch spec.name ty.text valueType.text)]

inductive Chooses (scope : ScopeId) (spec : Manifest.Constant) (valueType : Ty) (loc : Location)
    (run : Run) : Option Ty × Run → Prop
  | refused {entries : List Entry} (declared : spec.type ≠ none)
      (declines : Declines run.session scope spec loc valueType entries) :
      Chooses scope spec valueType loc run (none, run.reporting entries)
  | chosen {ty : Ty} (declares : Declares run.session scope spec loc valueType ty) :
      Chooses scope spec valueType loc run (some ty, run)

theorem constantType_chooses (scope : ScopeId) (spec : Manifest.Constant) (valueType : Ty)
    (loc : Location) (run : Run) :
    Chooses scope spec valueType loc run ((constantType scope spec valueType loc).run run) := by
  unfold constantType
  split
  · next undeclared =>
    refine .chosen ?_
    rw [Declares, undeclared]
  · next name declared =>
    have isDeclared : spec.type ≠ none := by simp [declared]
    rw [run_get_bind]
    split
    · next entries unknown => exact .refused isDeclared (.inl ⟨name, unknown⟩)
    · next ty resolved =>
      split
      · next accepts =>
        refine .chosen ?_
        rw [Declares, declared]
        exact ⟨resolved, accepts⟩
      · exact .refused isDeclared (.inr ⟨ty, rfl⟩)

end Pass

/-! ## Constants -/

/-- A constant that is to be folded: its module, its declaration and its place. -/
structure ConstantJob where
  module : ModuleId
  spec : Manifest.Constant
  loc : Location

namespace ConstantJob

variable {job : ConstantJob} {run : Run}

def scope (job : ConstantJob) : ScopeId :=
  .module job.module

def after (job : ConstantJob) (run : Run) : Run :=
  ((Pass.foldConstant job.module job.spec job.loc).run run).2

def constant (job : ConstantJob) (ty : Ty) (initializer : Initializer) : Constant :=
  { Constant.declare job.spec.name ty initializer with docstring := job.spec.docstring }

structure Prepared (job : ConstantJob) (run : Run) (root : ExprId) (judged : Run) : Prop where
  prepares : ∃ prepared, Pass.Prepares job.spec.value job.scope job.loc run (some root, prepared) ∧
    judged = prepared.reporting (prepared.arena.requireConst root).entries
  isConst : (judged.arena.requireConst root).ok = true

inductive Folds (job : ConstantJob) (run : Run) : Run → Prop
  | unprepared {next : Run}
      (prepares : Pass.Prepares job.spec.value job.scope job.loc run (none, next)) :
      Folds job run next
  | notConst {root : ExprId} {prepared : Run}
      (prepares : Pass.Prepares job.spec.value job.scope job.loc run (some root, prepared))
      (failed : (prepared.arena.requireConst root).ok = false) :
      Folds job run (prepared.reporting (prepared.arena.requireConst root).entries)
  | unfolded {root : ExprId} {judged next : Run} (prepared : Prepared job run root judged)
      (folds : Pass.FoldsRoot job.scope root job.loc judged (none, next)) :
      Folds job run next
  | unsuitable {root folded : ExprId} {judged solved : Run}
      (prepared : Prepared job run root judged)
      (folds : Pass.FoldsRoot job.scope root job.loc judged (some folded, solved))
      (initializer : Pass.initializer? solved.arena folded = none) :
      Folds job run
        (solved.reporting [.error job.loc (.notConstant (solved.arena.shapeAt folded).label)])
  | untyped {root folded : ExprId} {judged solved next : Run} {valueType : Ty}
      {initializer : Initializer} (prepared : Prepared job run root judged)
      (folds : Pass.FoldsRoot job.scope root job.loc judged (some folded, solved))
      (suitable : Pass.initializer? solved.arena folded = some (valueType, initializer))
      (chooses : Pass.Chooses job.scope job.spec valueType job.loc solved (none, next)) :
      Folds job run next
  | refused {root folded : ExprId} {judged solved : Run} {valueType ty : Ty}
      {initializer : Initializer} {fault : Fault} (prepared : Prepared job run root judged)
      (folds : Pass.FoldsRoot job.scope root job.loc judged (some folded, solved))
      (suitable : Pass.initializer? solved.arena folded = some (valueType, initializer))
      (declares : Pass.Declares solved.session job.scope job.spec job.loc valueType ty)
      (refusal : (solved.session.moduleAt job.module).addConstant job.module
        (job.constant ty initializer) = .error fault) :
      Folds job run (solved.reporting [.error job.loc fault])
  | installed {root folded : ExprId} {judged solved : Run} {valueType ty : Ty}
      {initializer : Initializer} {name : String} {module : Module}
      (prepared : Prepared job run root judged)
      (folds : Pass.FoldsRoot job.scope root job.loc judged (some folded, solved))
      (suitable : Pass.initializer? solved.arena folded = some (valueType, initializer))
      (declares : Pass.Declares solved.session job.scope job.spec job.loc valueType ty)
      (added : (solved.session.moduleAt job.module).addConstant job.module
        (job.constant ty initializer) = .ok (name, module)) :
      Folds job run { solved with session := solved.session.setModule job.module module }

theorem after_folds (job : ConstantJob) (run : Run) : Folds job run (job.after run) := by
  rw [after, Pass.foldConstant]
  dsimp only
  rw [run_bind]
  have prepares := Pass.prepare_prepares job.spec.value (.module job.module) job.loc run
  generalize (Pass.prepare job.spec.value (.module job.module) job.loc).run run = outcome
    at prepares ⊢
  rcases outcome with ⟨_ | root, prepared⟩
  · exact .unprepared prepares
  dsimp only
  rw [run_bind]
  have judging : (Pass.judge fun run => run.arena.requireConst root).run prepared =
      ((prepared.arena.requireConst root).ok,
        prepared.reporting (prepared.arena.requireConst root).entries) := rfl
  rw [judging]
  dsimp only
  cases isConst : (prepared.arena.requireConst root).ok with
  | false => exact .notConst prepares isConst
  | true =>
    generalize isJudged : prepared.reporting (prepared.arena.requireConst root).entries = judged
    have isPrepared : Prepared job run root judged := by
      subst isJudged
      exact ⟨⟨prepared, prepares, rfl⟩, isConst⟩
    simp only [Bool.not_true, Bool.false_eq_true, ↓reduceIte]
    rw [run_bind]
    have folds := Pass.foldRoot_folds (.module job.module) root job.loc judged
    generalize (Pass.foldRoot (.module job.module) root job.loc).run judged = outcome at folds ⊢
    rcases outcome with ⟨_ | folded, solved⟩
    · exact .unfolded isPrepared folds
    dsimp only
    rw [run_get_bind]
    rcases suitable : Pass.initializer? solved.arena folded with _ | ⟨valueType, initializer⟩
    · exact .unsuitable isPrepared folds suitable
    dsimp only
    rw [run_bind]
    have chooses :=
      Pass.constantType_chooses (.module job.module) job.spec valueType job.loc solved
    generalize (Pass.constantType (.module job.module) job.spec valueType job.loc).run solved =
      outcome at chooses ⊢
    rcases outcome with ⟨_ | ty, typed⟩
    · exact .untyped isPrepared folds suitable chooses
    cases chooses with
    | chosen declares =>
      dsimp only
      change Folds job run ((Pass.register (.error job.loc) (Edit.addConstant job.module
        (job.constant ty initializer))).run solved).2
      rcases added : (solved.session.moduleAt job.module).addConstant job.module
        (job.constant ty initializer) with fault | ⟨name, module⟩
      · have edited : (Edit.addConstant job.module (job.constant ty initializer)).run.run
            solved.session = (.error fault, solved.session) := by
          rw [Edit.addConstant, Stopping.run_get_bind, added]
          rfl
        rw [Pass.register_error edited]
        exact .refused isPrepared folds suitable declares added
      · have edited : (Edit.addConstant job.module (job.constant ty initializer)).run.run
            solved.session = (.ok name, solved.session.setModule job.module module) := by
          rw [Edit.addConstant, Stopping.run_get_bind, added]
          rfl
        rw [Pass.register_ok edited]
        exact .installed isPrepared folds suitable declares added

end ConstantJob

/-! ## Locals -/

def Frame.placeOf (frame : Frame) (run : Run) (spec : Manifest.Variable) : Location :=
  .item run.file ((run.session.moduleAt frame.module).name ++ "/functions/" ++ frame.func ++
    "/locals/" ++ spec.name)

inductive Pass.Initializes (frame : Frame) (spec : Manifest.Variable) (run : Run) : Run → Prop
  | absent (none : spec.init = none) : Initializes frame spec run run
  | unprepared {init : Manifest.Expr} {next : Run} (given : spec.init = some init)
      (prepares : Prepares init (.block frame.block) (frame.placeOf run spec) run (none, next)) :
      Initializes frame spec run next
  | unknown {init : Manifest.Expr} {root : ExprId} {prepared : Run} (given : spec.init = some init)
      (prepares :
        Prepares init (.block frame.block) (frame.placeOf run spec) run (some root, prepared))
      (missing : (prepared.session.structAt
        (prepared.session.blockAt frame.block).vars).contains spec.name = false) :
      Initializes frame spec run
        (prepared.reporting [.error (frame.placeOf run spec) (.undefinedName spec.name)])
  | initialized {init : Manifest.Expr} {root : ExprId} {prepared : Run}
      (given : spec.init = some init)
      (prepares :
        Prepares init (.block frame.block) (frame.placeOf run spec) run (some root, prepared))
      (known : (prepared.session.structAt
        (prepared.session.blockAt frame.block).vars).contains spec.name = true) :
      Initializes frame spec run
        { prepared with
          session := prepared.session.modifyBlock frame.block fun state =>
            state.setInit spec.name root }

theorem Pass.foldLocal_initializes (frame : Frame) (spec : Manifest.Variable) (run : Run) :
    Initializes frame spec run ((foldLocal frame spec).run run).2 := by
  unfold foldLocal
  split
  · next init given =>
    rw [run_get_bind, run_bind]
    have placing : (place ((run.session.moduleAt frame.module).name ++ "/functions/" ++
        frame.func ++ "/locals/" ++ spec.name)).run run = (frame.placeOf run spec, run) := rfl
    rw [placing, run_bind]
    have prepares := prepare_prepares init (.block frame.block) (frame.placeOf run spec) run
    generalize (prepare init (.block frame.block) (frame.placeOf run spec)).run run = outcome
      at prepares ⊢
    rcases outcome with ⟨_ | root, prepared⟩
    · exact .unprepared given prepares
    · dsimp only
      cases known : (prepared.session.structAt
          (prepared.session.blockAt frame.block).vars).contains spec.name with
      | false =>
        have edited : (Edit.setInit frame.block spec.name root).run.run prepared.session =
            (.error (.undefinedName spec.name), prepared.session) := by
          rw [Edit.setInit, Stopping.run_get_bind, known]
          rfl
        rw [register_error edited]
        exact .unknown given prepares known
      | true =>
        have edited : (Edit.setInit frame.block spec.name root).run.run prepared.session =
            (.ok ⟨⟩, prepared.session.modifyBlock frame.block fun state =>
              state.setInit spec.name root) := by
          rw [Edit.setInit, Stopping.run_get_bind, known]
          rfl
        rw [register_ok edited]
        exact .initialized given prepares known
  · next absent => exact .absent (Option.eq_none_iff_forall_ne_some.mpr absent)

/-- Folding a block exchanges what its variables start from, and changes nothing else. -/
theorem Session.foldBlock_keeps {motive : Session → Prop} {session : Session} {block : BlockId}
    (step : ∀ {later : Session} {name init expr}, (name, init) ∈ session.initsInOrder block →
      motive later → motive (later.modifyBlock block fun state => state.setInit name expr))
    (holds : motive session) (arena : Arena) : motive (session.foldBlock arena block).session := by
  unfold foldBlock
  refine List.foldlRecOn (motive := fun state : Folded => motive state.session) _ _ holds
    fun state holds init member => ?_
  change motive (foldInit block state init.1 init.2).session
  unfold foldInit
  dsimp only
  split
  · split
    · exact step member holds
    · exact holds
    · exact holds
  · exact holds

end Assay
