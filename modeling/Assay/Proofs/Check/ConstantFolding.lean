import Assay.Proofs.Check.Schedule
import Assay.Proofs.Expr.Reporting
import Assay.Proofs.Manifest.Faithfulness

/-!
Contract: folding a scalar constant agrees with evaluating its declaration.
-/

namespace Assay

namespace Pass

variable {run : Run} {module : ModuleId} {loc : Location} {root : ExprId} {arena : Arena}
variable {spec : Manifest.Expr} {result : Except FoldStop Literal}

/-! ## Preparing a scalar expression -/

/-- A scalar expression resolves without a message. -/
theorem resolve_scalar (ready : run.Ready)
    (denotes : spec.denote? (run.session.literals (.module module)) = some result)
    (lowered : (spec.lower loc).run.run run.arena = (.ok root, arena)) :
    (arena.resolve run.session (.module module) root).ok = true ∧
      (arena.resolve run.session (.module module) root).entries = [] := by
  have yields := Manifest.Expr.yields_of_lower lowered
  have represents := (yields.result rfl).2
  have acyclic : arena.Acyclic := yields.extension.acyclic ready.acyclic
  have ok : (arena.resolve run.session (.module module) root).ok = true :=
    Arena.resolveWithin_scalar acyclic represents.allocated (represents.means acyclic denotes).scalar
      (.refl arena) (acyclic.rank_lt_size represents.allocated)
  exact ⟨ok, (Arena.resolve_reports acyclic represents.allocated).silent.mp ok⟩

/-- The names of a scalar expression have const types once they are known. -/
theorem isConst_scalar (sound : run.session.Sound) (acyclic : arena.Acyclic)
    (allocated : arena.Allocated root)
    (scalar : arena.Scalar (run.session.literals (.module module)) root)
    (known : Arena.NamesKnown run.session (.module module) arena root) :
    arena.isConst root = true := by
  apply Arena.isConst_of_scalar acyclic allocated scalar
  intro inner node name within isNode isName
  have isShape : arena.shape? inner = some (.name name) :=
    Arena.shape?_eq_some_iff.mpr ⟨node, isNode, isName⟩
  obtain ⟨other, value, isOther, isValue, sameType⟩ := known within isShape
  rw [isNode] at isOther
  cases isOther
  obtain ⟨shape, found, closed | ⟨bound, literal, isBound, isLiteral⟩⟩ := scalar within
  · rw [isShape] at found
    cases found
    cases closed
  · rw [isShape] at found
    cases found
    cases isBound
    obtain ⟨ty, isKnown⟩ := Session.literals_eq_some isLiteral
    obtain ⟨constant, isSound, sameConstant, _⟩ := sound.constant_of_value? isKnown
    rw [isValue] at isKnown
    cases isKnown
    rw [sameType, ← sameConstant]
    exact isSound.isConst

/-- Preparing a scalar expression always succeeds, without a message, and what it leaves may stand
for a constant. -/
theorem Prepares.scalar (ready : run.Ready)
    (denotes : spec.denote? (run.session.literals (.module module)) = some result)
    {outcome : Option ExprId × Run} (prepares : Prepares spec (.module module) loc run outcome) :
    ∃ root arena, outcome = (some root, { run with arena := arena }) ∧
      arena.requireConst root = .pass := by
  obtain ⟨_, isOk⟩ := Manifest.Expr.lower_succeeds loc denotes run.arena
  have checks : ∀ {root arena}, (spec.lower loc).run.run run.arena = (.ok root, arena) →
      (run.resolving arena (.module module) root).arena.check run.session root = .pass ∧
        (run.resolving arena (.module module) root).arena.requireConst root = .pass := by
    intro root arena lowered
    have resolvedReady := resolving_ready ready lowered (.module module)
    have resolves := arena.resolve_resolves run.session (.module module) root
    have represents :=
      ((Manifest.Expr.yields_of_lower lowered).result rfl).2.keep resolves.forms.keeps.carries
    have scalar := (represents.means resolvedReady.acyclic denotes).scalar
    have known := Arena.resolveWithin_names (resolve_scalar ready denotes lowered).1
    refine ⟨Arena.check_scalar resolvedReady.acyclic represents.allocated scalar, ?_⟩
    exact Arena.requireConst_scalar scalar
      (isConst_scalar ready.sound resolvedReady.acyclic represents.allocated scalar known)
  cases prepares with
  | unlowered lowered =>
    rw [lowered] at isOk
    cases isOk
  | unresolved lowered failed =>
    rw [(resolve_scalar ready denotes lowered).1] at failed
    cases failed
  | unchecked lowered _ checked failed =>
    rw [(checks lowered).1] at checked
    cases checked
    cases failed
  | @prepared root arena _ lowered _ checked _ =>
    rw [(checks lowered).1] at checked
    cases checked
    refine ⟨root, (run.resolving arena (.module module) root).arena, ?_, (checks lowered).2⟩
    simp [Run.resolving, Run.reporting, Verdict.pass, (resolve_scalar ready denotes lowered).2]

/-! ## Folding a scalar expression -/

theorem initializer?_literal {folded : ExprId} {value : Literal}
    (found : arena.shape? folded = some (.literal value)) :
    initializer? arena folded = some (arena.typeOf folded, .value value) := by
  rw [initializer?, Arena.shapeAt_of_shape? found]

/-- Folding a scalar expression gives the literal it denotes, or reports the stop of its
evaluation. -/
theorem FoldsRoot.scalar (ready : run.Ready)
    (represents : Manifest.Expr.Represents none run.arena spec root)
    (denotes : spec.denote? (run.session.literals (.module module)) = some result)
    {outcome : Option ExprId × Run} (folds : FoldsRoot (.module module) root loc run outcome) :
    (∃ folded literal arena, result = .ok literal ∧
      outcome = (some folded, { run with arena := arena }) ∧
      initializer? arena folded = some (arena.typeOf folded, .value literal)) ∨
    ∃ fault arena, result = .error (.fault fault) ∧
      outcome = (none, Run.reporting { run with arena := arena } [.foldError loc fault]) := by
  have means := represents.means ready.acyclic denotes
  have foldsTo : Rooted.FoldsTo (run.session.literals (.module module)) ⟨run.arena, root⟩ _ :=
    Rooted.fold_scalar ready.acyclic represents.allocated means.scalar
  rw [Rooted.FoldsTo, means.eval] at foldsTo
  cases folds with
  | @folded folded solved isOutcome =>
    rw [isOutcome] at foldsTo
    rcases foldsTo with ⟨_, literal, same, found, isLiteral⟩ | ⟨_, isError, _⟩
    · cases same
      refine .inl ⟨folded, literal, solved.arena, ?_, rfl, initializer?_literal found⟩
      cases result <;> cases isLiteral
      rfl
    · cases isError
  | @stopped fault solved isOutcome =>
    rw [isOutcome] at foldsTo
    rcases foldsTo with ⟨_, _, isOk, _⟩ | ⟨_, same, isError⟩
    · cases isOk
    · cases same
      refine .inr ⟨fault, solved.arena, ?_, rfl⟩
      cases result <;> cases isError
      rfl
  | trapped isOutcome =>
    obtain ⟨_, _, untrapped, _⟩ :=
      simplify_inlined ready (.module module) represents.allocated isOutcome
    exact absurd rfl untrapped

end Pass

namespace ConstantJob

variable {job : ConstantJob} {run judged next : Run} {root : ExprId}
variable {result : Except FoldStop Literal}

/-! ## Folding a scalar constant -/

theorem Prepared.scalar (isReady : run.Ready)
    (denotes : job.spec.value.denote? (run.session.literals (.module job.module)) = some result)
    (prepared : Prepared job run root judged) :
    ∃ arena, judged = { run with arena := arena } := by
  obtain ⟨inner, prepares, rfl⟩ := prepared.prepares
  obtain ⟨_, arena, same, isConst⟩ := Pass.Prepares.scalar isReady denotes prepares
  cases same
  refine ⟨arena, ?_⟩
  simp [Run.reporting, isConst, Verdict.pass]

/-- Every way in which folding a scalar constant can end. -/
inductive ScalarEnd (job : ConstantJob) (run : Run) : Except FoldStop Literal → Run → Prop
  | stopped (fault : FoldFault) (arena : Arena) :
      ScalarEnd job run (.error (.fault fault))
        (Run.reporting { run with arena := arena } [.foldError job.loc fault])
  | untyped (literal : Literal) (arena : Arena) (entries : List Entry)
      (declared : job.spec.type ≠ none) :
      ScalarEnd job run (.ok literal) (Run.reporting { run with arena := arena } entries)
  | refused (literal : Literal) (arena : Arena) (entries : List Entry)
      (taken : job.spec.name ≠ "" ∧
        (run.session.moduleAt job.module).hasConstant job.spec.name = true) :
      ScalarEnd job run (.ok literal) (Run.reporting { run with arena := arena } entries)
  | installed {literal : Literal} {ty : Ty} {name : String} {module : Module} (arena : Arena)
      (added : (run.session.moduleAt job.module).addConstant job.module
        (job.constant ty (.value literal)) = .ok (name, module)) :
      ScalarEnd job run (.ok literal)
        { run with arena := arena, session := run.session.setModule job.module module }

theorem Folds.scalar (isReady : run.Ready)
    (denotes : job.spec.value.denote? (run.session.literals (.module job.module)) = some result)
    (folds : Folds job run next) : ScalarEnd job run result next := by
  -- Once the expression is prepared, only folding it can stop.
  have folded : ∀ {root judged outcome}, Prepared job run root judged →
      Pass.FoldsRoot job.scope root job.loc judged outcome →
      (∃ folded literal arena, result = .ok literal ∧
        outcome = (some folded, { run with arena := arena }) ∧
        Pass.initializer? arena folded = some (arena.typeOf folded, .value literal)) ∨
      ∃ fault arena, result = .error (.fault fault) ∧
        outcome = (none, Run.reporting { run with arena := arena } [.foldError job.loc fault]) := by
    intro root judged outcome prepared folds
    obtain ⟨arena, rfl⟩ := prepared.scalar isReady denotes
    exact Pass.FoldsRoot.scalar (prepared.ready isReady) prepared.represents denotes folds
  cases folds with
  | unprepared prepares =>
    obtain ⟨_, _, same, _⟩ := Pass.Prepares.scalar isReady denotes prepares
    cases same
  | notConst prepares failed =>
    obtain ⟨_, _, same, isConst⟩ := Pass.Prepares.scalar isReady denotes prepares
    cases same
    rw [isConst] at failed
    cases failed
  | unfolded prepared folds =>
    rcases folded prepared folds with ⟨_, _, _, _, same, _⟩ | ⟨fault, arena, rfl, same⟩
    · cases same
    · cases same
      exact .stopped fault arena
  | unsuitable prepared folds unsuitable =>
    rcases folded prepared folds with ⟨_, _, _, _, same, suitable⟩ | ⟨_, _, _, same⟩
    · cases same
      rw [suitable] at unsuitable
      cases unsuitable
    · cases same
  | untyped prepared folds _ chooses =>
    rcases folded prepared folds with ⟨_, literal, arena, rfl, same, _⟩ | ⟨_, _, _, same⟩
    · cases same
      cases chooses with
      | refused declared => exact .untyped literal arena _ declared
    · cases same
  | refused prepared folds _ _ refusal =>
    rcases folded prepared folds with ⟨_, literal, arena, rfl, same, _⟩ | ⟨_, _, _, same⟩
    · cases same
      refine .refused literal arena _ ?_
      unfold Module.addConstant at refusal
      split at refusal
      · next taken => exact taken
      · cases refusal
    · cases same
  | installed prepared folds suitable _ added =>
    rcases folded prepared folds with ⟨_, literal, arena, rfl, same, isValue⟩ | ⟨_, _, _, same⟩
    · cases same
      rw [isValue] at suitable
      cases suitable
      exact .installed arena added
    · cases same

/-- A literal that is added to an allocated module is denoted by the constant that holds it. -/
theorem adds_of_added {session : Session} (allocated : job.module.index < session.modules.size)
    (indexed : (session.moduleAt job.module).Indexed) {ty : Ty} {literal : Literal} {name : String}
    {module : Module}
    (added : (session.moduleAt job.module).addConstant job.module
      (job.constant ty (.value literal)) = .ok (name, module)) :
    ∃ held, Adds job session (session.setModule job.module module) held ∧
      ((session.setModule job.module module).moduleAt job.module).denoted? held.initializer =
        some literal := by
  obtain ⟨held, installs⟩ := Module.installs_of_added added
  refine ⟨held, adds_of_installs allocated installs, ?_⟩
  rw [Session.moduleAt_setModule, if_pos ⟨rfl, allocated⟩]
  exact installs.denoted indexed rfl

end ConstantJob

/-- Folding a constant whose value is built from literals, names, groups, references and chains,
and all of whose names are constants with a literal. Where direct evaluation stops, the fault of the
stop is the one message and the session stays as it was. Where it gives a literal and neither type
nor name stand in the way, one constant is added without a message and denotes the literal. And
whatever is declared, either nothing is added or one constant that denotes the value. -/
theorem Run.folding_agrees_with_evaluation {manifest : Manifest} {file : String}
    {job : ConstantJob} {run : Run} (reaches : Run.Reaches manifest file job run)
    {result : Except FoldStop Literal}
    (denotes : job.spec.value.denote? (run.session.moduleAt job.module).literals = some result) :
    (∀ stop, result = .error stop → ∃ fault, stop = .fault fault ∧
      (∃ entry, (job.after run).log = run.log.record entry ∧ entry.severity = .error ∧
        entry.message = fault.message) ∧
      (job.after run).session = run.session) ∧
    (∀ literal, result = .ok literal → job.spec.type = none →
      (job.spec.name = "" ∨ (run.session.moduleAt job.module).hasConstant job.spec.name = false) →
      (job.after run).log = run.log ∧
      ∃ held, job.Adds run.session (job.after run).session held ∧
        ((job.after run).session.moduleAt job.module).denoted? held.initializer = some literal) ∧
    ((job.after run).session = run.session ∨
      ∃ literal held, result = .ok literal ∧ job.Adds run.session (job.after run).session held ∧
        ((job.after run).session.moduleAt job.module).denoted? held.initializer =
          some literal) := by
  have ready := reaches.advances.ready
  have allocated := reaches.allocated
  rw [← Session.literals_module] at denotes
  have ends := (job.after_folds run).scalar ready denotes
  generalize job.after run = next at ends ⊢
  cases ends with
  | stopped fault arena =>
      refine ⟨?_, fun _ isOk => (by cases isOk), .inl rfl⟩
      rintro _ ⟨⟩
      exact ⟨fault, rfl, ⟨_, rfl, rfl, rfl⟩, rfl⟩
  | untyped literal arena entries declared =>
      exact ⟨fun _ isError => (by cases isError), fun _ _ undeclared => absurd undeclared declared,
        .inl rfl⟩
  | refused literal arena entries taken =>
      refine ⟨fun _ isError => (by cases isError), fun _ _ _ free => ?_, .inl rfl⟩
      rcases free with empty | fresh
      · exact absurd empty taken.1
      · rw [fresh] at taken
        cases taken.2
  | installed arena added =>
      obtain ⟨held, adds, denoted⟩ := ConstantJob.adds_of_added allocated
        (ready.sound job.module).indexed added
      refine ⟨fun _ isError => (by cases isError), ?_, .inr ⟨_, held, rfl, adds, denoted⟩⟩
      rintro _ ⟨⟩ _ _
      exact ⟨rfl, held, adds, denoted⟩

def sumAndQuotient : Manifest :=
  { modules := [{
      name := "m"
      constants := [
        { name := "small", value := .int 200 },
        { name := "sum", value := .chain (.name "small") [("+", .int 100)] },
        { name := "quotient", value := .chain (.group (.name "sum")) [("/", .int 0)] }] }] }

theorem folding_agrees_with_evaluation_sumAndQuotient :
    ∃ small sum quotient before after,
      Run.constantJobs sumAndQuotient "s" = [small, sum, quotient] ∧
      Run.Reaches sumAndQuotient "s" sum before ∧
      Run.Reaches sumAndQuotient "s" quotient after ∧
      (∃ held, sum.Adds before.session (sum.after before).session held ∧
        ((sum.after before).session.moduleAt sum.module).denoted? held.initializer =
          some (.int 300)) ∧
      (∃ entry, (quotient.after after).log = after.log.record entry ∧
        entry.message = FoldFault.divisionByZero.message) ∧
      (quotient.after after).session = after.session := by
  let place (index : Nat) (spec : Manifest.Constant) : ConstantJob :=
    ⟨⟨0⟩, spec, .item "s" (Pass.constantPath "m" index spec)⟩
  let small := place 0 { name := "small", value := .int 200 }
  let sum := place 1 { name := "sum", value := .chain (.name "small") [("+", .int 100)] }
  let quotient := place 2
    { name := "quotient", value := .chain (.group (.name "sum")) [("/", .int 0)] }
  let before := small.after (Run.binding sumAndQuotient "s").2
  let after := sum.after before
  obtain ⟨goesOn, smallBound, sumBound, fresh⟩ : (Run.binding sumAndQuotient "s").1 = true ∧
      ((before.session.moduleAt ⟨0⟩).literals "small").bind Literal.int? = some 200 ∧
      ((after.session.moduleAt ⟨0⟩).literals "sum").bind Literal.int? = some 300 ∧
      (before.session.moduleAt ⟨0⟩).hasConstant "sum" = false := by
    decide +kernel
  have sumReached : Run.Reaches sumAndQuotient "s" sum before :=
    ⟨goesOn, [small], [quotient], rfl, rfl⟩
  have quotientReached : Run.Reaches sumAndQuotient "s" quotient after :=
    ⟨goesOn, [small, sum], [], rfl, rfl⟩
  -- From here on the two runs are any runs with these literals.
  clear_value before after
  obtain ⟨_, isBound, isInt⟩ := Option.bind_eq_some_iff.mp smallBound
  rw [Literal.eq_int isInt] at isBound
  have sumDenotes : sum.spec.value.denote? (before.session.moduleAt ⟨0⟩).literals =
      some (.ok (.int 300)) := by
    simp only [sum, place, Manifest.Expr.denote?, isBound]
    rfl
  obtain ⟨_, isBound, isInt⟩ := Option.bind_eq_some_iff.mp sumBound
  rw [Literal.eq_int isInt] at isBound
  have quotientDenotes : quotient.spec.value.denote? (after.session.moduleAt ⟨0⟩).literals =
      some (.error (.fault .divisionByZero)) := by
    simp only [quotient, place, Manifest.Expr.denote?, isBound]
    rfl
  obtain ⟨_, added, _⟩ := Run.folding_agrees_with_evaluation sumReached sumDenotes
  obtain ⟨stopped, _⟩ := Run.folding_agrees_with_evaluation quotientReached quotientDenotes
  obtain ⟨fault, same, ⟨entry, recorded, _, message⟩, unchanged⟩ := stopped _ rfl
  cases same
  exact ⟨small, sum, quotient, before, after, rfl, sumReached, quotientReached,
    (added _ rfl rfl (.inr fresh)).2, ⟨entry, recorded, message⟩, unchanged⟩

end Assay
