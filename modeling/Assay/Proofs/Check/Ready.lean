import Assay.Proofs.Check.Steps
import Assay.Proofs.Expr.ScalarFolding
import Assay.Proofs.Scope.References

/-!
Contract: the invariant of a run while constants are folded.
-/

namespace Assay

/-! ## Sound sessions -/

def Module.literals (module : Module) : Environment :=
  fun name => (module.constant? name).bind fun constant => module.denoted? constant.initializer

/-- Every constant is sound, and every text stands where its index says. -/
structure Module.Sound (module : Module) : Prop where
  constants : ∀ constant ∈ module.constants, constant.Sound
  indexed : module.Indexed

namespace Session

def Sound (session : Session) : Prop :=
  ∀ id, (session.moduleAt id).Sound

variable {session before after : Session} {id : ModuleId} {name : String} {literal : Literal}

theorem Rounded.sound (rounded : session.Rounded) : session.Sound :=
  fun id => ⟨fun constant member => ((rounded.referenced.connected id).constants constant member).2,
    (rounded.consistent.modules id).indexed⟩

theorem Registered.changes {phase : Phase} (registered : before.Registered)
    (changes : Changes True phase before after) : after.Registered where
  allocated := Nat.lt_of_lt_of_le registered.allocated changes.upholds.structs_size
  name := (changes.upholds.structs _ registered.allocated).name.trans registered.name
  modules := fun id held =>
    have heldBefore := Nat.lt_of_lt_of_eq held changes.modules_size
    (changes.upholds.modules id heldBefore).structs.lookup_eq_some (registered.modules heldBefore)

theorem registered_ofTarget (target : Target) : (ofTarget target).Registered where
  allocated := Nat.zero_lt_succ 2
  name := rfl
  modules := fun id allocated => absurd allocated (Nat.not_lt_zero id.index)

theorem value?_module (session : Session) (id : ModuleId) (name : String) :
    session.value? (.module id) name = (session.moduleAt id).value? name := by
  simp only [value?, scopes_module, ownValue?, List.findSome?_cons, List.findSome?_nil]
  cases (session.moduleAt id).value? name <;> rfl

/-- A name with a literal is a sound constant that denotes it. -/
theorem Sound.constant_of_value? (sound : session.Sound) {ty : Ty}
    (known : session.value? (.module id) name = some ⟨ty, some literal⟩) :
    ∃ constant : Constant, constant.Sound ∧ constant.ty = ty ∧
      (session.moduleAt id).denoted? constant.initializer = some literal := by
  rw [value?_module] at known
  cases found : (session.moduleAt id).constant? name with
  | none =>
    rw [Module.value?, found] at known
    obtain ⟨global, _, isValue⟩ := Option.map_eq_some_iff.mp known
    cases isValue
  | some constant =>
    rw [Module.value?_of_constant? found] at known
    have isValue := Option.some.inj known
    rw [NamedValue.mk.injEq] at isValue
    exact ⟨constant, (sound id).constants constant (Module.mem_of_constant? found), isValue.1,
      isValue.2⟩

theorem Sound.typedIn (sound : session.Sound) (id : ModuleId) : session.TypedIn (.module id) := by
  intro name ty literal known
  obtain ⟨constant, isSound, rfl, denoted⟩ := sound.constant_of_value? known
  cases isInitializer : constant.initializer with
  | value held =>
    rw [isInitializer] at denoted
    cases denoted
    exact isSound.value isInitializer
  | stringIndex index =>
    rw [isInitializer] at denoted
    obtain ⟨text, _, rfl⟩ := Option.map_eq_some_iff.mp denoted
    exact ⟨trivial, fun notText => absurd rfl notText, fun _ => isSound.interned isInitializer⟩
  | _ =>
    rw [isInitializer] at denoted
    cases denoted

theorem literals_module (session : Session) (id : ModuleId) :
    session.literals (.module id) = (session.moduleAt id).literals := by
  funext name
  rw [literals, value?_module, Module.literals]
  cases found : (session.moduleAt id).constant? name with
  | none =>
    rw [Module.value?, found]
    cases (session.moduleAt id).global? name <;> rfl
  | some constant =>
    rw [Module.value?_of_constant? found]
    rfl

theorem literals_eq_some {scope : ScopeId} (bound : session.literals scope name = some literal) :
    ∃ ty, session.value? scope name = some ⟨ty, some literal⟩ := by
  obtain ⟨⟨ty, value⟩, known, rfl⟩ := Option.bind_eq_some_iff.mp bound
  exact ⟨ty, known⟩

/-- Constants are the only names with a value, so that what holds of modules holds of every
scope. -/
theorem Sound.typed (sound : session.Sound) (scope : ScopeId) : session.TypedIn scope := by
  intro name ty value known
  obtain ⟨inner, _, isOwn⟩ := List.exists_of_findSome?_eq_some known
  cases inner with
  | module id =>
    have read : session.value? (.module id) name = some ⟨ty, some value⟩ := by
      rw [value?_module]
      exact isOwn
    exact sound.typedIn id read
  | func id | block id =>
    obtain ⟨_, _, absent⟩ := Option.map_eq_some_iff.mp isOwn
    cases absent

end Session

/-! ## Initial values -/

namespace Pass

variable {arena : Arena} {folded : ExprId} {value : Literal} {ids : List ExprId}
  {values : List Literal} {valueType : Ty}

theorem literal?_inRange (typed : arena.Typed) {id : ExprId}
    (literal : arena.literal? id = some value) : value.InRange := by
  by_cases allocated : arena.Allocated id
  · obtain ⟨node, found, isLiteral⟩ :=
      Arena.shape?_eq_some_iff.mp (Arena.shape?_of_literal? allocated literal)
    exact ((typed found).literal value isLiteral).inRange
  · rw [Arena.literal?, Arena.shapeAt, Arena.nodeAt, Arena.node?_eq_none allocated] at literal
    cases literal
    trivial

theorem mapM_cons_eq_some {α β : Type} {find : α → Option β} {item : α} {items : List α}
    {found : List β} (all : (item :: items).mapM find = some found) :
    ∃ first rest, find item = some first ∧ items.mapM find = some rest ∧ first :: rest = found := by
  rw [List.mapM_cons] at all
  obtain ⟨first, isFirst, all⟩ := Option.bind_eq_some_iff.mp all
  obtain ⟨rest, areRest, all⟩ := Option.bind_eq_some_iff.mp all
  exact ⟨first, rest, isFirst, areRest, Option.some.inj all⟩

/-- A list is read as literals if each of its elements is. -/
theorem map_literal? (literals : ids.mapM arena.literal? = some values) :
    ids.map arena.literal? = values.map some := by
  induction ids generalizing values with
  | nil =>
    cases literals
    rfl
  | cons id ids ih =>
    obtain ⟨first, rest, isFirst, areRest, rfl⟩ := mapM_cons_eq_some literals
    rw [List.map_cons, List.map_cons, isFirst, ih areRest]

theorem mapM_inRange (typed : arena.Typed) (literals : ids.mapM arena.literal? = some values) :
    ∀ value ∈ values, value.InRange := by
  intro value member
  have listed : some value ∈ ids.map arena.literal? := by
    rw [map_literal? literals]
    exact List.mem_map_of_mem member
  obtain ⟨id, _, isLiteral⟩ := List.mem_map.mp listed
  exact literal?_inRange typed isLiteral

theorem typeOf_literal (acyclic : arena.Acyclic) {node : Node}
    (found : arena.node? folded = some node) (literal : node.shape = .literal value) :
    arena.typeOf folded = node.ty := by
  rw [Arena.typeOf, acyclic.fold_eq _ _ found, literal]
  unfold Arena.typeStep
  split <;> rfl

/-- An initial value under its type: a value that the type admits, or elements in range. -/
structure Suits (valueType : Ty) (initializer : Initializer) : Prop where
  value : ∀ ⦃literal⦄, initializer = .value literal → valueType.Admits literal
  notInterned : ∀ index, initializer ≠ .stringIndex index
  aggregate : ∀ ⦃literals⦄, initializer = .aggregate literals →
    ∀ literal ∈ literals, literal.InRange

theorem Suits.of_aggregate {literals : List Literal}
    (inRange : ∀ literal ∈ literals, literal.InRange) :
    Suits valueType (.aggregate literals) where
  value := fun _ same => by cases same
  notInterned := fun _ same => by cases same
  aggregate := by
    rintro _ ⟨⟩
    exact inRange

/-- What the expression that folding left gives to a constant: the type and the initial value. -/
inductive Gives (arena : Arena) (folded : ExprId) : Ty → Initializer → Prop
  | literal {value : Literal} (isLiteral : arena.shapeAt folded = .literal value) :
      Gives arena folded (arena.typeOf folded) (.value value)
  | construct {target : Ty} {child : ExprId} {literals : List Literal}
      (isConstruct : arena.shapeAt folded = .construct target child)
      (areLiterals : (arena.outputs child).mapM arena.literal? = some literals) :
      Gives arena folded target (.aggregate literals)
  | list {elements : List ExprId} {first : ExprId} {literals : List Literal}
      (isList : arena.shapeAt folded = .list elements)
      (areLiterals : elements.mapM arena.literal? = some literals)
      (isFirst : elements.head? = some first) :
      Gives arena folded ((arena.typeOf first).asArray literals.length) (.aggregate literals)

theorem initializer?_gives {initializer : Initializer}
    (suitable : initializer? arena folded = some (valueType, initializer)) :
    Gives arena folded valueType initializer := by
  unfold initializer? at suitable
  split at suitable
  · next isLiteral =>
    cases suitable
    exact .literal isLiteral
  · next isConstruct =>
    obtain ⟨values, areLiterals, suitable⟩ := Option.bind_eq_some_iff.mp suitable
    cases suitable
    exact .construct isConstruct areLiterals
  · next isList =>
    obtain ⟨values, areLiterals, suitable⟩ := Option.bind_eq_some_iff.mp suitable
    obtain ⟨first, isFirst, suitable⟩ := Option.bind_eq_some_iff.mp suitable
    cases suitable
    exact .list isList areLiterals isFirst
  · cases suitable

/-- The value of a constant refers to no other definition. -/
theorem Gives.linked {initializer : Initializer} (gives : Gives arena folded valueType initializer)
    (module : Assay.Module) (name : String) : module.Linked name initializer := by
  cases gives <;> trivial

theorem Gives.suits (acyclic : arena.Acyclic) (typed : arena.Typed)
    (allocated : arena.Allocated folded) {initializer : Initializer}
    (gives : Gives arena folded valueType initializer) : Suits valueType initializer := by
  cases gives with
  | literal isLiteral =>
    obtain ⟨node, found⟩ := Arena.exists_node? allocated
    rw [Arena.shapeAt_of_node? found] at isLiteral
    refine ⟨fun _ same => ?_, by simp, fun _ same => by cases same⟩
    cases same
    rw [typeOf_literal acyclic found isLiteral]
    exact (typed found).literal _ isLiteral
  | construct _ areLiterals | list _ areLiterals _ =>
    exact .of_aggregate (mapM_inRange typed areLiterals)

end Pass

/-! ## Folding without a trap -/

namespace Arena

variable {arena : Arena}

theorem solveWithin_ne_trap (depth : Nat) (id : ExprId) (typed : arena.Typed) :
    ((solveWithin depth id).run.run arena).1 ≠ .error .trap := by
  induction depth generalizing id arena with
  | zero => simp [solveWithin]
  | succ depth ih =>
    by_cases operator : (arena.shapeAt id).isOperator = true
    · cases shape : arena.shapeAt id with
      | unary op child =>
        rw [solveWithin_unary depth shape]
        exact ih child typed
      | step op child =>
        rw [solveWithin_step depth shape]
        exact ih child typed
      | binary op left right =>
        rw [solveWithin_binary depth shape]
        have typedLeft := solveWithin_nodewise Node.Fits.durable depth left arena typed
        have goesOn := ih left typed
        generalize (solveWithin depth left).run.run arena = leftOutcome at typedLeft goesOn ⊢
        rcases leftOutcome with ⟨stop | leftValue, afterLeft⟩
        · exact goesOn
        · have typedRight := solveWithin_nodewise Node.Fits.durable depth right afterLeft typedLeft
          have goesOn := ih right typedLeft
          dsimp only
          generalize (solveWithin depth right).run.run afterLeft = rightOutcome
            at typedRight goesOn ⊢
          rcases rightOutcome with ⟨stop | rightValue, grown⟩
          · exact goesOn
          · dsimp only
            split
            · next isLeft isRight =>
              have leftInRange := Pass.literal?_inRange typedRight isLeft
              have rightInRange := Pass.literal?_inRange typedRight isRight
              split
              · simp
              · next stopped =>
                rintro ⟨⟩
                exact Fold.binary_ne_trap leftInRange rightInRange stopped
            · simp
      | _ => simp [shape, Shape.isOperator] at operator
    · rw [solveWithin_leaf depth (Bool.eq_false_iff.mpr operator)]
      simp

end Arena

theorem Rooted.simplifyWithin_ne_trap {expr : Rooted} (rounds : Nat) (typed : expr.arena.Typed) :
    (simplifyWithin rounds expr).1 ≠ .error .trap := by
  induction rounds generalizing expr with
  | zero => simp [simplifyWithin]
  | succ rounds ih =>
    generalize isOutcome : simplifyWithin (rounds + 1) expr = outcome
    have round := isOutcome ▸ simplifyWithin_round rounds expr
    cases round with
    | nothingLeft _ => simp
    | @stops branch stop grown _ solved =>
      have goesOn := Arena.solveWithin_ne_trap expr.arena.size branch typed
      change (expr.arena.solve branch).1 ≠ _ at goesOn
      rw [solved] at goesOn
      exact goesOn
    | whole _ _ => simp
    | @part branch folded grown spliced _ solved isSpliced =>
      have grownTyped := Arena.Nodewise.solve Node.Fits.durable typed solved
      exact ih (splice?_nodewise Node.Fits.durable grownTyped isSpliced)
    | detached _ _ _ _ => simp

/-! ## Ready runs -/

/-- An arena without cycles whose nodes fit, beside a rounded session whose modules know the runtime
strings. -/
structure Run.Ready (run : Run) : Prop where
  acyclic : run.arena.Acyclic
  typed : run.arena.Typed
  rounded : run.session.Rounded
  registered : run.session.Registered

theorem Run.Ready.sound {run : Run} (ready : run.Ready) : run.session.Sound :=
  ready.rounded.sound

namespace Pass

variable {run prepared solved next : Run} {scope : ScopeId} {loc : Location} {root : ExprId}
  {outcome : Option ExprId × Run} {module : ModuleId} {session : Session} {valueType ty : Ty}
variable {spec : Manifest.Expr}

structure Frames (before after : Run) : Prop where
  session : after.session = before.session
  file : after.file = before.file

theorem Prepares.frames (prepares : Prepares spec scope loc run outcome) :
    Frames run outcome.2 := by
  cases prepares <;> exact ⟨rfl, rfl⟩

theorem resolving_ready (ready : run.Ready) {arena : Arena}
    (lowered : (spec.lower loc).run.run run.arena = (.ok root, arena)) (scope : ScopeId) :
    (run.resolving arena scope root).Ready := by
  have yields := Manifest.Expr.yields_of_lower lowered
  have resolves := arena.resolve_resolves run.session scope root
  exact ⟨resolves.forms.acyclic (yields.extension.acyclic ready.acyclic),
    Arena.resolveWithin_typed ready.registered arena.size root (yields.typed ready.typed),
    ready.rounded, ready.registered⟩

theorem Prepares.ready (ready : run.Ready) (prepares : Prepares spec scope loc run outcome) :
    outcome.2.Ready := by
  cases prepares with
  | unlowered lowered =>
    have yields := Manifest.Expr.yields_of_lower lowered
    exact ⟨yields.extension.acyclic ready.acyclic, yields.typed ready.typed, ready.rounded,
      ready.registered⟩
  | unresolved lowered _ => exact resolving_ready ready lowered scope
  | unchecked lowered _ _ _ | prepared lowered _ _ _ =>
    have resolved := resolving_ready ready lowered scope
    exact ⟨resolved.acyclic, resolved.typed, resolved.rounded, resolved.registered⟩

theorem Prepares.represents (prepares : Prepares spec scope loc run (some root, prepared)) :
    Manifest.Expr.Represents none prepared.arena spec root := by
  cases prepares with
  | @prepared _ arena _ lowered _ _ _ =>
    have represents := ((Manifest.Expr.yields_of_lower lowered).result rfl).2
    exact represents.keep (arena.resolve_resolves run.session scope root).forms.keeps.carries

theorem FoldsRoot.frames (folds : FoldsRoot scope root loc run outcome) : Frames run outcome.2 := by
  cases folds <;> exact ⟨rfl, rfl⟩

/-- What inlining and folding leave: no cycle, typed literals, no trap, and the meaning of the
root. -/
theorem simplify_inlined (ready : run.Ready) (scope : ScopeId)
    (allocated : run.arena.Allocated root) {outcome : Except FoldStop ExprId × Rooted}
    (isOutcome : (Rooted.inlineNames run.session scope ⟨run.arena, root⟩).2.simplify = outcome) :
    outcome.2.arena.Acyclic ∧ outcome.2.arena.Typed ∧ outcome.1 ≠ .error .trap ∧
      ∀ folded, outcome.1 = .ok folded → outcome.2.arena.Allocated folded ∧
        outcome.2.arena.eval (run.session.literals scope) folded =
          run.arena.eval (run.session.literals scope) root := by
  have inlines : Rooted.Inlines (run.session.literals scope) ⟨run.arena, root⟩ _ :=
    Rooted.inlineNames_inlines (Rooted.agrees_literals run.session scope) ready.acyclic allocated
  have inlinedTyped := Rooted.inlineNames_typed
    (show (⟨run.arena, root⟩ : Rooted).arena.Typed from ready.typed) (ready.sound.typed scope)
  rw [← isOutcome]
  generalize (Rooted.inlineNames run.session scope ⟨run.arena, root⟩).2 = inlined
    at inlines inlinedTyped
  have kept : Rooted.KeepsMeaning (run.session.literals scope) inlined inlined.simplify :=
    Rooted.simplifyWithin_keepsMeaning _ inlines.arena.acyclic inlines.root_allocated
  have typed : inlined.simplify.2.arena.Typed := Rooted.simplifyWithin_typed _ inlinedTyped
  refine ⟨kept.arena.acyclic, typed, Rooted.simplifyWithin_ne_trap _ inlinedTyped,
    fun folded isOk => ?_⟩
  obtain ⟨foldedAllocated, meaning⟩ := kept.result isOk
  exact ⟨foldedAllocated, meaning.trans inlines.root_meaning⟩

theorem FoldsRoot.ready (ready : run.Ready) (allocated : run.arena.Allocated root)
    (folds : FoldsRoot (.module module) root loc run outcome) : outcome.2.Ready := by
  cases folds with
  | folded isOutcome | stopped isOutcome | trapped isOutcome =>
    obtain ⟨acyclic, typed, _⟩ := simplify_inlined ready (.module module) allocated isOutcome
    exact ⟨acyclic, typed, ready.rounded, ready.registered⟩

theorem FoldsRoot.meaning (ready : run.Ready) (allocated : run.arena.Allocated root)
    {folded : ExprId} (folds : FoldsRoot (.module module) root loc run (some folded, solved)) :
    solved.arena.Allocated folded ∧
      solved.arena.eval (run.session.literals (.module module)) folded =
        run.arena.eval (run.session.literals (.module module)) root := by
  cases folds with
  | folded isOutcome =>
    obtain ⟨_, _, _, result⟩ := simplify_inlined ready (.module module) allocated isOutcome
    exact result folded rfl

/-- A constant has the type of its value, or a canonical type that accepts it. -/
theorem Declares.cases {spec : Manifest.Constant}
    (declares : Declares session scope spec loc valueType ty) (registered : session.Registered) :
    ty = valueType ∨ ty.Canonical ∧ ty.accepts valueType = true := by
  unfold Declares at declares
  split at declares
  · exact .inl declares
  · next name _ =>
    obtain ⟨resolved, accepts⟩ := declares
    exact .inr ⟨registered.resolveType_canonical (Ty.canonical_ofName name loc) resolved, accepts⟩

/-- A type under which a sound value is declared makes a sound constant. -/
theorem Declares.sound {spec : Manifest.Constant}
    (declares : Declares session scope spec loc valueType ty) (registered : session.Registered)
    {literal : Literal} (admits : valueType.Admits literal) : ty.Admits literal := by
  rcases declares.cases registered with rfl | ⟨canonical, accepts⟩
  · exact admits
  · exact admits.of_accepts accepts canonical

end Pass

namespace ConstantJob

variable {job : ConstantJob} {run judged solved next : Run} {root : ExprId} {ty : Ty}
  {initializer : Initializer} {module : Module} {entries : List Entry}

theorem Prepared.ready (isReady : run.Ready) (prepared : Prepared job run root judged) :
    judged.Ready := by
  obtain ⟨inner, prepares, rfl⟩ := prepared.prepares
  have innerReady := prepares.ready isReady
  exact ⟨innerReady.acyclic, innerReady.typed, innerReady.rounded, innerReady.registered⟩

theorem Prepared.frames (prepared : Prepared job run root judged) : Pass.Frames run judged := by
  obtain ⟨inner, prepares, rfl⟩ := prepared.prepares
  have frames := prepares.frames
  exact ⟨frames.session, frames.file⟩

theorem Prepared.represents (prepared : Prepared job run root judged) :
    Manifest.Expr.Represents none judged.arena job.spec.value root := by
  obtain ⟨inner, prepares, rfl⟩ := prepared.prepares
  exact prepares.represents

structure Advances (before after : Run) : Prop where
  ready : after.Ready
  file : after.file = before.file
  changes : Session.Changes True .registration before.session after.session
  structs : after.session.structs = before.session.structs
  blocks : after.session.blocks = before.session.blocks

theorem Advances.of_frames (frames : Pass.Frames run next) (isReady : next.Ready) :
    Advances run next := by
  refine ⟨isReady, frames.file, ?_, by rw [frames.session], by rw [frames.session]⟩
  rw [frames.session]

theorem constant_sound (isReady : solved.Ready) {valueType : Ty}
    (declares : Pass.Declares solved.session job.scope job.spec job.loc valueType ty)
    (suits : Pass.Suits valueType initializer) :
    ({ job.constant ty initializer with
        ty := Module.constantType (job.constant ty initializer).ty } : Constant).Sound := by
  refine ⟨?_, fun literal isValue => ?_, fun index isInterned => ?_, suits.aggregate⟩
  · show (Module.constantType ty.asConst).isConst = true
    unfold Module.constantType
    split <;> rfl
  · exact (declares.sound isReady.registered (suits.value isValue)).asConst.constantType
  · exact absurd isInterned (suits.notInterned index)

/-- The run that has folded an expression, before anything is declared. -/
theorem Prepared.folded (isReady : run.Ready) (prepared : Prepared job run root judged)
    {outcome : Option ExprId × Run}
    (folds : Pass.FoldsRoot job.scope root job.loc judged outcome) :
    Pass.Frames run outcome.2 ∧ outcome.2.Ready := by
  have first := prepared.frames
  have second := folds.frames
  refine ⟨⟨second.session.trans first.session, second.file.trans first.file⟩, ?_⟩
  exact Pass.FoldsRoot.ready (prepared.ready isReady) prepared.represents.allocated folds

theorem setModule_advances (frames : Pass.Frames run solved) (isReady : solved.Ready)
    (alters : (solved.session.moduleAt job.module).Alters True job.module module)
    (globals : module.globalTable = (solved.session.moduleAt job.module).globalTable) :
    Advances run { solved with session := solved.session.setModule job.module module } := by
  have changes : Session.Changes True .registration solved.session
      (solved.session.setModule job.module module) := .single (.of_globals alters globals)
  refine ⟨⟨isReady.acyclic, isReady.typed, changes.rounded isReady.rounded,
    isReady.registered.changes changes⟩, frames.file, ?_, ?_, ?_⟩
  · rw [← frames.session]
    exact changes
  · rw [← frames.session]
    rfl
  · rw [← frames.session]
    rfl

theorem reporting_ready (isReady : solved.Ready) : (solved.reporting entries).Ready :=
  ⟨isReady.acyclic, isReady.typed, isReady.rounded, isReady.registered⟩

theorem reporting_frames (frames : Pass.Frames run solved) :
    Pass.Frames run (solved.reporting entries) :=
  ⟨frames.session, frames.file⟩

/-- Folding a constant keeps runs ready, whichever way it ends. -/
theorem Folds.advances (isReady : run.Ready) (folds : Folds job run next) : Advances run next := by
  cases folds with
  | unprepared prepares => exact .of_frames prepares.frames (prepares.ready isReady)
  | notConst prepares _ =>
    exact .of_frames (reporting_frames prepares.frames) (reporting_ready (prepares.ready isReady))
  | unfolded prepared folds =>
    obtain ⟨frames, solvedReady⟩ := prepared.folded isReady folds
    exact .of_frames frames solvedReady
  | unsuitable prepared folds _ | refused prepared folds _ _ _ =>
    obtain ⟨frames, solvedReady⟩ := prepared.folded isReady folds
    exact .of_frames (reporting_frames frames) (reporting_ready solvedReady)
  | untyped prepared folds _ chooses =>
    obtain ⟨frames, solvedReady⟩ := prepared.folded isReady folds
    cases chooses with
    | refused _ => exact .of_frames (reporting_frames frames) (reporting_ready solvedReady)
  | installed prepared folds suitable declares added =>
    obtain ⟨frames, solvedReady⟩ := prepared.folded isReady folds
    have allocated := (Pass.FoldsRoot.meaning (prepared.ready isReady)
      prepared.represents.allocated folds).1
    have gives := Pass.initializer?_gives suitable
    have suits := gives.suits solvedReady.acyclic solvedReady.typed allocated
    exact setModule_advances frames solvedReady
      (Edit.addConstant_alters added (fun _ => gives.linked _ _)
        fun _ => constant_sound solvedReady declares suits) (Edit.globalTable_addConstant added)

/-! ## New constants -/

/-- The session has one constant more, at the end of the module of the job. -/
structure Adds (job : ConstantJob) (before after : Session) (held : Constant) : Prop where
  constants : (after.moduleAt job.module).constants =
    (before.moduleAt job.module).constants ++ [held]
  others : ∀ ⦃id⦄, job.module ≠ id → after.moduleAt id = before.moduleAt id
  name : job.spec.name ≠ "" → held.name = job.spec.name

theorem adds_of_installs {session : Session} (allocated : job.module.index < session.modules.size)
    {held : Constant}
    (installs : (session.moduleAt job.module).Installs job.module (job.constant ty initializer) name
      module held) :
    Adds job session (session.setModule job.module module) held := by
  refine ⟨?_, fun id different => ?_, installs.named⟩
  · rw [Session.moduleAt_setModule, if_pos ⟨rfl, allocated⟩, installs.constants]
  · rw [Session.moduleAt_setModule, if_neg fun same => different same.1]

/-- How a constant came to be held: the expression that it was folded from, the value that folding
left, and the type under which it was declared. -/
structure Installed (job : ConstantJob) (run : Run) (held : Constant) (root folded : ExprId)
    (judged solved : Run) (valueType : Ty) (initializer : Initializer) : Prop where
  prepared : Prepared job run root judged
  folds : Pass.FoldsRoot job.scope root job.loc judged (some folded, solved)
  suitable : Pass.initializer? solved.arena folded = some (valueType, initializer)
  declares : ∃ ty, Pass.Declares solved.session job.scope job.spec job.loc valueType ty ∧
    held.ty = Module.constantType ty.asConst
  initializer : held.initializer = initializer ∨ ∃ text index,
    initializer = .value (.text text) ∧ held.initializer = .stringIndex index

/-- Folding a constant leaves the session as it is, unless its module takes the constant. -/
theorem Folds.session_cases (folds : Folds job run next) :
    next.session = run.session ∨ ∃ root folded judged solved valueType ty initializer name module,
      Prepared job run root judged ∧
      Pass.FoldsRoot job.scope root job.loc judged (some folded, solved) ∧
      Pass.initializer? solved.arena folded = some (valueType, initializer) ∧
      Pass.Declares solved.session job.scope job.spec job.loc valueType ty ∧
      (run.session.moduleAt job.module).addConstant job.module (job.constant ty initializer) =
        .ok (name, module) ∧
      next.session = run.session.setModule job.module module := by
  have solving : ∀ {root judged outcome}, Prepared job run root judged →
      Pass.FoldsRoot job.scope root job.loc judged outcome → outcome.2.session = run.session :=
    fun prepared folds => folds.frames.session.trans prepared.frames.session
  cases folds with
  | unprepared prepares | notConst prepares _ => exact .inl prepares.frames.session
  | unfolded prepared folds | unsuitable prepared folds _ | refused prepared folds _ _ _ =>
    exact .inl (solving prepared folds)
  | untyped prepared folds _ chooses =>
    cases chooses with
    | refused _ => exact .inl (solving prepared folds)
  | installed prepared folds suitable declares added =>
    have same := solving prepared folds
    dsimp only at same added ⊢
    rw [same] at added ⊢
    exact .inr ⟨_, _, _, _, _, _, _, _, _, prepared, folds, suitable, declares, added, rfl⟩

/-- Folding a constant adds none, or one that came to be held as said. -/
theorem Folds.adds (allocated : job.module.index < run.session.modules.size)
    (folds : Folds job run next) :
    next.session = run.session ∨
      ∃ held, Adds job run.session next.session held ∧
        ∃ root folded judged solved valueType initializer,
          Installed job run held root folded judged solved valueType initializer := by
  rcases folds.session_cases with same | ⟨root, folded, judged, solved, valueType, ty, initializer,
    name, module, prepared, folds, suitable, declares, added, isNext⟩
  · exact .inl same
  · obtain ⟨held, installs⟩ := Module.installs_of_added added
    rw [isNext]
    exact .inr ⟨held, adds_of_installs allocated installs, root, folded, judged, solved, valueType,
      initializer, prepared, folds, suitable, ⟨ty, declares, installs.ty⟩,
      installs.initializer.imp_right
        fun ⟨text, index, isText, isIndex, _⟩ => ⟨text, index, isText, isIndex⟩⟩

end ConstantJob

end Assay
