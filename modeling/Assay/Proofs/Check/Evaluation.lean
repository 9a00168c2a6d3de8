import Assay.Proofs.Check.Moves
import Assay.Proofs.Check.Ready
import Assay.Proofs.Expr.Coverage
import Assay.Proofs.Expr.Reporting

/-!
Contract: what the folding of constants and variables does to a run, step by step.
-/

namespace Assay

variable {session : Session} {arena : Arena} {root folded : ExprId} {initializer : Initializer}
  {block : BlockId} {exprs : Nat}

/-! ## What folding leaves of an aggregate -/

namespace Pass

variable {arena : Arena} {folded : ExprId} {env : Environment} {literals : List Literal}

theorem eval_literals {ids : List ExprId} (allocated : ∀ id ∈ ids, arena.Allocated id)
    (areLiterals : ids.mapM arena.literal? = some literals) :
    ids.map (arena.eval env) = (literals.map Value.literal).map .ok := by
  induction ids generalizing literals with
  | nil =>
    cases areLiterals
    rfl
  | cons id ids ih =>
    obtain ⟨first, rest, isFirst, areRest, rfl⟩ := mapM_cons_eq_some areLiterals
    have others := ih (fun id member => allocated id (by simp [member])) areRest
    rw [List.map_cons, others, Arena.eval_of_literal? (allocated id (by simp)) isFirst]
    rfl

/-- A list of literals means the list of them. -/
theorem eval_elements (acyclic : arena.Acyclic) {id : ExprId} {elements : List ExprId}
    (found : arena.shape? id = some (.list elements))
    (areLiterals : elements.mapM arena.literal? = some literals) :
    arena.eval env id = .ok (.list (literals.map .literal)) := by
  have allocated : ∀ element ∈ elements, arena.Allocated element := fun element member =>
    acyclic.allocated (Arena.operand_iff_shape?.mpr ⟨_, found, member⟩)
  rw [acyclic.eval_of_shape? found, Shape.map, Value.ofShape, eval_literals allocated areLiterals,
    Value.mapM_id_eq_ok.mpr rfl]
  rfl

/-- What the initial value of an aggregate says about the meaning of the expression. -/
theorem initializer?_aggregate (acyclic : arena.Acyclic) (allocated : arena.Allocated folded)
    {valueType : Ty} {literals : List Literal}
    (suitable : initializer? arena folded = some (valueType, .aggregate literals)) :
    (∃ argument, arena.eval env folded = .ok (.construct valueType argument) ∧
      ∀ values, argument = .list values → values = literals.map .literal) ∨
    (arena.eval env folded = .ok (.list (literals.map .literal)) ∧ ∃ first literal,
      literals.head? = some literal ∧ arena.Allocated first ∧ arena.literal? first = some literal ∧
        valueType = (arena.typeOf first).asArray literals.length) := by
  have isShape := Arena.shape?_of_allocated allocated
  cases initializer?_gives suitable with
  | @construct _ child _ isConstruct areLiterals =>
    rw [isConstruct] at isShape
    have childAllocated : arena.Allocated child :=
      acyclic.allocated (Arena.operand_iff_shape?.mpr ⟨_, isShape, by simp [Shape.children]⟩)
    have childShape := Arena.shape?_of_allocated childAllocated
    have meaning : arena.eval env folded = (arena.eval env child).map (.construct valueType) :=
      acyclic.eval_of_shape? isShape
    left
    unfold Arena.outputs at areLiterals
    split at areLiterals
    · next elements isList =>
      rw [isList] at childShape
      rw [eval_elements acyclic childShape areLiterals] at meaning
      refine ⟨_, meaning, ?_⟩
      rintro _ ⟨⟩
      rfl
    · have single : [child].map (arena.eval env) = _ :=
        eval_literals (by simpa using childAllocated) areLiterals
      cases literals with
      | nil => cases single
      | cons literal rest =>
        have isLiteral : arena.eval env child = .ok (.literal literal) :=
          (List.cons.inj single).1
        rw [isLiteral] at meaning
        refine ⟨_, meaning, ?_⟩
        rintro _ ⟨⟩
  | @list _ first _ isList areLiterals isFirst =>
    rw [isList] at isShape
    refine .inr ⟨eval_elements acyclic isShape areLiterals, ?_⟩
    obtain ⟨tail, rfl⟩ := List.head?_eq_some_iff.mp isFirst
    have firstAllocated : arena.Allocated first :=
      acyclic.allocated (Arena.operand_iff_shape?.mpr ⟨_, isShape, by simp [Shape.children]⟩)
    obtain ⟨literal, rest, isLiteral, _, rfl⟩ := mapM_cons_eq_some areLiterals
    exact ⟨first, literal, rfl, firstAllocated, isLiteral, rfl⟩

theorem typeOf_literal_admits (acyclic : arena.Acyclic) (typed : arena.Typed) {value : Literal}
    (found : arena.shape? folded = some (.literal value)) :
    (arena.typeOf folded).Admits value := by
  obtain ⟨node, isNode, isLiteral⟩ := Arena.shape?_eq_some_iff.mp found
  rw [typeOf_literal acyclic isNode isLiteral]
  exact (typed isNode).literal value isLiteral

end Pass

variable {job : ConstantJob} {run judged : Run}

theorem ConstantJob.Prepared.checked (prepared : Prepared job run root judged) :
    Arena.NamesKnown run.session job.scope judged.arena root ∧
      (judged.arena.check run.session root).ok = true := by
  obtain ⟨inner, prepares, rfl⟩ := prepared.prepares
  cases prepares with
  | prepared lowered resolved checked passed =>
    subst checked
    exact ⟨Arena.resolveWithin_names resolved, passed⟩

/-! ## Intact runs -/

/-- What holds of a run between two steps: the session keeps its integrity, the arena is ready to be
folded and carries types of the session only. -/
structure Run.Intact (run : Run) : Prop extends run.Ready where
  integral : run.session.Integral run.arena.size
  furnished : run.session.Furnished
  covered : run.arena.CoveredBy run.bounds

namespace Run

variable {may : Handle → Prop} {run : Run} {arena : Arena}

theorem Intact.reporting (intact : run.Intact) (entries : List Entry) :
    (run.reporting entries).Intact :=
  ⟨⟨intact.acyclic, intact.typed, intact.rounded, intact.registered⟩, intact.integral,
    intact.furnished, intact.covered⟩

/-- A change of the session that keeps a run ready keeps it intact. -/
theorem Intact.moves {next : Run} (intact : run.Intact) (moves : run.Moves may next)
    (isReady : next.Ready) (same : next.arena = run.arena) : next.Intact where
  toReady := isReady
  integral := moves.integral intact.integral
  furnished := intact.furnished.persists moves.session.persists
  covered := by
    rw [same]
    exact intact.covered.mono moves.bounds

/-- The arena is that of a later state of the same session, and every change on the way to it brought
in types of the session only. -/
structure Follows (run : Run) (arena : Arena) : Prop where
  acyclic : arena.Acyclic
  typed : arena.Typed
  revises : Arena.Revises (fun node => node.CoveredBy run.bounds) run.arena arena

theorem Follows.covered (follows : run.Follows arena) (intact : run.Intact) :
    arena.CoveredBy run.bounds :=
  follows.revises.nodewise intact.covered

theorem Follows.intact (follows : run.Follows arena) (intact : run.Intact) :
    ({ run with arena := arena } : Run).Intact :=
  have size := follows.revises.size_le
  ⟨⟨follows.acyclic, follows.typed, intact.rounded, intact.registered⟩, intact.integral.mono size,
    intact.furnished, (follows.covered intact).mono (run.session.bounds_le size)⟩

abbrev Evaluates : Run → Run → Prop :=
  Moves fun _ => False

theorem Follows.moves (follows : run.Follows arena) : run.Evaluates { run with arena := arena } :=
  ⟨rfl, rfl, rfl, rfl, .of_arena follows.revises, [], rfl, List.forall_mem_nil _⟩

theorem Moves.of_evaluates {after : Run} (evaluates : run.Evaluates after) : run.Moves may after :=
  evaluates.mono fun _ => False.elim

theorem Moves.reporting {next : Run} (moves : run.Evaluates next) (intact : next.Intact)
    {entries : List Entry} (plain : ∀ entry ∈ entries, entry.Plain) :
    run.Moves may (next.reporting entries) ∧ (next.reporting entries).Intact :=
  ⟨moves.of_evaluates.trans (.of_entries _ plain), intact.reporting _⟩

end Run

namespace Pass

variable {may : Handle → Prop} {run : Run} {scope : ScopeId} {loc : Location} {root : ExprId}
  {spec : Manifest.Expr} {outcome : Option ExprId × Run}

theorem lower_follows (intact : run.Intact) (spec : Manifest.Expr) (loc : Location) :
    run.Follows ((spec.lower loc).run.run run.arena).2 := by
  have yields := Manifest.Expr.lower_yields loc spec run.arena
  exact ⟨yields.extension.acyclic intact.acyclic, yields.typed intact.typed,
    yields.revises.mono fun _ written => written.coveredBy _⟩

theorem resolve_follows (intact : run.Intact) (scope : ScopeId) (root : ExprId) :
    run.Follows (run.arena.resolve run.session scope root).arena := by
  have resolves := run.arena.resolve_resolves run.session scope root
  exact ⟨resolves.forms.acyclic intact.acyclic,
    Arena.resolveWithin_typed intact.registered _ root intact.typed,
    Arena.resolveWithin_revises intact.integral.covered _ root intact.acyclic.closed intact.covered⟩

theorem plain_of_errors {ok : Bool} {entries : List Entry} (explained : Explains ok entries) :
    ∀ entry ∈ entries, entry.Plain :=
  fun entry member => .inr (explained.errors entry member)

/-- The run in which an expression has been allocated and resolved. -/
theorem resolving_proceeds (intact : run.Intact) {arena : Arena}
    (lowered : (spec.lower loc).run.run run.arena = (.ok root, arena)) (scope : ScopeId) :
    run.Evaluates (run.resolving arena scope root) ∧ (run.resolving arena scope root).Intact ∧
      (run.resolving arena scope root).arena.Allocated root := by
  have follows := lower_follows intact spec loc
  rw [lowered] at follows
  have allocated := ((Manifest.Expr.yields_of_lower lowered).result rfl).2.allocated
  have intactMiddle := follows.intact intact
  have resolved := resolve_follows intactMiddle scope root
  have explained : Explains _ (arena.resolve run.session scope root).entries :=
    Arena.resolve_explained intact.integral.settled follows.acyclic allocated
  refine ⟨?_, (resolved.intact intactMiddle).reporting _, Nat.lt_of_lt_of_le allocated
    resolved.revises.size_le⟩
  exact (follows.moves.trans resolved.moves).trans (.of_entries _ (plain_of_errors explained))

/-- Preparing an expression leaves the session alone, and gives a root that is allocated. -/
theorem Prepares.proceeds (intact : run.Intact) (prepares : Prepares spec scope loc run outcome) :
    run.Evaluates outcome.2 ∧ outcome.2.Intact ∧
      ∀ root, outcome.1 = some root → outcome.2.arena.Allocated root := by
  cases prepares with
  | unlowered lowered =>
    have follows := lower_follows intact spec loc
    rw [lowered] at follows
    refine ⟨follows.moves.trans (.of_entries _ ?_), (follows.intact intact).reporting _,
      fun _ absent => by cases absent⟩
    exact List.forall_mem_singleton.mpr (plain_error _ _)
  | unresolved lowered _ =>
    obtain ⟨moves, intactAfter, _⟩ := resolving_proceeds intact lowered scope
    exact ⟨moves, intactAfter, fun _ absent => by cases absent⟩
  | unchecked lowered _ checked _ =>
    subst checked
    obtain ⟨moves, intactAfter, _⟩ := resolving_proceeds intact lowered scope
    exact ⟨moves.trans (.of_entries _ (plain_of_errors (Arena.check_explained _))),
      intactAfter.reporting _, fun _ absent => by cases absent⟩
  | prepared lowered _ checked _ =>
    subst checked
    obtain ⟨moves, intactAfter, allocated⟩ := resolving_proceeds intact lowered scope
    refine ⟨moves.trans (.of_entries _ (plain_of_errors (Arena.check_explained _))),
      intactAfter.reporting _, ?_⟩
    rintro _ ⟨⟩
    exact allocated

/-! ## Folding an expression -/

/-- Inlining names and folding from an allocated root: what is left of the arena, that there was no
trap, and that a root that is returned is allocated. -/
structure Folded (run : Run) (outcome : Except FoldStop ExprId × Rooted) : Prop where
  follows : run.Follows outcome.2.arena
  untrapped : outcome.1 ≠ .error .trap
  allocated : ∀ folded, outcome.1 = .ok folded → outcome.2.arena.Allocated folded

theorem inlineNames_follows (intact : run.Intact) (scope : ScopeId)
    (allocated : run.arena.Allocated root) :
    let inlined := (Rooted.inlineNames run.session scope ⟨run.arena, root⟩).2
    run.Follows inlined.arena ∧ inlined.arena.Allocated inlined.root := by
  intro inlined
  have inlines : Rooted.Inlines (run.session.literals scope) ⟨run.arena, root⟩ inlined :=
    Rooted.inlineNames_inlines (Rooted.agrees_literals run.session scope) intact.acyclic allocated
  have typed : inlined.arena.Typed := Rooted.inlineNames_typed
    (show (⟨run.arena, root⟩ : Rooted).arena.Typed from intact.typed) (intact.sound.typed scope)
  refine ⟨⟨inlines.arena.acyclic, typed, ?_⟩, inlines.root_allocated⟩
  exact @Rooted.inlineNames_revises _ ⟨run.arena, root⟩ intact.acyclic allocated intact.covered
    Node.CoveredBy.durable _ _ (fun value loc => ⟨by simp, List.forall_mem_nil _⟩) fun loc known =>
      ⟨intact.integral.covered.value? known, List.forall_mem_nil _⟩

theorem simplify_folded {expr : Rooted} (intact : run.Intact) (follows : run.Follows expr.arena)
    (allocated : expr.arena.Allocated expr.root) : Folded run expr.simplify := by
  have kept : Rooted.KeepsMeaning (fun _ => none) expr expr.simplify :=
    Rooted.simplifyWithin_keepsMeaning _ follows.acyclic allocated
  have revises := Rooted.simplifyWithin_revises follows.acyclic allocated (follows.covered intact)
    Node.CoveredBy.durable (expr.arena.operatorCount expr.root)
  exact ⟨⟨kept.arena.acyclic, Rooted.simplifyWithin_typed _ follows.typed,
      follows.revises.trans revises⟩,
    Rooted.simplifyWithin_ne_trap _ follows.typed, fun _ isOk => (kept.result isOk).1⟩

theorem FoldsRoot.proceeds (intact : run.Intact) (allocated : run.arena.Allocated root)
    (folds : FoldsRoot scope root loc run outcome) :
    run.Evaluates outcome.2 ∧ outcome.2.Intact ∧
      ∀ folded, outcome.1 = some folded → outcome.2.arena.Allocated folded := by
  obtain ⟨follows, rootAllocated⟩ := inlineNames_follows intact scope allocated
  have folded := simplify_folded intact follows rootAllocated
  cases folds with
  | folded isOutcome =>
    rw [isOutcome] at folded
    refine ⟨folded.follows.moves, folded.follows.intact intact, ?_⟩
    rintro _ ⟨⟩
    exact folded.allocated _ rfl
  | stopped isOutcome =>
    rw [isOutcome] at folded
    refine ⟨folded.follows.moves.trans (.of_entries _ ?_),
      (folded.follows.intact intact).reporting _, fun _ absent => by cases absent⟩
    exact List.forall_mem_singleton.mpr (.inr rfl)
  | trapped isOutcome =>
    rw [isOutcome] at folded
    exact absurd rfl folded.untrapped

end Pass

/-! ## Constants -/

/-- A value that is a constructed struct comes from a constructor of that struct. -/
theorem Arena.Acyclic.construct_of_eval {arena : Arena} (acyclic : arena.Acyclic)
    {env : Environment} {root : ExprId} (allocated : arena.Allocated root) {target : Ty}
    {argument : Value} (evaluates : arena.eval env root = .ok (.construct target argument)) :
    ∃ inner child, arena.Within inner root ∧ arena.shape? inner = some (.construct target child) := by
  revert evaluates
  refine acyclic.induction ?_ root allocated
  intro root node isNode operands evaluates
  have isShape := shape?_of_node? isNode
  rw [acyclic.eval_of_shape? isShape] at evaluates
  have through : ∀ child ∈ node.shape.children,
      arena.eval env child = .ok (.construct target argument) → ∃ inner child,
        arena.Within inner root ∧ arena.shape? inner = some (.construct target child) := by
    intro child member same
    obtain ⟨inner, grandchild, within, found⟩ := operands child member same
    exact ⟨inner, grandchild, within.tail (operand_of_mem isNode member), found⟩
  cases form : node.shape with
  | literal value =>
    rw [form] at evaluates
    cases evaluates
  | name spelling =>
    rw [form, Shape.map, Value.ofShape, Value.ofName] at evaluates
    split at evaluates <;> cases evaluates
  | list elements =>
    rw [form] at evaluates
    obtain ⟨_, absent, _⟩ := Value.ofShape_list_ok evaluates
    cases absent
  | unary op child | step op child =>
    rw [form] at evaluates
    exact through child (by simp [form, Shape.children]) evaluates
  | construct earlier child =>
    rw [form] at evaluates
    obtain ⟨_, _, ⟨⟩⟩ := map_eq_ok.mp evaluates
    exact ⟨root, child, .refl, form ▸ isShape⟩
  | binary op left right =>
    rw [form] at evaluates
    obtain ⟨_, _, later⟩ := bind_eq_ok.mp evaluates
    obtain ⟨_, _, combined⟩ := bind_eq_ok.mp later
    obtain ⟨_, absent⟩ := Value.combine_ok combined
    cases absent
  | index source subscript =>
    rw [form] at evaluates
    obtain ⟨_, _, later⟩ := bind_eq_ok.mp evaluates
    obtain ⟨_, _, ⟨⟩⟩ := bind_eq_ok.mp later

theorem Ty.Admits.isUnresolved {ty : Ty} {literal : Literal} (admits : ty.Admits literal) :
    ty.isUnresolved = false := by
  apply decide_eq_false
  intro isOpen
  by_cases isText : literal.kind = .string
  · rcases admits.textual isText with isString | isStruct
    · rw [isOpen] at isString
      cases isString
    · rw [isOpen] at isStruct
      cases isStruct
  · have plain := admits.kind_mem_plain isText
    rw [isOpen] at plain
    exact absurd plain (by decide)

theorem Pass.Gives.covers {bounds : Bounds} (covered : arena.CoveredBy bounds)
    (allocated : arena.Allocated folded) {valueType : Ty}
    (gives : Gives arena folded valueType initializer) : bounds.Covers valueType.handles := by
  cases gives with
  | literal _ => exact covered.typeOf folded
  | construct isConstruct _ =>
    obtain ⟨node, isNode⟩ := Arena.exists_node? allocated
    rw [Arena.shapeAt_of_node? isNode] at isConstruct
    exact (covered isNode).types _ (by simp [isConstruct, Shape.types])
  | list _ _ _ => exact covered.typeOf _

namespace ConstantJob

variable {may : Handle → Prop} {job : ConstantJob} {run judged solved next : Run}
  {root folded : ExprId} {initializer : Initializer}

section

variable (intact : run.Intact) (prepared : Prepared job run root judged)
include intact prepared

theorem Prepared.proceeds : run.Evaluates judged ∧ judged.Intact ∧ judged.arena.Allocated root := by
  obtain ⟨inner, prepares, rfl⟩ := prepared.prepares
  obtain ⟨moves, intactInner, allocated⟩ := prepares.proceeds intact
  refine ⟨moves.trans (.of_entries _ ?_), intactInner.reporting _, allocated root rfl⟩
  exact Pass.plain_of_errors (Arena.requireConst_explained root)

theorem Prepared.solving {outcome : Option ExprId}
    (folds : Pass.FoldsRoot job.scope root job.loc judged (outcome, next)) :
    run.Evaluates next ∧ next.Intact := by
  obtain ⟨moves, intactJudged, allocated⟩ := prepared.proceeds intact
  obtain ⟨solving, intactNext, _⟩ := folds.proceeds intactJudged allocated
  exact ⟨moves.trans solving, intactNext⟩

/-- Every constructor of a prepared expression builds a struct. -/
theorem Prepared.target {inner child : ExprId} {target : Ty}
    (within : judged.arena.Within inner root)
    (found : judged.arena.shape? inner = some (.construct target child)) :
    target.isUnresolved = false := by
  obtain ⟨_, intactJudged, _⟩ := prepared.proceeds intact
  obtain ⟨node, isNode, form⟩ := Arena.shape?_eq_some_iff.mp found
  have checked := intactJudged.acyclic.checkNode_within prepared.checked.2 within isNode
  rw [Arena.checkNode, form] at checked
  dsimp only at checked
  apply decide_eq_false
  intro isOpen
  have noStruct : target.struct? = none := by
    rw [Ty.struct?, isOpen]
  rw [Arena.checkConstructor, noStruct] at checked
  cases checked

theorem Prepared.valueType
    (folds : Pass.FoldsRoot job.scope root job.loc judged (some folded, solved)) {valueType : Ty}
    (suitable : Pass.initializer? solved.arena folded = some (valueType, initializer)) :
    valueType.isUnresolved = false := by
  obtain ⟨_, intactJudged, allocated⟩ := prepared.proceeds intact
  obtain ⟨_, intactSolved, rest⟩ := folds.proceeds intactJudged allocated
  have foldedAllocated : solved.arena.Allocated folded := rest folded rfl
  have meaning := (Pass.FoldsRoot.meaning intactJudged.toReady allocated folds).2
  have admitted : ∀ {id : ExprId} {literal : Literal}, solved.arena.Allocated id →
      solved.arena.literal? id = some literal → (solved.arena.typeOf id).isUnresolved = false :=
    fun held isLiteral => (Pass.typeOf_literal_admits intactSolved.acyclic intactSolved.typed
      (Arena.shape?_of_literal? held isLiteral)).isUnresolved
  cases initializer with
  | value literal =>
    cases Pass.initializer?_gives suitable with
    | literal isLiteral =>
      exact admitted foldedAllocated (by rw [Arena.literal?, isLiteral]; rfl)
  | aggregate literals =>
    rcases Pass.initializer?_aggregate intactSolved.acyclic foldedAllocated suitable with
      ⟨argument, evaluates, _⟩ | ⟨_, first, literal, _, firstAllocated, isLiteral, rfl⟩
    · rw [meaning] at evaluates
      obtain ⟨inner, child, within, found⟩ :=
        intactJudged.acyclic.construct_of_eval allocated evaluates
      exact prepared.target intact within found
    · exact admitted firstAllocated isLiteral
  | _ => cases Pass.initializer?_gives suitable

/-- The type under which a constant is added belongs to the session and is known. -/
theorem Prepared.declaredType
    (folds : Pass.FoldsRoot job.scope root job.loc judged (some folded, solved)) {valueType ty : Ty}
    (suitable : Pass.initializer? solved.arena folded = some (valueType, initializer))
    (declares : Pass.Declares solved.session job.scope job.spec job.loc valueType ty) :
    ty.isUnresolved = false ∧ solved.bounds.Covers ty.handles := by
  obtain ⟨_, intactJudged, allocated⟩ := prepared.proceeds intact
  obtain ⟨_, intactSolved, rest⟩ := folds.proceeds intactJudged allocated
  unfold Pass.Declares at declares
  split at declares
  · subst declares
    exact ⟨prepared.valueType intact folds suitable,
      (Pass.initializer?_gives suitable).covers intactSolved.covered (rest folded rfl)⟩
  · refine ⟨Session.resolveType_resolves declares.1,
      intactSolved.integral.covered.resolveType declares.1 ?_⟩
    rw [Ty.handles_ofName]
    exact List.forall_mem_nil _

end

theorem plain_of_declines (intact : run.Intact) {valueType : Ty} {entries : List Entry}
    (declines : Pass.Declines run.session job.scope job.spec job.loc valueType entries) :
    ∀ entry ∈ entries, entry.Plain := by
  rcases declines with ⟨name, unknown⟩ | ⟨ty, rfl⟩
  · have reported := Session.resolveType_error intact.integral.settled (.error rfl) unknown
    exact fun entry member => .inr (reported.2 entry member)
  · exact List.forall_mem_singleton.mpr (Pass.plain_error _ _)

/-- Folding a constant changes no definition but its module, and keeps runs intact. -/
theorem Folds.proceeds (intact : run.Intact) (held : job.module.index < run.session.modules.size)
    (allowed : may (.module job.module)) (folds : Folds job run next) :
    run.Moves may next ∧ next.Intact := by
  have isReady := (folds.advances intact.toReady).ready
  cases folds with
  | unprepared prepares =>
    obtain ⟨moves, intactNext, _⟩ := prepares.proceeds intact
    exact ⟨moves.of_evaluates, intactNext⟩
  | notConst prepares _ =>
    obtain ⟨moves, intactNext, _⟩ := prepares.proceeds intact
    exact moves.reporting intactNext (Pass.plain_of_errors (Arena.requireConst_explained _))
  | unfolded prepared folds =>
    obtain ⟨moves, intactNext⟩ := prepared.solving intact folds
    exact ⟨moves.of_evaluates, intactNext⟩
  | unsuitable prepared folds _ | refused prepared folds _ _ _ =>
    obtain ⟨moves, intactNext⟩ := prepared.solving intact folds
    exact moves.reporting intactNext (List.forall_mem_singleton.mpr (Pass.plain_error _ _))
  | untyped prepared folds _ chooses =>
    obtain ⟨moves, intactNext⟩ := prepared.solving intact folds
    cases chooses with
    | refused _ declines =>
      exact moves.reporting intactNext (plain_of_declines intactNext declines)
  | @installed root folded judged solved valueType ty initializer name module prepared folds
      suitable declares added =>
      obtain ⟨moves, intactSolved⟩ := prepared.solving intact folds
      obtain ⟨definite, covered⟩ := prepared.declaredType intact folds suitable declares
      have edited : (Edit.addConstant job.module (job.constant ty initializer)).run.run
          solved.session = (.ok name, solved.session.setModule job.module module) := by
        rw [Edit.addConstant, Stopping.run_get_bind, added]
        rfl
      have isConst : (job.constant ty initializer).ty = ty.asConst := rfl
      have coveredConst : solved.bounds.Covers (job.constant ty initializer).ty.handles := by
        rw [isConst, Ty.handles_asConst]
        exact covered
      have evolves : Session.Evolves may solved.arena.size solved.session
          ((Edit.addConstant job.module (job.constant ty initializer)).run.run solved.session).2 :=
        (Edit.editsModule_evolves (Nat.lt_of_lt_of_le held moves.bounds.modules) allowed
          intactSolved.furnished.held).addConstant definite coveredConst solved.session .refl
      have installs : solved.Moves may
          { solved with session := solved.session.setModule job.module module } := by
        apply Run.Moves.of_session
        rw [edited] at evolves
        exact evolves
      exact ⟨moves.of_evaluates.trans installs, intactSolved.moves installs isReady rfl⟩

end ConstantJob

/-! ## Locals -/

def Session.Folded.onto (state : Session.Folded) (run : Run) : Run :=
  { run with
    session := state.session
    arena := state.arena
    log := run.log.recordAll state.entries
    trapped := run.trapped || state.trapped }

theorem Session.Folded.onto_start (run : Run) :
    ({ session := run.session, arena := run.arena } : Session.Folded).onto run = run := by
  simp [onto, Log.recordAll]

theorem Session.Integral.start_held (integral : session.Integral exprs)
    (held : block.index < session.blocks.size) {entry : String × ExprId}
    (member : entry ∈ (session.blockAt block).init) : entry.2.index < exprs := by
  have covered := integral.covered.blocks _ (getD_mem held)
  exact of_decide_eq_true (covered (.expr entry.2) (by
    simp only [Block.handles, List.mem_append, List.mem_cons, List.mem_map]
    exact .inl (.inr ⟨entry, member, rfl⟩)))

theorem Session.Integral.init_held (integral : session.Integral exprs)
    (held : block.index < session.blocks.size) {name : String} {init : ExprId}
    (member : (name, init) ∈ session.initsInOrder block) : init.index < exprs := by
  obtain ⟨slot, _, isInit⟩ := List.mem_filterMap.mp member
  obtain ⟨found, isFound, same⟩ := Option.map_eq_some_iff.mp isInit
  cases same
  exact integral.start_held held (Table.mem_of_lookup isFound)

/-- Setting what a variable starts from keeps runs intact. -/
theorem Run.Intact.setInit {run : Run} (intact : run.Intact) {may : Handle → Prop}
    (held : block.index < run.session.blocks.size) (allowed : may (.block block))
    (allocated : run.arena.Allocated root) (name : String) : let after := { run with
      session := run.session.modifyBlock block fun state => state.setInit name root }
    run.Moves may after ∧ after.Intact := by
  have moves : run.Moves may { run with
      session := run.session.modifyBlock block fun state => state.setInit name root } :=
    .of_session (Relation.ReflTransGen.single (.setInit block name root held allowed allocated))
  have changes : Session.Changes True .registration run.session
      (run.session.modifyBlock block fun state => state.setInit name root) :=
    .single (.setInit block name root)
  have isReady : ({ run with
      session := run.session.modifyBlock block fun state => state.setInit name root } : Run).Ready :=
    ⟨intact.acyclic, intact.typed, changes.rounded intact.rounded, intact.registered.changes changes⟩
  exact ⟨moves, intact.moves moves isReady rfl⟩

namespace Pass

variable {may : Handle → Prop} {run next : Run} {frame : Frame} {spec : Manifest.Variable}
  {block : BlockId} {state : Session.Folded}

/-- Folding what a variable starts from changes its block only, and gives no trap. -/
theorem foldInit_proceeds (intact : (state.onto run).Intact)
    (held : block.index < state.session.blocks.size) (allowed : may (.block block)) {init : ExprId}
    (allocated : state.arena.Allocated init) (name : String) :
    let after := Session.foldInit block state name init
    (state.onto run).Moves may (after.onto run) ∧ (after.onto run).Intact := by
  obtain ⟨follows, rootAllocated⟩ : (state.onto run).Follows
      (Rooted.inlineNames state.session (.block block) ⟨state.arena, init⟩).2.arena ∧ _ :=
    inlineNames_follows intact (.block block) allocated
  have simplified := simplify_folded intact follows rootAllocated
  unfold Session.foldInit
  dsimp only [Session.Folded.onto] at *
  generalize (Rooted.inlineNames state.session (.block block) ⟨state.arena, init⟩).2 = inlined
    at follows rootAllocated simplified ⊢
  split
  · generalize inlined.simplify = outcome at simplified ⊢
    obtain ⟨result, solved⟩ := outcome
    cases result with
    | ok root =>
      have setting := (simplified.follows.intact intact).setInit held allowed
        (simplified.allocated _ rfl) name
      exact ⟨simplified.follows.moves.of_evaluates.trans setting.1, setting.2⟩
    | error stop =>
      cases stop with
      | fault fault =>
        dsimp only
        rw [Log.recordAll_append]
        exact simplified.follows.moves.reporting (simplified.follows.intact intact)
          (List.forall_mem_singleton.mpr (.inr rfl))
      | trap => exact absurd rfl simplified.untrapped
  · exact ⟨follows.moves.of_evaluates, follows.intact intact⟩

theorem foldInits_proceeds {state : Session.Folded} (intact : (state.onto run).Intact)
    (held : block.index < state.session.blocks.size) (allowed : may (.block block))
    (inits : List (String × ExprId))
    (allocated : ∀ init ∈ inits, state.arena.Allocated init.2) :
    let after := inits.foldl (fun state (name, init) => Session.foldInit block state name init) state
    (state.onto run).Moves may (after.onto run) ∧ (after.onto run).Intact := by
  induction inits generalizing state with
  | nil => exact ⟨.refl _, intact⟩
  | cons init inits ih =>
    obtain ⟨isFirst, others⟩ := List.forall_mem_cons.mp allocated
    obtain ⟨moves, intactNext⟩ := foldInit_proceeds intact held allowed isFirst init.1
    have rest := ih intactNext
      (Nat.lt_of_lt_of_le held moves.bounds.blocks) fun later member =>
        Nat.lt_of_lt_of_le (others later member) moves.exprs
    exact ⟨moves.trans rest.1, rest.2⟩

/-- The variables of a block are given what they start from, and this is then folded. -/
theorem foldBlock_run (frame : Frame) (run : Run) :
    let next := ((frame.locals.forM (foldLocal frame)).run run).2
    ((foldBlock frame).run run).2 =
      (next.session.foldBlock next.arena frame.block).onto next := by
  rw [foldBlock, Computation.run_bind]
  rfl

variable (intact : run.Intact) (held : frame.block.index < run.session.blocks.size)
  (allowed : may (.block frame.block))
include intact held allowed

/-- Preparing what a variable starts from changes its block only. -/
theorem Initializes.proceeds (initializes : Initializes frame spec run next) :
    run.Moves may next ∧ next.Intact := by
  cases initializes with
  | absent _ => exact ⟨.refl run, intact⟩
  | unprepared _ prepares =>
    obtain ⟨moves, intactNext, _⟩ := prepares.proceeds intact
    exact ⟨moves.of_evaluates, intactNext⟩
  | unknown _ prepares _ =>
    obtain ⟨moves, intactNext, _⟩ := prepares.proceeds intact
    exact moves.reporting intactNext (List.forall_mem_singleton.mpr (plain_error _ _))
  | initialized _ prepares _ =>
    obtain ⟨moves, intactNext, allocated⟩ := prepares.proceeds intact
    have setting := intactNext.setInit (Nat.lt_of_lt_of_le held moves.bounds.blocks) allowed
      (allocated _ rfl) spec.name
    exact ⟨moves.of_evaluates.trans setting.1, setting.2⟩

theorem foldLocals_proceeds (specs : List Manifest.Variable) :
    run.Moves may ((specs.forM (foldLocal frame)).run run).2 ∧
      ((specs.forM (foldLocal frame)).run run).2.Intact := by
  induction specs generalizing run with
  | nil => exact ⟨.refl run, intact⟩
  | cons spec specs ih =>
    obtain ⟨moves, intactNext⟩ :=
      (foldLocal_initializes frame spec run).proceeds intact held allowed
    have rest := ih intactNext (Nat.lt_of_lt_of_le held moves.bounds.blocks)
    exact ⟨moves.trans rest.1, rest.2⟩

/-- Folding a block changes that block only, and keeps runs intact. -/
theorem foldBlock_proceeds :
    run.Moves may ((foldBlock frame).run run).2 ∧ ((foldBlock frame).run run).2.Intact := by
  obtain ⟨moves, intactNext⟩ := foldLocals_proceeds intact held allowed frame.locals
  rw [foldBlock_run]
  generalize ((frame.locals.forM (foldLocal frame)).run run).2 = next at moves intactNext
  have intactStart := intactNext
  rw [← Session.Folded.onto_start next] at intactStart
  have heldNext := Nat.lt_of_lt_of_le held moves.bounds.blocks
  have folds := foldInits_proceeds intactStart heldNext allowed
    (next.session.initsInOrder frame.block)
    fun init member => intactNext.integral.init_held heldNext member
  rw [Session.Folded.onto_start] at folds
  exact ⟨moves.trans folds.1, folds.2⟩

end Pass

end Assay
