import Assay.Proofs.Expr.Exhaustion
import Assay.Proofs.Expr.Inference

/-!
Contract: the types that resolution and later reads remember.
-/

namespace Assay

namespace Arena

variable {arena before middle after : Arena} {id root : ExprId} {node : Node}
variable {session : Session} {scope : ScopeId}

/-! ## Remembering a type -/

namespace Current

theorem of_atom (acyclic : arena.Acyclic) (isNode : arena.node? id = some node)
    (atom : node.shape.isAtom = true) : arena.Current id := by
  refine .of_operands isNode (fun _ => (acyclic.inferType_atom isNode atom).symm) ?_
  rw [Shape.children_atom atom]
  exact fun _ absent => by cases absent

theorem rememberType (current : arena.Current root) (acyclic : arena.Acyclic) (id : ExprId) :
    (arena.rememberType id).Current root := by
  rw [Arena.rememberType]
  split
  · exact current
  · have acyclicAfter : (arena.setType id (arena.typeOf id)).Acyclic :=
      (sameForms_setType arena id _).acyclic acyclic
    by_cases reached : arena.Within id root ∧ arena.Allocated id
    · -- The type that is read here is the derived one already.
      rw [(current.within reached.1).typeOf_eq acyclic reached.2] at acyclicAfter ⊢
      intro other node within isNode known
      have withinBefore := (sameForms_setType arena id _).within_iff.mp within
      rw [node?_setType] at isNode
      split at isNode
      · next same =>
        subst same
        obtain ⟨older, isOlder, rfl⟩ := Option.map_eq_some_iff.mp isNode
        exact (acyclic.inferType_setType id acyclicAfter reached.2).symm
      · rw [acyclic.inferType_setType id acyclicAfter (allocated_of_node? isNode)]
        exact current withinBefore isNode known
    · refine current.untouched (fun other within => ?_) acyclic acyclicAfter
      rw [node?_setType]
      split
      · next same =>
        subst same
        rw [node?_eq_none fun allocated => reached ⟨within, allocated⟩]
        rfl
      · rfl

end Current

theorem node?_rememberType {other : ExprId} (different : id ≠ other) :
    (arena.rememberType id).node? other = arena.node? other := by
  rw [rememberType]
  split
  · rfl
  · rw [node?_setType, if_neg different]

theorem sameForms_rememberType (arena : Arena) (id : ExprId) :
    arena.SameForms (arena.rememberType id) := by
  rw [rememberType]
  split
  · exact .refl arena
  · exact sameForms_setType arena id _

/-! ## Resolution -/

theorem SameForms.children_eq (same : before.SameForms after) (id : ExprId) :
    (after.shapeAt id).children = (before.shapeAt id).children := by
  by_cases allocated : before.Allocated id
  · obtain ⟨shape, found⟩ := allocated_iff_shape?.mp allocated
    obtain ⟨other, foundAfter, form⟩ := same.keeps found
    rw [shapeAt_of_shape? found, shapeAt_of_shape? foundAfter]
    rcases form with rfl | ⟨_, _, _, rfl, rfl⟩ <;> rfl
  · rw [shapeAt, shapeAt, nodeAt, nodeAt, node?_eq_none allocated,
      node?_eq_none (mt same.allocated_iff.mp allocated)]

theorem SameForms.follow?_eq (same : before.SameForms after) (root : ExprId) (path : List Nat) :
    after.follow? root path = before.follow? root path :=
  follow?_congr (fun id _ => same.children_eq id) path

/-- Below each of `tops` every type that is remembered is the derived one, and all that lies below
none of them is as it was. -/
structure Settles (before after : Arena) (tops : List ExprId) : Prop where
  forms : before.SameForms after
  current : ∀ top ∈ tops, after.Current top
  aside : ∀ ⦃id⦄, (∀ top ∈ tops, ¬ before.Within id top) → after.node? id = before.node? id

namespace Settles

theorem refl (acyclic : arena.Acyclic) (untyped : arena.Untyped id) : arena.Settles arena [id] where
  forms := .refl arena
  current := List.forall_mem_singleton.mpr (untyped.current acyclic)
  aside := fun _ _ => rfl

/-- A further change of the node itself. -/
theorem change (settles : before.Settles middle [id]) (forms : middle.SameForms after)
    (elsewhere : ∀ {other}, id ≠ other → after.node? other = middle.node? other)
    (current : after.Current id) : before.Settles after [id] where
  forms := settles.forms.trans forms
  current := List.forall_mem_singleton.mpr current
  aside := by
    intro other outside
    rw [elsewhere, settles.aside outside]
    rintro rfl
    exact outside _ (by simp) .refl

/-- What has been done to the operands of a node, which does not have a type itself. -/
theorem around (settles : before.Settles after node.shape.children) (acyclic : before.Acyclic)
    (isNode : before.node? id = some node) (untyped : before.Untyped id) :
    before.Settles after [id] ∧ after.node? id = some node := by
  have stays : after.node? id = some node := by
    rw [settles.aside, isNode]
    intro child member within
    exact acyclic.irreflexive id (Relation.TransGen.tail' within (operand_of_mem isNode member))
  refine ⟨⟨settles.forms, List.forall_mem_singleton.mpr ?_, fun other outside => ?_⟩, stays⟩
  · refine .of_operands stays (fun known => ?_) settles.current
    rcases untyped .refl isNode with atom | unknown
    · rw [(settles.forms.acyclic acyclic).inferType_atom stays atom]
    · rw [known] at unknown
      cases unknown
  · apply settles.aside
    intro child member within
    exact outside id (by simp) (within.tail (operand_of_mem isNode member))

end Settles

theorem resolveEach_settles {resolve : ExprId → Arena → Resolution}
    (each : ∀ top {arena : Arena}, arena.Acyclic → arena.Tree top → arena.Untyped top →
      arena.Settles (resolve top arena).arena [top])
    {tops : List ExprId} (acyclic : arena.Acyclic) (apart : arena.Apart tops)
    (trees : ∀ top ∈ tops, arena.Tree top ∧ arena.Untyped top) :
    arena.Settles (resolveEach resolve tops arena).arena tops := by
  induction tops generalizing arena with
  | nil => exact ⟨.refl arena, by simp, fun _ _ => rfl⟩
  | cons first rest ih =>
    obtain ⟨apartFirst, apartRest⟩ := List.pairwise_cons.mp apart
    obtain ⟨⟨tree, untyped⟩, others⟩ := List.forall_mem_cons.mp trees
    have settles := each first acyclic tree untyped
    rw [resolveEach]
    generalize (resolve first arena).arena = next at settles
    have acyclicNext := settles.forms.acyclic acyclic
    have untouched : ∀ top ∈ rest, Untouched arena next top := by
      intro top member id within
      apply settles.aside
      exact List.forall_mem_singleton.mpr fun inFirst => apartFirst top member id inFirst within
    have later := ih acyclicNext
      (apartRest.imp fun disjoint id => by simpa only [settles.forms.within_iff] using disjoint id)
      fun top member => ⟨(others top member).1.of_follow?_eq (settles.forms.follow?_eq top),
        (others top member).2.untouched (untouched top member)⟩
    refine ⟨settles.forms.trans later.forms, List.forall_mem_cons.mpr ⟨?_, later.current⟩, ?_⟩
    · -- What is resolved later lies elsewhere.
      refine (settles.current first (by simp)).untouched (fun id within => later.aside ?_)
        acyclicNext (later.forms.acyclic acyclicNext)
      intro top member inTop
      rw [settles.forms.within_iff] at within inTop
      exact apartFirst top member id within inTop
    · intro id outside
      obtain ⟨outsideFirst, outsideRest⟩ := List.forall_mem_cons.mp outside
      rw [later.aside fun top member => by
        rw [settles.forms.within_iff]
        exact outsideRest top member]
      exact settles.aside (List.forall_mem_singleton.mpr outsideFirst)

/-- A name that takes the type of its value. -/
theorem settles_name (acyclic : arena.Acyclic) (untyped : arena.Untyped id)
    (isNode : arena.node? id = some node) (atom : node.shape.isAtom = true) (ty : Ty) :
    arena.Settles (arena.setType id ty) [id] := by
  have forms := sameForms_setType arena id ty
  have isTyped : (arena.setType id ty).node? id = some { node with ty := ty } := by
    rw [node?_setType, if_pos rfl, isNode]
    rfl
  refine (Settles.refl acyclic untyped).change forms (fun different => ?_)
    (.of_atom (forms.acyclic acyclic) isTyped atom)
  rw [node?_setType, if_neg different]

/-- A constructor that takes its target for its type. -/
theorem settles_construct {earlier target : Ty} {child : ExprId}
    (settles : before.Settles middle [child]) (acyclic : before.Acyclic)
    (isNode : before.node? id = some node) (form : node.shape = .construct earlier child)
    (untyped : before.Untyped id) : before.Settles (middle.setTarget id target child) [id] := by
  have operands : before.Settles middle node.shape.children := by
    rw [form]
    exact settles
  obtain ⟨whole, stays⟩ := operands.around acyclic isNode untyped
  have found : middle.shape? id = some (.construct earlier child) :=
    shape?_eq_some_iff.mpr ⟨node, stays, form⟩
  have forms : middle.SameForms (middle.setTarget id target child) := sameForms_setTarget found
  have isTyped : (middle.setTarget id target child).node? id =
      some { node with ty := target, shape := .construct target child } := by
    rw [node?_setTarget, if_pos rfl, stays]
    rfl
  have elsewhere {other : ExprId} (different : id ≠ other) :
      (middle.setTarget id target child).node? other = middle.node? other := by
    rw [node?_setTarget, if_neg different]
  have acyclicMiddle := settles.forms.acyclic acyclic
  have acyclicAfter := forms.acyclic acyclicMiddle
  refine whole.change forms elsewhere (.of_operands isTyped (fun _ => ?_) ?_)
  · exact (acyclicAfter.inferType_construct (shape?_of_node? isTyped)).symm
  · refine List.forall_mem_singleton.mpr ((settles.current child (by simp)).untouched ?_
      acyclicMiddle acyclicAfter)
    intro other within
    apply elsewhere
    rintro rfl
    exact acyclicMiddle.irreflexive id (Relation.TransGen.tail' within
      (operand_of_mem stays (by simp [form, Shape.children])))

/-- Resolving a tree without types remembers derived types only, also where a name is missing. -/
theorem resolveWithin_settles (session : Session) (scope : ScopeId) (depth : Nat) (id : ExprId)
    {arena : Arena} (acyclic : arena.Acyclic) (tree : arena.Tree id) (untyped : arena.Untyped id) :
    arena.Settles (resolveWithin session scope depth id arena).arena [id] := by
  induction depth generalizing id arena with
  | zero => exact .refl acyclic untyped
  | succ depth ih =>
    rw [resolveWithin]
    split
    · exact .refl acyclic untyped
    · next node isNode =>
      have part {child : ExprId} (member : child ∈ node.shape.children) :
          arena.Tree child ∧ arena.Untyped child :=
        have within : arena.Within child id := .single (operand_of_mem isNode member)
        ⟨tree.within within, untyped.within within⟩
      split
      · exact .refl acyclic untyped
      · next name isName =>
        split
        · exact settles_name acyclic untyped isNode (by rw [isName]; rfl) _
        · exact .refl acyclic untyped
      · next target child isConstruct =>
        obtain ⟨childTree, childUntyped⟩ := @part child (by simp [isConstruct, Shape.children])
        have inner := ih child acyclic childTree childUntyped
        have operands : arena.Settles (resolveWithin session scope depth child arena).arena
            node.shape.children := by
          rw [isConstruct]
          exact inner
        obtain ⟨kept, _⟩ := operands.around acyclic isNode untyped
        dsimp only
        split
        · split
          · exact kept
          · exact settles_construct inner acyclic isNode isConstruct untyped
        · exact kept
      · next notLiteral notName notConstruct =>
        have apart := tree.apart_children
        rw [shapeAt_of_node? isNode] at apart
        have operands : arena.Settles _ node.shape.children :=
          resolveEach_settles ih acyclic apart fun _ => part
        obtain ⟨whole, _⟩ := operands.around acyclic isNode untyped
        dsimp only
        split
        · refine whole.change (sameForms_rememberType _ id) node?_rememberType ?_
          exact (whole.current id (by simp)).rememberType (whole.forms.acyclic acyclic) id
        · exact whole

/-! ## What takes the place of a branch -/

/-- A new node without operands may stand anywhere. -/
theorem Grows.supplies {old new : ExprId} (grows : before.Grows after) (acyclic : before.Acyclic)
    (allocated : before.Allocated root) (isNew : ¬ before.Allocated new)
    (found : after.node? new = some node) (atom : node.shape.isAtom = true) :
    Grafted.Supplies after root old new ∧ after.Current new := by
  refine ⟨.inr ⟨fun within => isNew ?_, ?_⟩, .of_atom (grows.acyclic acyclic) found atom⟩
  · have untouched := Untouched.of_kept (fun _ below => below.allocated acyclic allocated) grows.keeps
    rw [untouched.within_iff] at within
    exact within.allocated acyclic allocated
  · rw [shapeAt_of_node? found, Shape.children_atom atom]

end Arena

/-! ## Expressions under change -/

namespace Rooted

variable {expr spliced : Rooted} {session : Session} {scope : ScopeId} {old new : ExprId}

structure UpToDate (expr : Rooted) : Prop where
  acyclic : expr.arena.Acyclic
  allocated : expr.arena.Allocated expr.root
  tree : expr.arena.Tree expr.root
  current : expr.arena.Current expr.root

namespace UpToDate

variable (upToDate : expr.UpToDate)
include upToDate

theorem typeOf_eq {id : ExprId} (within : expr.arena.Within id expr.root) :
    expr.arena.typeOf id = expr.arena.inferType id :=
  (upToDate.current.within within).typeOf_eq upToDate.acyclic
    (within.allocated upToDate.acyclic upToDate.allocated)

theorem rememberType (id : ExprId) :
    UpToDate { expr with arena := expr.arena.rememberType id } := by
  have forms := expr.arena.sameForms_rememberType id
  exact ⟨forms.acyclic upToDate.acyclic, forms.allocated_iff.mpr upToDate.allocated,
    upToDate.tree.of_follow?_eq (forms.follow?_eq expr.root),
    upToDate.current.rememberType upToDate.acyclic id⟩

theorem grown {grown : Arena} (grows : expr.arena.Grows grown) :
    UpToDate { expr with arena := grown } := by
  have untouched := Arena.Untouched.of_kept
    (fun _ within => within.allocated upToDate.acyclic upToDate.allocated) grows.keeps
  have acyclic := grows.acyclic upToDate.acyclic
  exact ⟨acyclic, grows.allocated upToDate.allocated,
    upToDate.tree.of_follow?_eq untouched.follow?_eq,
    upToDate.current.untouched untouched upToDate.acyclic acyclic⟩

/-- A part of the tree may take the place of the whole, and so may a single node. -/
theorem replace (supplies : Arena.Grafted.Supplies expr.arena expr.root expr.root new)
    (allocated : expr.arena.Allocated new) (current : expr.arena.Current new) :
    UpToDate { expr with root := new } :=
  ⟨upToDate.acyclic, allocated, supplies.tree upToDate.tree .refl, current⟩

theorem splice (isSpliced : expr.splice? old new = some spliced)
    (supplies : Arena.Grafted.Supplies expr.arena expr.root old new)
    (allocated : expr.arena.Allocated new) (current : expr.arena.Current new) :
    spliced.UpToDate := by
  obtain ⟨sameRoot, parent, start, slot, respliced, grafted⟩ :=
    splice?_grafted upToDate.acyclic upToDate.allocated upToDate.tree isSpliced
  have lower : expr.arena.rank new < expr.arena.rank parent := by
    have isOld := upToDate.acyclic.rank_lt respliced.operand
    rcases supplies with below | ⟨_, leaf⟩
    · rcases below.below_or_eq with rfl | strictly
      · exact isOld
      · exact (upToDate.acyclic.rank_lt_of_below strictly).trans isOld
    · rw [Arena.rank_eq_zero fun child operand => ?_]
      · omega
      · obtain ⟨place, isChild⟩ := Arena.exists_place.mp operand
        rw [leaf] at isChild
        cases isChild
  have acyclic := respliced.acyclic upToDate.acyclic allocated lower
  refine ⟨acyclic, ?_, ?_, ?_⟩
  · rw [sameRoot]
    exact respliced.allocated_iff.mpr upToDate.allocated
  · rw [sameRoot]
    exact grafted.tree_after upToDate.tree supplies
  · rw [sameRoot]
    exact grafted.current respliced upToDate.tree supplies upToDate.acyclic acyclic
      upToDate.current current

/-- What a branch of the tree is solved to can take its place. -/
theorem solve {branch folded : ExprId} {grown : Arena} (within : expr.arena.Within branch expr.root)
    (solved : expr.arena.solve branch = (.ok folded, grown)) :
    Arena.Grafted.Supplies grown expr.root branch folded ∧ grown.Allocated folded ∧
      grown.Current folded := by
  have isBranch := within.allocated upToDate.acyclic upToDate.allocated
  have outcome := upToDate.acyclic.solve_outcome isBranch
  rw [solved] at outcome
  obtain ⟨grows, stands⟩ := outcome
  refine and_left_comm.mpr ⟨stands.allocated, ?_⟩
  rcases upToDate.acyclic.solve_cases isBranch solved with ⟨isNew, value, literal⟩ | ⟨rfl, rfl⟩
  · obtain ⟨node, isNode, form⟩ := Arena.shape?_eq_some_iff.mp literal
    exact grows.supplies upToDate.acyclic upToDate.allocated isNew isNode (by rw [form]; rfl)
  · have inBranch := (upToDate.acyclic.bare_spec isBranch).1
    exact ⟨.inl inBranch, upToDate.current.within (inBranch.trans within)⟩

theorem simplifyWithin (rounds : Nat) : (simplifyWithin rounds expr).2.UpToDate := by
  induction rounds generalizing expr with
  | zero => exact upToDate
  | succ rounds ih =>
    have grows {branch : ExprId} {result : Except FoldStop ExprId} {grown : Arena}
        (chosen : expr.arena.constBranch? expr.root = some branch)
        (solved : expr.arena.solve branch = (result, grown)) :
        UpToDate { expr with arena := grown } := by
      have within := (upToDate.acyclic.constBranch?_sound upToDate.allocated chosen).1
      have outcome := upToDate.acyclic.solve_outcome
        (within.allocated upToDate.acyclic upToDate.allocated)
      rw [solved] at outcome
      exact upToDate.grown outcome.1
    generalize isOutcome : Rooted.simplifyWithin (rounds + 1) expr = outcome
    have round := isOutcome ▸ simplifyWithin_round rounds expr
    cases round with
    | nothingLeft _ => exact upToDate
    | stops chosen solved => exact grows chosen solved
    | whole chosen solved =>
      obtain ⟨supplies, allocated, current⟩ := upToDate.solve .refl solved
      exact (grows chosen solved).replace supplies allocated current
    | part chosen solved isSpliced _ =>
      have within := (upToDate.acyclic.constBranch?_sound upToDate.allocated chosen).1
      obtain ⟨supplies, allocated, current⟩ := upToDate.solve within solved
      exact ih
        ((grows chosen solved).splice isSpliced supplies allocated current)
    | detached chosen solved _ _ => exact grows chosen solved

theorem inlineName (id : ExprId) (name : String) :
    (inlineName session scope expr id name).2.UpToDate := by
  have grown (value : Literal) (ty : Ty) :
      UpToDate { expr with arena := expr.withLiteral id value ty } :=
    upToDate.grown (expr.grows_withLiteral id value ty)
  have supplied (old : ExprId) (value : Literal) (ty : Ty) :
      Arena.Grafted.Supplies (expr.withLiteral id value ty) expr.root old ⟨expr.arena.size⟩ ∧
        (expr.withLiteral id value ty).Current ⟨expr.arena.size⟩ :=
    (expr.grows_withLiteral id value ty).supplies upToDate.acyclic upToDate.allocated
      (Nat.lt_irrefl _) (expr.literal_withLiteral id value ty) rfl
  have allocated (value : Literal) (ty : Ty) :=
    Arena.allocated_of_node? (expr.literal_withLiteral id value ty)
  generalize isOutcome : Rooted.inlineName session scope expr id name = outcome
  have inlining := isOutcome ▸ inlineName_inlining session scope expr id name
  cases inlining with
  | unknown _ => exact upToDate
  | @root ty value _ _ =>
    obtain ⟨supplies, current⟩ := supplied expr.root value ty
    exact (grown value ty).replace supplies (allocated value ty) current
  | @spliced ty value _ _ isSpliced =>
    obtain ⟨supplies, current⟩ := supplied id value ty
    exact (grown value ty).splice isSpliced supplies (allocated value ty) current
  | @detached ty value _ _ _ => exact grown value ty

theorem inlineNames : (inlineNames session scope expr).2.UpToDate :=
  inlineNames_keeps (fun id name kept => kept.inlineName id name) upToDate

end UpToDate

/-- An expression as it is built: a tree whose literals and names alone have types. -/
structure Fresh (expr : Rooted) : Prop where
  acyclic : expr.arena.Acyclic
  allocated : expr.arena.Allocated expr.root
  tree : expr.arena.Tree expr.root
  untyped : expr.arena.Untyped expr.root

def resolved (expr : Rooted) (session : Session) (scope : ScopeId) : Rooted :=
  { expr with arena := (expr.arena.resolve session scope expr.root).arena }

theorem Fresh.upToDate (fresh : expr.Fresh) : (expr.resolved session scope).UpToDate := by
  have settles := Arena.resolveWithin_settles session scope expr.arena.size expr.root fresh.acyclic
    fresh.tree fresh.untyped
  exact ⟨settles.forms.acyclic fresh.acyclic, settles.forms.allocated_iff.mpr fresh.allocated,
    fresh.tree.of_follow?_eq (settles.forms.follow?_eq expr.root), 
    settles.current _ (List.mem_singleton.mpr rfl)⟩

/-- What can be done with an expression that has been resolved. -/
inductive Act where
  | readType (id : ExprId)
  | check
  | inline
  | simplify

def act (session : Session) (scope : ScopeId) (expr : Rooted) : Act → Rooted
  | .readType id => { expr with arena := expr.arena.rememberType id }
  | .check => expr
  | .inline => (inlineNames session scope expr).2
  | .simplify => expr.simplify.2

theorem UpToDate.act (upToDate : expr.UpToDate) (act : Act) :
    (expr.act session scope act).UpToDate := by
  cases act with
  | readType id => exact upToDate.rememberType id
  | check => exact upToDate
  | inline => exact upToDate.inlineNames
  | simplify => exact upToDate.simplifyWithin _

theorem UpToDate.acts (upToDate : expr.UpToDate) (acts : List Act) :
    (acts.foldl (Rooted.act session scope) expr).UpToDate := by
  induction acts generalizing expr with
  | nil => exact upToDate
  | cons first rest ih => exact ih (upToDate.act first)

end Rooted

end Assay
