import Assay.Expr.Folding
import Assay.Proofs.Expr.Meaning

/-!
Contract: putting one node into the place of another.
-/

namespace Assay

/-! ## One operand of a form -/

namespace Shape

variable {α β : Type} [DecidableEq α] {old new child : α} {shape replaced : Shape α}

/-- The first operand that is `old` becomes `new`. -/
theorem children_replaceFirst? (isReplaced : shape.replaceFirst? old new = some replaced) :
    ∃ earlier later, old ∉ earlier ∧ shape.children = earlier ++ old :: later ∧
      replaced.children = earlier ++ new :: later := by
  cases shape with
  | literal _ | name _ => simp [replaceFirst?] at isReplaced
  | list elements =>
    simp only [replaceFirst?] at isReplaced
    split at isReplaced
    · next member =>
      cases isReplaced
      obtain ⟨earlier, later, rfl, notEarlier⟩ := List.eq_append_cons_of_mem member
      refine ⟨earlier, later, notEarlier, rfl, ?_⟩
      simp [children, List.replace_append_right notEarlier]
    · cases isReplaced
  | unary _ only | construct _ only | step _ only =>
    simp only [replaceFirst?] at isReplaced
    split at isReplaced
    · next same =>
      cases isReplaced
      exact ⟨[], [], by simp, by simp [children, same], rfl⟩
    · cases isReplaced
  | binary _ left right | index left right =>
    simp only [replaceFirst?] at isReplaced
    split at isReplaced
    · next same =>
      cases isReplaced
      exact ⟨[], [right], by simp, by simp [children, same], rfl⟩
    · next leftOther =>
      split at isReplaced
      · next same =>
        cases isReplaced
        exact ⟨[left], [], by simpa using Ne.symm leftOther, by simp [children, same], rfl⟩
      · cases isReplaced

/-- Operands that are read alike may replace each other. -/
theorem map_replaceFirst? (isReplaced : shape.replaceFirst? old new = some replaced)
    {f : α → β} (same : f new = f old) : replaced.map f = shape.map f := by
  cases shape with
  | literal _ | name _ => simp [replaceFirst?] at isReplaced
  | list elements =>
    obtain ⟨earlier, later, _, before, after⟩ := children_replaceFirst? isReplaced
    simp only [replaceFirst?] at isReplaced
    split at isReplaced
    · cases isReplaced
      simp only [children] at before after
      rw [map, map, after, before]
      simp [same]
    · cases isReplaced
  | unary _ only | construct _ only | step _ only =>
    simp only [replaceFirst?] at isReplaced
    split at isReplaced <;> cases isReplaced
    simp_all [map]
  | binary _ left right | index left right =>
    simp only [replaceFirst?] at isReplaced
    split at isReplaced
    · cases isReplaced
      simp_all [map]
    · split at isReplaced <;> cases isReplaced
      simp_all [map]

theorem exists_replaceFirst? (member : old ∈ shape.children) (new : α) :
    ∃ replaced, shape.replaceFirst? old new = some replaced := by
  cases shape with
  | literal _ | name _ => simp [children] at member
  | list elements => exact ⟨_, if_pos member⟩
  | unary _ only | construct _ only | step _ only =>
    simp only [children, List.mem_singleton] at member
    exact ⟨_, if_pos member.symm⟩
  | binary _ left right | index left right =>
    simp only [children, List.mem_cons, List.not_mem_nil, or_false] at member
    by_cases leftSame : left = old
    · exact ⟨_, if_pos leftSame⟩
    · have rightSame : right = old := by
        rcases member with same | same
        · exact absurd same.symm leftSame
        · exact same.symm
      exact ⟨_, by rw [replaceFirst?, if_neg leftSame, if_pos rightSame]⟩

end Shape

namespace Arena

variable {arena : Arena} {id root target : ExprId} {node : Node}

/-! ## The path to a node -/

/-- The search looks at the operands in order, each one before what lies below it. -/
theorem Acyclic.pathTo?_eq (acyclic : arena.Acyclic) (found : arena.node? root = some node) :
    arena.pathTo? root target = node.shape.children.findSome? fun child =>
      if child = target then some [root] else (arena.pathTo? child target).map (root :: ·) := by
  rw [pathTo?, acyclic.fold_eq _ _ found, Shape.children_map]
  change List.findSome? _ (node.shape.children.zip
    (node.shape.children.map fun child => arena.pathTo? child target)) = _
  induction node.shape.children with
  | nil => rfl
  | cons child rest ih =>
    simp only [List.map_cons, List.zip_cons_cons, List.findSome?_cons, ih]

theorem Acyclic.pathTo?_complete (acyclic : arena.Acyclic) (below : arena.Below target root) :
    ∃ path, arena.pathTo? root target = some path := by
  -- An operand at which the search succeeds lets it succeed at the root.
  have succeeds : ∀ {child root}, arena.Operand child root →
      (child = target ∨ ∃ path, arena.pathTo? child target = some path) →
      ∃ path, arena.pathTo? root target = some path := by
    rintro child root ⟨node, isNode, member⟩ reaches
    rw [acyclic.pathTo?_eq isNode]
    by_contra nothing
    simp only [not_exists, ← Option.eq_none_iff_forall_ne_some] at nothing
    have skipped := List.findSome?_eq_none_iff.mp nothing child member
    rcases reaches with same | ⟨path, found⟩
    · simp [same] at skipped
    · split at skipped <;> simp [found] at skipped
  induction below with
  | single operand => exact succeeds operand (.inl rfl)
  | tail _ operand ih => exact succeeds operand (.inr ih)

/-! ## A splice -/

/-- `after` is `before` with the first operand of `parent` that was `old` changed to `new`. Places
and types of nodes are left open. -/
structure Respliced (before after : Arena) (parent old new : ExprId) : Prop where
  operand : before.Operand old parent
  elsewhere : ∀ {id}, id ≠ parent → after.shape? id = before.shape? id
  there : after.shape? parent = (before.shapeAt parent).replaceFirst? old new

namespace Respliced

variable {before after : Arena} {parent old new child : ExprId}

variable (respliced : Respliced before after parent old new)
include respliced

theorem exists_shapes :
    ∃ shape replaced, before.shape? parent = some shape ∧ after.shape? parent = some replaced ∧
      shape.replaceFirst? old new = some replaced := by
  obtain ⟨shape, found, member⟩ := operand_iff_shape?.mp respliced.operand
  obtain ⟨replaced, isReplaced⟩ := Shape.exists_replaceFirst? member new
  refine ⟨shape, replaced, found, ?_, isReplaced⟩
  rw [respliced.there, shapeAt_of_shape? found, isReplaced]

theorem allocated_iff : after.Allocated id ↔ before.Allocated id := by
  obtain ⟨shape, replaced, found, foundAfter, _⟩ := respliced.exists_shapes
  rw [allocated_iff_shape?, allocated_iff_shape?]
  by_cases same : id = parent
  · simp [same, found, foundAfter]
  · rw [respliced.elsewhere same]

/-- Every operand is an old one, but for the new operand of `parent`. -/
theorem operand_cases {top : ExprId} (operand : after.Operand child top) :
    before.Operand child top ∨ child = new ∧ top = parent := by
  obtain ⟨shape, found, member⟩ := operand_iff_shape?.mp operand
  by_cases same : top = parent
  · obtain ⟨shapeBefore, replaced, foundBefore, foundAfter, isReplaced⟩ :=
      respliced.exists_shapes
    obtain ⟨earlier, later, _, childrenBefore, childrenAfter⟩ :=
      Shape.children_replaceFirst? isReplaced
    rw [same, foundAfter] at found
    cases found
    rw [childrenAfter] at member
    rcases List.mem_append.mp member with inEarlier | rest
    · refine .inl (operand_iff_shape?.mpr ⟨shapeBefore, same ▸ foundBefore, ?_⟩)
      simp [childrenBefore, inEarlier]
    · rcases List.mem_cons.mp rest with isNew | inLater
      · exact .inr ⟨isNew, same⟩
      · refine .inl (operand_iff_shape?.mpr ⟨shapeBefore, same ▸ foundBefore, ?_⟩)
        simp [childrenBefore, inLater]
  · rw [respliced.elsewhere same] at found
    exact .inl (operand_iff_shape?.mpr ⟨shape, found, member⟩)

/-- A node that ranks under its new parent closes no cycle. -/
theorem acyclic (acyclic : before.Acyclic) (allocated : before.Allocated new)
    (lower : before.rank new < before.rank parent) : after.Acyclic := by
  apply Acyclic.of_rank before.rank
  · intro child top operand
    rw [respliced.allocated_iff]
    rcases respliced.operand_cases operand with older | ⟨rfl, _⟩
    · exact acyclic.allocated older
    · exact allocated
  · intro child top operand
    rcases respliced.operand_cases operand with older | ⟨rfl, rfl⟩
    · exact acyclic.rank_lt older
    · exact lower

/-- Splicing in what means the same changes the meaning of no node. -/
theorem eval_eq (acyclic : before.Acyclic) (acyclicAfter : after.Acyclic) {env : Environment}
    (same : before.eval env new = before.eval env old) (allocated : before.Allocated id) :
    after.eval env id = before.eval env id := by
  refine acyclicAfter.induction ?_ id (respliced.allocated_iff.mpr allocated)
  intro id node isNode operands
  have foundAfter := shape?_of_node? isNode
  rw [acyclicAfter.eval_of_shape? foundAfter, Shape.map_congr operands]
  by_cases isParent : id = parent
  · obtain ⟨shape, replaced, found, foundReplaced, isReplaced⟩ := respliced.exists_shapes
    rw [isParent, foundReplaced] at foundAfter
    cases foundAfter
    rw [Shape.map_replaceFirst? isReplaced same, isParent, ← acyclic.eval_of_shape? found]
  · rw [respliced.elsewhere isParent] at foundAfter
    rw [← acyclic.eval_of_shape? foundAfter]

end Respliced

end Arena

namespace Rooted

variable {expr spliced : Rooted} {old new : ExprId}

theorem splice?_eq (different : old ≠ expr.root) :
    expr.splice? old new = (expr.arena.pathTo? expr.root old).bind fun path =>
      path.getLast?.bind fun parent =>
        (expr.arena.replaceOperand? parent old new).map fun replaced =>
          { expr with arena := path.foldl Arena.forgetType replaced } := by
  rw [splice?, if_neg different]
  simp only [Option.bind_eq_bind, Option.pure_def, Option.map_eq_bind, Function.comp_def]

/-- What a splice does: it goes along a path, changes the last node of it, and forgets types. -/
theorem splice?_steps (isSpliced : expr.splice? old new = some spliced) :
    ∃ path parent shape, expr.arena.pathTo? expr.root old = some path ∧
      path.getLast? = some parent ∧
      (expr.arena.shapeAt parent).replaceFirst? old new = some shape ∧
      spliced =
        { expr with arena := path.foldl Arena.forgetType (expr.arena.setShape parent shape) } := by
  by_cases isRoot : old = expr.root
  · simp [splice?, isRoot] at isSpliced
  rw [splice?_eq isRoot] at isSpliced
  obtain ⟨path, foundPath, isSpliced⟩ := Option.bind_eq_some_iff.mp isSpliced
  obtain ⟨parent, isLast, isSpliced⟩ := Option.bind_eq_some_iff.mp isSpliced
  obtain ⟨replaced, isReplaced, rfl⟩ := Option.map_eq_some_iff.mp isSpliced
  obtain ⟨shape, isShape, rfl⟩ := Option.map_eq_some_iff.mp isReplaced
  exact ⟨path, parent, shape, foundPath, isLast, isShape, rfl⟩

end Rooted

end Assay
