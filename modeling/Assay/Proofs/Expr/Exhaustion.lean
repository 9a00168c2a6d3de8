import Assay.Proofs.Expr.Rounds

/-!
Contract: what is left when folding ends.
-/

namespace Assay

/-! ## Wrapped operands -/

namespace Shape

variable {α β : Type} {shape : Shape α}

/-- What a group, a reference or a step stands around. -/
def wrapped? : Shape α → Option α
  | .unary _ child | .step _ child => some child
  | _ => none

def gathers : Shape α → Bool
  | .list _ | .construct _ _ => true
  | _ => false

theorem wrapped?_map (f : α → β) (shape : Shape α) :
    (shape.map f).wrapped? = shape.wrapped?.map f := by
  cases shape <;> rfl

theorem children_of_wrapped? {child : α} (wraps : shape.wrapped? = some child) :
    shape.children = [child] := by
  cases shape <;> cases wraps <;> rfl

theorem isOperator_of_wrapped? (wraps : shape.wrapped? ≠ none) : shape.isOperator = true := by
  cases shape <;> first | rfl | exact absurd rfl wraps

theorem not_isOperator_of_gathers (gathers : shape.gathers = true) : shape.isOperator = false := by
  cases shape <;> first | rfl | cases gathers

theorem wrapped?_replaceFirst? [DecidableEq α] {old new : α} {replaced : Shape α}
    (isReplaced : shape.replaceFirst? old new = some replaced) (bare : shape.wrapped? = none) :
    replaced.wrapped? = none ∧ replaced.gathers = shape.gathers := by
  cases shape <;> simp only [replaceFirst?] at isReplaced <;> (repeat' split at isReplaced) <;>
    cases isReplaced <;> first | exact ⟨rfl, rfl⟩ | cases bare

end Shape

namespace Arena

variable {arena before after grown : Arena} {id root child folded : ExprId} {shape : Shape ExprId}

/-- What is left of a node without the groups, references and steps around it. -/
def bare (arena : Arena) : ExprId → ExprId :=
  arena.fold ⟨0⟩ fun id _ operands => operands.wrapped?.getD id

section

variable (acyclic : arena.Acyclic) (found : arena.shape? id = some shape)
include acyclic found

theorem Acyclic.bare_eq : arena.bare id = (shape.wrapped?.map arena.bare).getD id := by
  obtain ⟨node, isNode, rfl⟩ := shape?_eq_some_iff.mp found
  rw [bare, acyclic.fold_eq _ _ isNode, Shape.wrapped?_map]

theorem Acyclic.bare_wrapped (wraps : shape.wrapped? = some child) :
    arena.bare id = arena.bare child := by
  rw [acyclic.bare_eq found, wraps]
  rfl

theorem Acyclic.bare_self (bare : shape.wrapped? = none) : arena.bare id = id := by
  rw [acyclic.bare_eq found, bare]
  rfl

end

/-- Induction from the operand that is wrapped to what wraps it. -/
@[elab_as_elim]
theorem Acyclic.bare_induction (acyclic : arena.Acyclic) {motive : ExprId → Prop}
    (innermost : ∀ id shape, arena.shape? id = some shape → shape.wrapped? = none → motive id)
    (around : ∀ id shape child, arena.shape? id = some shape → shape.wrapped? = some child →
      motive child → motive id)
    (id : ExprId) (allocated : arena.Allocated id) : motive id := by
  refine acyclic.induction ?_ id allocated
  intro id node isNode operands
  have found := shape?_of_node? isNode
  cases wraps : node.shape.wrapped? with
  | none => exact innermost id node.shape found wraps
  | some child =>
    refine around id node.shape child found wraps (operands child ?_)
    simp [Shape.children_of_wrapped? wraps]

theorem operand_of_wrapped? (found : arena.shape? id = some shape)
    (wraps : shape.wrapped? = some child) : arena.Operand child id :=
  operand_iff_shape?.mpr ⟨shape, found, by simp [Shape.children_of_wrapped? wraps]⟩

/-- Nothing is wrapped in what is left, and it lies within. -/
theorem Acyclic.bare_spec (acyclic : arena.Acyclic) (allocated : arena.Allocated id) :
    arena.Within (arena.bare id) id ∧
      ∃ shape, arena.shape? (arena.bare id) = some shape ∧ shape.wrapped? = none := by
  refine acyclic.bare_induction ?_ ?_ id allocated
  · intro id shape found bare
    rw [acyclic.bare_self found bare]
    exact ⟨.refl, shape, found, bare⟩
  · intro id shape child found wraps ih
    obtain ⟨within, innermost⟩ := ih
    rw [acyclic.bare_wrapped found wraps]
    exact ⟨within.tail (operand_of_wrapped? found wraps), innermost⟩

theorem Acyclic.isConst_wrapped (acyclic : arena.Acyclic) (found : arena.shape? id = some shape)
    (wraps : shape.wrapped? = some child) : arena.isConst id = arena.isConst child := by
  obtain ⟨node, isNode, rfl⟩ := shape?_eq_some_iff.mp found
  have unfolded : arena.isConst id = arena.constStep node (node.shape.map arena.isConst) :=
    acyclic.fold_eq _ _ isNode
  rw [unfolded]
  cases form : node.shape with
  | unary _ _ | step _ _ =>
    rw [form] at wraps
    cases wraps
    rfl
  | _ =>
    rw [form] at wraps
    cases wraps

theorem Acyclic.isConst_index (acyclic : arena.Acyclic) {source subscript : ExprId}
    (found : arena.shape? id = some (.index source subscript)) : arena.isConst id = false := by
  obtain ⟨node, isNode, form⟩ := shape?_eq_some_iff.mp found
  rw [isConst, acyclic.fold_eq _ _ isNode, form]
  rfl

/-- What is wrapped is as constant as what wraps it. -/
theorem Acyclic.isConst_bare (acyclic : arena.Acyclic) (allocated : arena.Allocated id) :
    arena.isConst (arena.bare id) = arena.isConst id := by
  refine acyclic.bare_induction ?_ ?_ id allocated
  · intro id shape found bare
    rw [acyclic.bare_self found bare]
  · intro id shape child found wraps ih
    rw [acyclic.bare_wrapped found wraps, ih, acyclic.isConst_wrapped found wraps]

/-! ## Solving what is wrapped -/

theorem solveWithin_wrapped (depth : Nat) (found : arena.shape? id = some shape)
    (wraps : shape.wrapped? = some child) :
    (solveWithin (depth + 1) id).run.run arena = (solveWithin depth child).run.run arena := by
  have shapeAt := shapeAt_of_shape? found
  cases shape with
  | unary op operand =>
    cases wraps
    exact solveWithin_unary depth shapeAt
  | step op operand =>
    cases wraps
    exact solveWithin_step depth shapeAt
  | _ => cases wraps

/-- An operator with two operands gives a new literal. -/
theorem literal_of_solveWithin_binary {depth : Nat} {op : BinOp} {left right : ExprId}
    (form : arena.shapeAt id = .binary op left right)
    (solved : (solveWithin (depth + 1) id).run.run arena = (.ok folded, grown)) :
    ¬ arena.Allocated folded ∧ ∃ value, grown.shape? folded = some (.literal value) := by
  rw [solveWithin_binary depth form] at solved
  split at solved
  · cases solved
  · next isLeft =>
    have atLeft := size_le_solveWithin depth left arena
    rw [isLeft] at atLeft
    split at solved
    · cases solved
    · next afterLeft _ _ _ isRight =>
      have atRight := size_le_solveWithin depth right afterLeft
      rw [isRight] at atRight
      split at solved
      · split at solved
        · cases solved
          refine ⟨Nat.not_lt.mpr (Nat.le_trans atLeft atRight), _,
            shape?_of_node? (node?_addLiteral _ _ _)⟩
        · cases solved
      · cases solved

section

variable (acyclic : arena.Acyclic) (allocated : arena.Allocated id)
include acyclic allocated

/-- To solve a node is to solve what is left without anything around it. -/
theorem Acyclic.solve_bare :
    ∃ depth, arena.solve id = (solveWithin (depth + 1) (arena.bare id)).run.run arena := by
  have atDepth : ∀ depth, arena.rank id < depth → ∃ rest,
      (solveWithin depth id).run.run arena =
        (solveWithin (rest + 1) (arena.bare id)).run.run arena := by
    refine acyclic.bare_induction ?_ ?_ id allocated
    · intro id shape found bare depth room
      refine ⟨depth - 1, ?_⟩
      rw [acyclic.bare_self found bare, Nat.sub_add_cancel (by omega)]
    · intro id shape child found wraps ih depth room
      obtain ⟨depth, rfl⟩ : ∃ less, depth = less + 1 := ⟨depth - 1, by omega⟩
      have lower := acyclic.rank_lt (operand_of_wrapped? found wraps)
      rw [solveWithin_wrapped depth found wraps, acyclic.bare_wrapped found wraps]
      exact ih depth (by omega)
  exact atDepth arena.size (acyclic.rank_lt_size allocated)

/-- Solving gives a new literal, or what is left without anything around it. -/
theorem Acyclic.solve_cases (solved : arena.solve id = (.ok folded, grown)) :
    (¬ arena.Allocated folded ∧ ∃ value, grown.shape? folded = some (.literal value)) ∨
      folded = arena.bare id ∧ grown = arena := by
  obtain ⟨depth, same⟩ := acyclic.solve_bare allocated
  obtain ⟨_, shape, found, bare⟩ := acyclic.bare_spec allocated
  have shapeAt := shapeAt_of_shape? found
  rw [same] at solved
  cases shape with
  | binary op left right => exact .inl (literal_of_solveWithin_binary shapeAt solved)
  | unary _ _ | step _ _ => cases bare
  | _ =>
    rw [solveWithin_leaf depth (by rw [shapeAt]; rfl)] at solved
    cases solved
    exact .inr ⟨rfl, rfl⟩

/-- A list or constructor stands for itself, whatever is around it. -/
theorem Acyclic.solve_gathers (gathers : (arena.shapeAt (arena.bare id)).gathers = true) :
    arena.solve id = (.ok (arena.bare id), arena) := by
  obtain ⟨depth, same⟩ := acyclic.solve_bare allocated
  rw [same]
  exact solveWithin_leaf depth (Shape.not_isOperator_of_gathers gathers)

end

/-! ## Nothing left -/

theorem foldl_deeper_eq_none_iff {branches : List (Option (Nat × ExprId))}
    {best : Option (Nat × ExprId)} :
    branches.foldl deeper best = none ↔ best = none ∧ ∀ found ∈ branches, found = none := by
  induction branches generalizing best with
  | nil => simp
  | cons found branches ih =>
    have first : deeper best found = none ↔ best = none ∧ found = none := by
      rcases best with _ | ⟨bestDepth, earlier⟩
      · simp [deeper]
      · rcases found with _ | ⟨depth, later⟩
        · simp [deeper]
        · simp only [deeper]
          split <;> simp
    simp [ih, first, and_assoc]

theorem Acyclic.constBranch?_eq_none (acyclic : arena.Acyclic)
    (found : arena.shape? id = some shape) :
    arena.constBranch? id = none ↔
      ¬ (shape.isOperator = true ∧ arena.isConst id = true) ∧
        ∀ child ∈ shape.children, arena.constBranch? child = none := by
  obtain ⟨node, isNode, rfl⟩ := shape?_eq_some_iff.mp found
  simp only [constBranch?, Option.map_eq_none_iff]
  rw [acyclic.fold_eq _ _ isNode, branchStep, Shape.children_map, ← Bool.and_eq_true]
  by_cases isBranch : (node.shape.isOperator && arena.isConst id) = true
  · simp [isBranch]
  · rw [if_neg isBranch, foldl_deeper_eq_none_iff]
    simp [isBranch]

/-- The search comes back with nothing exactly if no constant operator lies within. -/
theorem Acyclic.constBranch?_eq_none_iff (acyclic : arena.Acyclic)
    (allocated : arena.Allocated root) :
    arena.constBranch? root = none ↔
      ∀ inner, arena.Within inner root → (arena.shapeAt inner).isOperator = true →
        arena.isConst inner = false := by
  constructor
  · intro nothing inner within operator
    induction within with
    | refl =>
      have found := shape?_of_allocated allocated
      have notBranch := ((acyclic.constBranch?_eq_none found).mp nothing).1
      simpa [operator] using notBranch
    | tail _ operand ih =>
      obtain ⟨shape, found, member⟩ := operand_iff_shape?.mp operand
      exact ih (acyclic.allocated operand)
        (((acyclic.constBranch?_eq_none found).mp nothing).2 _ member)
  · intro none
    apply Option.eq_none_iff_forall_ne_some.mpr
    intro branch chosen
    obtain ⟨within, operator, isConst⟩ := acyclic.constBranch?_sound allocated chosen
    rw [none branch within operator] at isConst
    cases isConst

/-- A form without operands is no branch and holds none. -/
theorem Acyclic.constBranch?_leaf (acyclic : arena.Acyclic) (found : arena.shape? id = some shape)
    (leaf : shape.children = []) : arena.constBranch? id = none := by
  rw [acyclic.constBranch?_eq_none found, leaf]
  refine ⟨fun isBranch => ?_, by simp⟩
  cases shape <;> cases leaf <;> cases isBranch.1

/-! ## What is wrapped after a splice -/

/-- Let every group, reference and step have the mark of what it is around. A splice in the place of
a marked node leaves what is wrapped in unmarked ones where it is. -/
theorem Respliced.bare_eq {parent old new : ExprId}
    (respliced : Respliced before after parent old new) (acyclic : before.Acyclic)
    (acyclicAfter : after.Acyclic) {mark : ExprId → Bool} (isOld : mark old = true)
    (wrapped : ∀ {id shape child}, before.shape? id = some shape → shape.wrapped? = some child →
      mark id = mark child)
    (allocated : before.Allocated id)
    (unmarked : ∀ shape, before.shape? id = some shape → shape.wrapped? ≠ none →
      mark id = false) :
    after.bare id = before.bare id ∧
      (after.shapeAt (before.bare id)).gathers = (before.shapeAt (before.bare id)).gathers := by
  revert unmarked
  refine acyclic.bare_induction ?_ ?_ id allocated
  · intro id shape found bare _
    rw [acyclic.bare_self found bare, shapeAt_of_shape? found]
    by_cases isParent : id = parent
    · obtain ⟨other, replaced, foundParent, foundAfter, isReplaced⟩ := respliced.exists_shapes
      rw [← isParent] at foundParent foundAfter
      rw [found] at foundParent
      cases foundParent
      obtain ⟨bareAfter, gathersAfter⟩ := Shape.wrapped?_replaceFirst? isReplaced bare
      rw [acyclicAfter.bare_self foundAfter bareAfter, shapeAt_of_shape? foundAfter]
      exact ⟨rfl, gathersAfter⟩
    · have foundAfter := found
      rw [← respliced.elsewhere isParent] at foundAfter
      rw [acyclicAfter.bare_self foundAfter bare, shapeAt_of_shape? foundAfter]
      exact ⟨rfl, rfl⟩
  · intro id shape child found wraps ih unmarked
    have unmarkedId := unmarked shape found (by simp [wraps])
    have unmarkedChild := wrapped found wraps
    rw [unmarkedId] at unmarkedChild
    -- The replaced node is marked, so it is not the one that is wrapped here.
    have notParent : id ≠ parent := by
      rintro rfl
      obtain ⟨other, foundOther, member⟩ := operand_iff_shape?.mp respliced.operand
      rw [found] at foundOther
      cases foundOther
      rw [Shape.children_of_wrapped? wraps, List.mem_singleton] at member
      rw [← member, isOld] at unmarkedChild
      cases unmarkedChild
    have foundAfter := found
    rw [← respliced.elsewhere notParent] at foundAfter
    rw [acyclicAfter.bare_wrapped foundAfter wraps, acyclic.bare_wrapped found wraps]
    exact ih fun _ _ _ => unmarkedChild.symm

/-- What wraps another node did so before, and is as constant as it was. -/
theorem Grows.isConst_wrapped (grows : before.Grows after) (acyclic : before.Acyclic)
    (found : after.shape? id = some shape) (wraps : shape.wrapped? = some child) :
    before.isConst id = before.isConst child := by
  have operand := grows.operand_iff.mp (operand_of_wrapped? found wraps)
  obtain ⟨other, foundBefore, _⟩ := operand_iff_shape?.mp operand
  rw [grows.extension.shape?_eq foundBefore] at found
  cases found
  exact acyclic.isConst_wrapped foundBefore wraps

theorem Grows.bare_eq (grows : before.Grows after) (acyclic : before.Acyclic)
    (allocated : before.Allocated id) : after.bare id = before.bare id :=
  grows.fold_eq acyclic _ _ allocated

end Arena

namespace Rooted

variable {expr next : Rooted} {branch folded : ExprId} {grown : Arena} {rounds : Nat}
  {outcome : Except FoldStop ExprId × Rooted}

/-! ## Where a branch is left -/

/-- The whole expression is folded next, and all that comes of it is a list or a constructor in
which a branch is left. -/
structure Unfinished (expr : Rooted) : Prop where
  whole : expr.arena.constBranch? expr.root = some expr.root
  gathers : (expr.arena.shapeAt (expr.arena.bare expr.root)).gathers = true
  left : expr.arena.constBranch? (expr.arena.bare expr.root) ≠ none

theorem Unfinished.folds (unfinished : expr.Unfinished) (sound : expr.Sound) :
    expr.Folds expr.root (.ok (expr.arena.bare expr.root)) expr.arena :=
  ⟨unfinished.whole, sound.acyclic.solve_gathers sound.allocated unfinished.gathers⟩

/-- A root that is folded leaves a branch only if it is unfinished. -/
theorem Folds.unfinished (folds : expr.Folds expr.root (.ok folded) grown) (sound : expr.Sound)
    (left : grown.constBranch? folded ≠ none) : expr.Unfinished := by
  obtain ⟨_, _, grows, stands⟩ := folds.grows sound
  have acyclicAfter := grows.acyclic sound.acyclic
  rcases sound.acyclic.solve_cases sound.allocated folds.solved with
    ⟨_, value, literal⟩ | ⟨rfl, rfl⟩
  · exact absurd (acyclicAfter.constBranch?_leaf literal rfl) left
  · refine ⟨folds.chosen, ?_, left⟩
    have isConst := sound.acyclic.isConst_bare sound.allocated
    rw [(sound.acyclic.constBranch?_sound sound.allocated folds.chosen).2.2] at isConst
    obtain ⟨_, shape, found, bare⟩ := sound.acyclic.bare_spec sound.allocated
    rw [Arena.shapeAt_of_shape? found]
    cases shape with
    | literal _ | name _ => exact absurd (acyclicAfter.constBranch?_leaf found rfl) left
    | list _ | construct _ _ => rfl
    | unary _ _ | step _ _ => cases bare
    | binary _ _ _ =>
      have settled := stands.settled
      rw [Arena.shapeAt_of_shape? found] at settled
      cases settled
    | index _ _ =>
      rw [sound.acyclic.isConst_index found] at isConst
      cases isConst

/-- A round between others leaves what is wrapped in the root where it is. -/
theorem Advances.bare_eq (advances : expr.Advances next) (sound : expr.Sound) :
    next.arena.bare next.root = expr.arena.bare expr.root ∧
      (next.arena.shapeAt (expr.arena.bare expr.root)).gathers =
        (expr.arena.shapeAt (expr.arena.bare expr.root)).gathers := by
  obtain ⟨soundNext, sameRoot, _⟩ := advances.step sound
  obtain @⟨branch, folded, grown, folds, notRoot, exchanged⟩ := advances
  obtain ⟨_, _, grows, _⟩ := folds.grows sound
  have isConst := (sound.acyclic.constBranch?_sound sound.allocated folds.chosen).2.2
  have acyclic := grows.acyclic sound.acyclic
  have allocated := grows.allocated sound.allocated
  obtain ⟨_, parent, _, respliced⟩ :=
    splice?_eq_some acyclic allocated (exchange?_eq_some_iff.mp exchanged).2
  -- A constant root with something wrapped in it would have been chosen itself.
  have notConst : ∀ shape, grown.shape? expr.root = some shape → shape.wrapped? ≠ none →
      expr.arena.isConst expr.root = false := by
    intro shape found wraps
    by_contra isConstRoot
    have foundBefore := Arena.shape?_of_allocated sound.allocated
    rw [grows.extension.shape?_eq foundBefore] at found
    cases found
    have chosen := folds.chosen
    rw [sound.acyclic.constBranch?_eq_root foundBefore (Shape.isOperator_of_wrapped? wraps)
      (Bool.eq_true_of_not_eq_false isConstRoot)] at chosen
    exact notRoot (Option.some.inj chosen).symm
  obtain ⟨same, gathers⟩ := respliced.bare_eq acyclic soundNext.acyclic isConst
    (fun found wraps => grows.isConst_wrapped sound.acyclic found wraps) allocated notConst
  have bareAllocated := (sound.acyclic.bare_spec sound.allocated).1.allocated sound.acyclic
    sound.allocated
  rw [grows.bare_eq sound.acyclic sound.allocated] at same gathers
  rw [grows.shapeAt_eq bareAllocated] at gathers
  rw [sameRoot]
  exact ⟨same, gathers⟩

/-! ## All rounds -/

theorem bare_run (sound : expr.Sound) (run : Relation.ReflTransGen Advances expr next) :
    next.root = expr.root ∧ next.arena.bare next.root = expr.arena.bare expr.root ∧
      (next.arena.shapeAt (next.arena.bare next.root)).gathers =
        (expr.arena.shapeAt (expr.arena.bare expr.root)).gathers := by
  induction run with
  | refl => exact ⟨rfl, rfl, rfl⟩
  | tail run advances ih =>
    obtain ⟨sameRoot, sameBare, sameGathers⟩ := ih
    have soundStage := sound.run run
    obtain ⟨bareNext, gathersNext⟩ := advances.bare_eq soundStage
    refine ⟨(advances.step soundStage).2.1.trans sameRoot, bareNext.trans sameBare, ?_⟩
    rw [bareNext, gathersNext, sameGathers]

/-- A loop that ends well leaves a branch only if it came to an unfinished stage. -/
theorem Loops.exists_unfinished (loops : Loops rounds expr outcome) (sound : expr.Sound)
    (isOk : outcome.1 = .ok folded) (left : outcome.2.arena.constBranch? folded ≠ none) :
    ∃ stage, Relation.ReflTransGen Advances expr stage ∧ stage.Unfinished := by
  induction loops with
  | nothingLeft chosen =>
    cases isOk
    exact absurd chosen left
  | stops folds => cases isOk
  | whole folds =>
    cases isOk
    exact ⟨_, .refl, folds.unfinished sound left⟩
  | refused folds notRoot refused =>
    obtain ⟨next, isSpliced⟩ := folds.exists_splice sound notRoot
    rw [exchange?, if_neg (folds.moved sound), isSpliced] at refused
    cases refused
  | onward advances _ ih =>
    obtain ⟨stage, run, unfinished⟩ :=
      ih (advances.step sound).1 isOk left
    exact ⟨stage, .head advances run, unfinished⟩

/-- Rounds that came to a stage lead on to whatever the loop makes of it. -/
theorem Loops.of_run (run : Relation.ReflTransGen Advances expr next)
    (loops : Loops rounds next outcome) : ∃ taken, Loops taken expr outcome := by
  induction run using Relation.ReflTransGen.head_induction_on with
  | refl => exact ⟨rounds, loops⟩
  | head advances _ ih =>
    obtain ⟨taken, rest⟩ := ih
    exact ⟨taken + 1, .onward advances rest⟩

/-- Folding that ends well leaves no branch exactly if no stage of it is unfinished. -/
theorem Sound.exhausts_iff (sound : expr.Sound) (isOk : expr.simplify.1 = .ok folded) :
    expr.simplify.2.arena.constBranch? folded = none ↔
      ∀ stage, Relation.ReflTransGen Advances expr stage → ¬ stage.Unfinished := by
  constructor
  · intro nothing stage run unfinished
    obtain ⟨taken, loops⟩ := Loops.of_run run (.whole (unfinished.folds (sound.run run)))
    rw [sound.simplify_eq loops] at nothing isOk
    cases isOk
    exact unfinished.left nothing
  · intro finished
    by_contra left
    obtain ⟨taken, _, loops⟩ := sound.loops le_rfl
    obtain ⟨stage, run, unfinished⟩ := loops.exists_unfinished sound isOk left
    exact finished stage run unfinished

/-- An expression that is not wrapped around a list or a constructor at first never is. -/
theorem Sound.not_unfinished (sound : expr.Sound)
    (plain : expr.arena.bare expr.root = expr.root ∨
      (expr.arena.shapeAt (expr.arena.bare expr.root)).gathers = false)
    (run : Relation.ReflTransGen Advances expr next) : ¬ next.Unfinished := by
  intro unfinished
  have soundNext := sound.run run
  have gathers := unfinished.gathers
  obtain ⟨sameRoot, sameBare, sameGathers⟩ := bare_run sound run
  rcases plain with isBare | gathersNot
  · rw [sameBare, isBare, ← sameRoot] at gathers
    have operator := (soundNext.acyclic.constBranch?_sound soundNext.allocated unfinished.whole).2.1
    rw [Shape.not_isOperator_of_gathers gathers] at operator
    cases operator
  · rw [gathers, gathersNot] at sameGathers
    cases sameGathers

/-- Folding an expression without a cycle, of any sharing. It leaves no constant operator behind
exactly if no stage of it is unfinished: if it never folds the root as a whole while that is a
group, a reference or a step around a list or a constructor in which such an operator is left. An
expression that is not of this form at first never becomes so. -/
theorem simplify_exhausts_iff (acyclic : expr.arena.Acyclic)
    (allocated : expr.arena.Allocated expr.root) (isOk : expr.simplify.1 = .ok folded) :
    (expr.simplify.2.arena.constBranch? folded = none ↔
      ∀ inner, expr.simplify.2.arena.Within inner folded →
        (expr.simplify.2.arena.shapeAt inner).isOperator = true →
        expr.simplify.2.arena.isConst inner = false) ∧
    (expr.simplify.2.arena.constBranch? folded = none ↔
      ∀ stage, Relation.ReflTransGen Advances expr stage → ¬ stage.Unfinished) ∧
    (expr.arena.bare expr.root = expr.root ∨
        (expr.arena.shapeAt (expr.arena.bare expr.root)).gathers = false →
      expr.simplify.2.arena.constBranch? folded = none) := by
  have sound : expr.Sound := ⟨acyclic, allocated⟩
  have kept : KeepsMeaning .empty expr expr.simplify :=
    simplifyWithin_keepsMeaning _ acyclic allocated
  refine ⟨?_, sound.exhausts_iff isOk, fun plain => ?_⟩
  · exact kept.arena.acyclic.constBranch?_eq_none_iff (kept.result isOk).1
  · apply (sound.exhausts_iff isOk).mpr
    intro stage run
    exact sound.not_unfinished plain run

def groupedSum : Rooted :=
  let node (shape : Shape ExprId) : Node := ⟨.builtin, .null, shape⟩
  ⟨⟨#[node (.literal (.int 1)), node (.literal (.int 2)), node (.binary .add ⟨0⟩ ⟨1⟩),
    node (.list [⟨2⟩]), node (.unary .group ⟨3⟩)]⟩, ⟨4⟩⟩

/-- Folding takes the group away, and the sum in it stays. -/
theorem simplify_leaves_groupedSum :
    groupedSum.arena.Acyclic ∧ groupedSum.arena.Allocated groupedSum.root ∧
    groupedSum.simplify.1 = .ok ⟨3⟩ ∧
    groupedSum.simplify.2.arena.constBranch? ⟨3⟩ = some ⟨2⟩ :=
  ⟨.of_ordered (by decide), by decide, rfl, rfl⟩

/-- Without the group there is nothing that stays; with it, a stage is unfinished. -/
theorem simplify_exhausts_listedSum :
    (Rooted.mk groupedSum.arena ⟨3⟩).simplify.1 = .ok ⟨3⟩ ∧
    (Rooted.mk groupedSum.arena ⟨3⟩).simplify.2.arena.constBranch? ⟨3⟩ = none ∧
    ∃ stage, Relation.ReflTransGen Advances groupedSum stage ∧ stage.Unfinished := by
  have acyclic : groupedSum.arena.Acyclic := .of_ordered (by decide)
  have listed : groupedSum.arena.Allocated ⟨3⟩ := by decide
  have grouped : groupedSum.arena.Allocated groupedSum.root := by decide
  have isOk : (Rooted.mk groupedSum.arena ⟨3⟩).simplify.1 = .ok ⟨3⟩ := rfl
  obtain ⟨_, _, exhausts⟩ := @simplify_exhausts_iff ⟨groupedSum.arena, ⟨3⟩⟩ _ acyclic listed isOk
  obtain ⟨_, leaves, _⟩ := @simplify_exhausts_iff groupedSum ⟨3⟩ acyclic grouped rfl
  refine ⟨isOk, exhausts (.inl rfl), ?_⟩
  by_contra finished
  have nothing := leaves.mpr fun stage run unfinished => finished ⟨stage, run, unfinished⟩
  cases nothing

end Rooted

end Assay
