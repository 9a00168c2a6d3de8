import Assay.Proofs.Expr.Preservation
import Mathlib.Algebra.GroupWithZero.Nat
import Mathlib.Algebra.Order.BigOperators.Group.List
import Mathlib.Algebra.Order.Group.Nat

/-!
Contract: counts over an expression, and what a splice does to them.
-/

namespace Assay

/-- Replacing an operand leaves an operator an operator. -/
theorem Shape.isOperator_replaceFirst? {shape replaced : Shape ExprId} {old new : ExprId}
    (isReplaced : shape.replaceFirst? old new = some replaced) :
    replaced.isOperator = shape.isOperator := by
  cases shape <;> simp only [replaceFirst?] at isReplaced <;> (repeat' split at isReplaced) <;>
    cases isReplaced <;> rfl

namespace Arena

variable {arena before after : Arena} {id root : ExprId} {own : ExprId → Nat} {shape : Shape ExprId}

/-! ## Tallies -/

/-- The sum of `own` over an expression, a shared node counting once for each path to it. -/
def tally (arena : Arena) (own : ExprId → Nat) : ExprId → Nat :=
  arena.fold 0 fun id _ operands => own id + operands.children.sum

theorem Acyclic.tally_eq (acyclic : arena.Acyclic) (found : arena.shape? id = some shape) :
    arena.tally own id = own id + (shape.children.map (arena.tally own)).sum := by
  obtain ⟨node, isNode, rfl⟩ := shape?_eq_some_iff.mp found
  rw [tally, acyclic.fold_eq _ _ isNode, Shape.children_map]

theorem Acyclic.tally_operand (acyclic : arena.Acyclic) {child parent : ExprId}
    (operand : arena.Operand child parent) :
    own parent + arena.tally own child ≤ arena.tally own parent := by
  obtain ⟨shape, found, member⟩ := operand_iff_shape?.mp operand
  have summand : arena.tally own child ≤ (shape.children.map (arena.tally own)).sum :=
    List.le_sum_of_mem (List.mem_map_of_mem member)
  rw [acyclic.tally_eq found]
  omega

/-- What lies within counts no more than the whole. -/
theorem Acyclic.tally_within (acyclic : arena.Acyclic) (within : arena.Within id root) :
    arena.tally own id ≤ arena.tally own root := by
  induction within with
  | refl => exact le_rfl
  | tail _ operand ih =>
    have below := @Acyclic.tally_operand _ own acyclic _ _ operand
    omega

/-- What lies below a node leaves room for the node itself. -/
theorem Acyclic.tally_below (acyclic : arena.Acyclic) (below : arena.Below id root) :
    own root + arena.tally own id ≤ arena.tally own root := by
  obtain ⟨child, within, operand⟩ := Relation.TransGen.tail'_iff.mp below
  have atChild := @Acyclic.tally_within _ _ _ own acyclic within
  have atRoot := @Acyclic.tally_operand _ own acyclic _ _ operand
  omega

/-! ## Tallies after a splice -/

namespace Respliced

variable {parent old new : ExprId} (respliced : Respliced before after parent old new)
include respliced

/-- The operands of the changed node, before and after. -/
theorem children_parent :
    ∃ shape replaced earlier later, before.shape? parent = some shape ∧
      after.shape? parent = some replaced ∧ shape.children = earlier ++ old :: later ∧
      replaced.children = earlier ++ new :: later := by
  obtain ⟨shape, replaced, found, foundAfter, isReplaced⟩ := respliced.exists_shapes
  obtain ⟨earlier, later, _, childrenBefore, childrenAfter⟩ :=
    Shape.children_replaceFirst? isReplaced
  exact ⟨shape, replaced, earlier, later, found, foundAfter, childrenBefore, childrenAfter⟩

variable (acyclic : before.Acyclic) (acyclicAfter : after.Acyclic)
include acyclic acyclicAfter

/-- At the changed node the tally of `old` makes way for that of `new`. -/
theorem tally_parent
    (operands : ∀ child, after.Operand child parent → after.tally own child ≤ before.tally own child) :
    after.tally own parent + before.tally own old ≤
      before.tally own parent + before.tally own new := by
  obtain ⟨shape, replaced, earlier, later, found, foundAfter, children, childrenAfter⟩ :=
    respliced.children_parent
  have notMore : ∀ child ∈ replaced.children, after.tally own child ≤ before.tally own child :=
    fun child member => operands child (operand_iff_shape?.mpr ⟨replaced, foundAfter, member⟩)
  have inOperands := List.sum_le_sum notMore
  rw [acyclic.tally_eq found, acyclicAfter.tally_eq foundAfter]
  rw [childrenAfter] at inOperands ⊢
  rw [children]
  simp only [List.map_append, List.map_cons, List.sum_append, List.sum_cons] at inOperands ⊢
  omega

/-- A splice of what counts no more raises no tally. -/
theorem tally_le (notMore : before.tally own new ≤ before.tally own old)
    (allocated : before.Allocated id) : after.tally own id ≤ before.tally own id := by
  -- Along the new operands: those of the changed node include `new`, which may lie anywhere below.
  refine acyclicAfter.induction ?_ id (respliced.allocated_iff.mpr allocated)
  intro id node isNode operands
  have foundAfter := shape?_of_node? isNode
  by_cases isParent : id = parent
  · have atParent := respliced.tally_parent acyclic acyclicAfter
      fun child operand => operands child ((operand_iff (isParent ▸ isNode)).mp operand)
    rw [isParent]
    omega
  · have found := foundAfter
    rw [respliced.elsewhere isParent] at found
    rw [acyclic.tally_eq found, acyclicAfter.tally_eq foundAfter]
    have operandsLe := List.sum_le_sum operands
    omega

/-- A splice of what counts less lowers the tally wherever the changed node is reached. -/
theorem tally_lt (less : before.tally own new < before.tally own old)
    (within : before.Within parent id) : after.tally own id < before.tally own id := by
  have notMore : ∀ {id}, before.Allocated id → after.tally own id ≤ before.tally own id :=
    respliced.tally_le acyclic acyclicAfter less.le
  induction within with
  | refl =>
    have atParent := @tally_parent _ _ own _ _ _ respliced acyclic acyclicAfter
      fun child operand => notMore (respliced.allocated_iff.mp (acyclicAfter.allocated operand))
    omega
  | @tail middle top below operand ih =>
    obtain ⟨shape, found, member⟩ := operand_iff_shape?.mp operand
    have notParent : top ≠ parent := by
      rintro rfl
      exact acyclic.irreflexive _ (Relation.TransGen.tail' below operand)
    have foundAfter := found
    rw [← respliced.elsewhere notParent] at foundAfter
    rw [acyclic.tally_eq found, acyclicAfter.tally_eq foundAfter]
    have operandsLt := List.sum_lt_sum (after.tally own) (before.tally own)
      (fun child isChild =>
        notMore (acyclic.allocated (operand_iff_shape?.mpr ⟨shape, found, isChild⟩)))
      ⟨middle, member, ih⟩
    omega

end Respliced

/-! ## Operators -/

def operatorAt (arena : Arena) (id : ExprId) : Nat :=
  (arena.shape? id).elim 0 fun shape => shape.isOperator.toNat

theorem operatorAt_of_shape? (found : arena.shape? id = some shape) :
    arena.operatorAt id = shape.isOperator.toNat := by
  rw [operatorAt, found]
  rfl

theorem Acyclic.operatorCount_eq (acyclic : arena.Acyclic) (allocated : arena.Allocated root) :
    arena.operatorCount root = arena.tally arena.operatorAt root := by
  refine acyclic.induction ?_ root allocated
  intro root node isNode operands
  have found := shape?_of_node? isNode
  rw [operatorCount, acyclic.fold_eq _ _ isNode, Shape.children_map, ← List.sum_eq_foldl,
    acyclic.tally_eq found, operatorAt_of_shape? found]
  congr 2
  exact List.map_congr_left operands

theorem Grows.operatorCount_eq (grows : before.Grows after) (acyclic : before.Acyclic)
    (allocated : before.Allocated root) : after.operatorCount root = before.operatorCount root :=
  grows.fold_eq acyclic _ _ allocated

/-- What lies below an operator has fewer operators. -/
theorem Acyclic.operatorCount_below (acyclic : arena.Acyclic)
    (found : arena.shape? root = some shape) (operator : shape.isOperator = true)
    (below : arena.Below id root) : arena.operatorCount id < arena.operatorCount root := by
  have room := @Acyclic.tally_below _ _ _ arena.operatorAt acyclic below
  rw [operatorAt_of_shape? found, operator, Bool.toNat_true] at room
  rw [acyclic.operatorCount_eq (allocated_iff_shape?.mpr ⟨shape, found⟩),
    acyclic.operatorCount_eq (acyclic.allocated_of_below below)]
  omega

/-- An operator within an expression counts. -/
theorem Acyclic.operatorCount_pos (acyclic : arena.Acyclic) (found : arena.shape? id = some shape)
    (operator : shape.isOperator = true) (within : arena.Within id root)
    (allocated : arena.Allocated root) : 0 < arena.operatorCount root := by
  have counted := @Acyclic.tally_within _ _ _ arena.operatorAt acyclic within
  rw [acyclic.tally_eq found, operatorAt_of_shape? found, operator, Bool.toNat_true] at counted
  rw [acyclic.operatorCount_eq allocated]
  omega

namespace Respliced

variable {parent old new : ExprId}

theorem operatorAt_eq (respliced : Respliced before after parent old new) :
    after.operatorAt = before.operatorAt := by
  funext id
  by_cases isParent : id = parent
  · obtain ⟨shape, replaced, found, foundAfter, isReplaced⟩ := respliced.exists_shapes
    rw [isParent, operatorAt_of_shape? found, operatorAt_of_shape? foundAfter,
      Shape.isOperator_replaceFirst? isReplaced]
  · rw [operatorAt, operatorAt, respliced.elsewhere isParent]

theorem operatorCount_lt (respliced : Respliced before after parent old new)
    (acyclic : before.Acyclic) (acyclicAfter : after.Acyclic) (allocated : before.Allocated root)
    (isNew : before.Allocated new)
    (fewer : before.operatorCount new < before.operatorCount old)
    (within : before.Within parent root) :
    after.operatorCount root < before.operatorCount root := by
  rw [acyclic.operatorCount_eq isNew,
    acyclic.operatorCount_eq (acyclic.allocated respliced.operand)] at fewer
  rw [acyclicAfter.operatorCount_eq (respliced.allocated_iff.mpr allocated),
    acyclic.operatorCount_eq allocated, respliced.operatorAt_eq]
  exact respliced.tally_lt acyclic acyclicAfter fewer within

end Respliced

end Arena

end Assay
