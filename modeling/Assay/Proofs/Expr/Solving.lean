import Assay.Expr.Folding
import Assay.Proofs.Expr.Meaning

/-!
Contract: the node that stands for the value of a constant expression.
-/

namespace Assay

open Stopping

/-- Literals and operators: nothing to look up and nothing structured. -/
def Shape.isClosed {α : Type} : Shape α → Bool
  | .literal _ | .unary _ _ | .step _ _ | .binary _ _ _ => true
  | _ => false

/-- Replacing an operand leaves a closed form closed. -/
theorem Shape.isClosed_replaceFirst? {shape replaced : Shape ExprId} {old new : ExprId}
    (isReplaced : shape.replaceFirst? old new = some replaced) (closed : shape.isClosed = true) :
    replaced.isClosed = true := by
  cases shape <;> simp only [replaceFirst?] at isReplaced <;> (repeat' split at isReplaced) <;>
    cases isReplaced <;> first | rfl | cases closed

def Shape.IsScalar {α : Type} (env : Environment) (shape : Shape α) : Prop :=
  shape.isClosed = true ∨ ∃ name value, shape = .name name ∧ env name = some value

namespace Arena

/-! ## Scalar expressions -/

section Scalar

variable {arena : Arena} {env : Environment} {root : ExprId} {shape : Shape ExprId}

/-- Nothing but literals, operators and names that the environment binds lies within `root`. -/
def Scalar (arena : Arena) (env : Environment) (root : ExprId) : Prop :=
  ∀ ⦃inner⦄, arena.Within inner root → ∃ shape, arena.shape? inner = some shape ∧ shape.IsScalar env

theorem Scalar.of_operands (found : arena.shape? root = some shape)
    (form : shape.IsScalar env)
    (operands : ∀ child ∈ shape.children, arena.Scalar env child) : arena.Scalar env root := by
  intro inner within
  rcases Relation.ReflTransGen.cases_tail within with rfl | ⟨child, below, operand⟩
  · exact ⟨shape, found, form⟩
  · obtain ⟨other, foundOther, member⟩ := operand_iff_shape?.mp operand
    rw [found] at foundOther
    cases foundOther
    exact operands child member below

theorem Scalar.within (scalar : arena.Scalar env root) {inner : ExprId}
    (within : arena.Within inner root) : arena.Scalar env inner :=
  fun _ below => scalar (below.trans within)

/-- A scalar form is a literal, a bound name, or an operator. -/
theorem Scalar.cases (scalar : arena.Scalar env root) (found : arena.shape? root = some shape) :
    (∃ value, shape = .literal value) ∨ (∃ name value, shape = .name name ∧ env name = some value) ∨
      shape.isOperator = true := by
  obtain ⟨other, foundOther, form⟩ := scalar .refl
  rw [found] at foundOther
  cases foundOther
  rcases form with closed | named
  · cases shape <;> simp_all [Shape.isClosed, Shape.isOperator]
  · exact .inr (.inl named)

end Scalar

/-! ## Equations -/

section Equations

variable {arena : Arena} {id child left right : ExprId} (depth : Nat)

theorem solveWithin_leaf (leaf : (arena.shapeAt id).isOperator = false) :
    (solveWithin (depth + 1) id).run.run arena = (.ok id, arena) := by
  rw [solveWithin, run_get_bind]
  rw [shapeAt] at leaf
  cases shape : (arena.nodeAt id).shape <;> simp_all [Shape.isOperator] <;> rfl

theorem solveWithin_unary {op : UnaryOp} (shape : arena.shapeAt id = .unary op child) :
    (solveWithin (depth + 1) id).run.run arena = (solveWithin depth child).run.run arena := by
  rw [shapeAt] at shape
  rw [solveWithin, run_get_bind]
  simp only [shape]

theorem solveWithin_step {op : StepOp} (shape : arena.shapeAt id = .step op child) :
    (solveWithin (depth + 1) id).run.run arena = (solveWithin depth child).run.run arena := by
  rw [shapeAt] at shape
  rw [solveWithin, run_get_bind]
  simp only [shape]

theorem solveWithin_binary {op : BinOp} (shape : arena.shapeAt id = .binary op left right) :
    (solveWithin (depth + 1) id).run.run arena =
      match (solveWithin depth left).run.run arena with
      | (.error stop, grown) => (.error stop, grown)
      | (.ok leftValue, grown) =>
        match (solveWithin depth right).run.run grown with
        | (.error stop, grown) => (.error stop, grown)
        | (.ok rightValue, grown) =>
          match grown.literal? leftValue, grown.literal? rightValue with
          | some x, some y =>
            match Fold.binary op x y with
            | .ok value =>
              (.ok ⟨grown.size⟩, ((addLiteral value (arena.locAt id)).run grown).2)
            | .error stop => (.error stop, grown)
          | _, _ => (.error (.fault (.notLiteral op)), grown) := by
  rw [shapeAt] at shape
  rw [solveWithin, run_get_bind]
  simp only [shape]
  rw [run_bind]
  rcases (solveWithin depth left).run.run arena with ⟨_ | leftValue, afterLeft⟩
  · rfl
  · dsimp only
    rw [run_bind]
    rcases (solveWithin depth right).run.run afterLeft with ⟨_ | rightValue, grown⟩
    · rfl
    · dsimp only
      rw [run_get_bind, run_get_bind]
      rcases grown.literal? leftValue with _ | x
      · rfl
      · rcases grown.literal? rightValue with _ | y
        · rfl
        · dsimp only
          rcases Fold.binary op x y <;> rfl

end Equations

/-- What new literals do not affect is not affected by solving, whether it stops or not. -/
theorem solveWithin_keeps {inv : Arena → Prop}
    (step : ∀ {arena op x y value} (loc : Location), Fold.binary op x y = .ok value → inv arena →
      inv ((addLiteral value loc).run arena).2)
    (depth : Nat) (id : ExprId) : Keeps inv (solveWithin depth id) := by
  induction depth generalizing id with
  | zero => exact .pure id
  | succ depth ih =>
    rw [solveWithin]
    refine .get_bind fun arena holds => ?_
    dsimp only
    split
    · exact ih _ arena holds
    · exact ih _ arena holds
    · refine (ih _).bind (fun leftValue => ?_) arena holds
      refine (ih _).bind fun rightValue => ?_
      intro arena holds
      rw [run_get_bind, run_get_bind]
      split
      · split
        · next folded => exact step _ folded holds
        · exact holds
      · exact holds
    · exact holds

theorem size_le_solveWithin (depth : Nat) (id : ExprId) (arena : Arena) :
    arena.size ≤ ((solveWithin depth id).run.run arena).2.size := by
  refine @solveWithin_keeps (fun grown => arena.size ≤ grown.size) (fun loc _ atLeast => ?_) depth id
    arena le_rfl
  rw [addLiteral, size_alloc]
  omega

/-! ## What solving returns -/

variable {base current after : Arena} {id folded : ExprId}

/-- The node `folded` of `after` stands for the value that `id` has in `base`. -/
structure StandsFor (base after : Arena) (id folded : ExprId) : Prop where
  allocated : after.Allocated folded
  meaning : ∀ env, after.eval env folded = base.eval env id
  settled : (after.shapeAt folded).isOperator = false
  origin : folded = id ∨ base.Below folded id ∨ ∃ value, after.shapeAt folded = .literal value

/-- A stop is the one that evaluation meets, unless a form that does not fold lies below. -/
def Outcome (base after : Arena) (id : ExprId) : Except FoldStop ExprId → Prop
  | .ok folded => StandsFor base after id folded
  | .error stop =>
      (∀ inner, base.Below inner id → (base.shapeAt inner).isClosed) →
        ∀ env, base.eval env id = .error stop

namespace StandsFor

/-- A node that is no operator stands for itself. -/
theorem self (acyclic : base.Acyclic) (grows : base.Grows current)
    (allocated : base.Allocated id) (leaf : (base.shapeAt id).isOperator = false) :
    StandsFor base current id id where
  allocated := grows.allocated allocated
  meaning := fun _ => grows.eval_eq acyclic allocated
  settled := by rw [grows.shapeAt_eq allocated, leaf]
  origin := .inl rfl

theorem grow (stands : StandsFor base current id folded) (acyclic : current.Acyclic)
    (grows : current.Grows after) : StandsFor base after id folded where
  allocated := grows.allocated stands.allocated
  meaning := fun env => by rw [grows.eval_eq acyclic stands.allocated, stands.meaning env]
  settled := by rw [grows.shapeAt_eq stands.allocated, stands.settled]
  origin := by
    rw [grows.shapeAt_eq stands.allocated]
    exact stands.origin

/-- What stands for the operand of a node that passes its operand on stands for the node. -/
theorem lift {child : ExprId} (stands : StandsFor base current child folded)
    (operand : base.Operand child id)
    (passesOn : ∀ env, base.eval env id = base.eval env child) :
    StandsFor base current id folded where
  allocated := stands.allocated
  meaning := fun env => (stands.meaning env).trans (passesOn env).symm
  settled := stands.settled
  origin := by
    rcases stands.origin with rfl | below | literal
    · exact .inr (.inl operand.below)
    · exact .inr (.inl (below.tail operand))
    · exact .inr (.inr literal)

theorem eval_of_literal? (stands : StandsFor base current id folded) {value : Literal}
    (literal : current.literal? folded = some value) (env : Environment) :
    base.eval env id = .ok (.literal value) := by
  rw [← stands.meaning env, Arena.eval_of_literal? stands.allocated literal]

/-- Where only literals and operators lie at or below a node, a literal stands for it. -/
theorem literal?_ne_none (stands : StandsFor base current id folded)
    (grows : base.Grows current) (acyclic : base.Acyclic) (allocated : base.Allocated id)
    (closed : ∀ inner, base.Within inner id → (base.shapeAt inner).isClosed) :
    current.literal? folded ≠ none := by
  have isClosed : (current.shapeAt folded).isClosed := by
    rcases stands.origin with rfl | below | ⟨value, literal⟩
    · rw [grows.shapeAt_eq allocated]
      exact closed folded .refl
    · rw [grows.shapeAt_eq (acyclic.allocated_of_below below)]
      exact closed folded below.within
    · rw [literal]
      rfl
  have settled := stands.settled
  rw [literal?]
  cases shape : current.shapeAt folded <;>
    simp_all [Shape.isClosed, Shape.isOperator, Shape.literal?]

end StandsFor

theorem Outcome.lift {child : ExprId} {result : Except FoldStop ExprId}
    (outcome : Outcome base current child result) (operand : base.Operand child id)
    (passesOn : ∀ env, base.eval env id = base.eval env child) :
    Outcome base current id result := by
  cases result with
  | ok folded => exact StandsFor.lift outcome operand passesOn
  | error stop =>
    intro closed env
    rw [passesOn env]
    exact outcome (fun inner below => closed inner (below.tail operand)) env

/-! ## The binary case -/

section Binary

variable {op : BinOp} {left right leftValue rightValue : ExprId}

/-- An operator evaluates its left operand, then its right one, and combines their values. -/
theorem Acyclic.eval_binary (acyclic : base.Acyclic) (allocated : base.Allocated id)
    (shape : base.shapeAt id = .binary op left right) (env : Environment) :
    base.eval env id = (do Value.combine op (← base.eval env left) (← base.eval env right)) :=
  acyclic.eval_of_shapeAt allocated shape

/-- The outcome of an operator whose operands have been solved. -/
theorem outcome_binary (acyclic : base.Acyclic) (grows : base.Grows current)
    (allocated : base.Allocated id) (shape : base.shapeAt id = .binary op left right)
    (leftStands : StandsFor base current left leftValue)
    (rightStands : StandsFor base current right rightValue) (loc : Location) :
    let result : Except FoldStop ExprId × Arena :=
      match current.literal? leftValue, current.literal? rightValue with
      | some x, some y =>
        match Fold.binary op x y with
        | .ok value => (.ok ⟨current.size⟩, ((addLiteral value loc).run current).2)
        | .error stop => (.error stop, current)
      | _, _ => (.error (.fault (.notLiteral op)), current)
    current.Grows result.2 ∧ Outcome base result.2 id result.1 := by
  intro result
  obtain ⟨node, found⟩ := exists_node? allocated
  have children : node.shape.children = [left, right] := by
    rw [← shapeAt_of_node? found, shape]
    rfl
  have leftOperand : base.Operand left id := operand_of_mem found (by simp [children])
  have rightOperand : base.Operand right id := operand_of_mem found (by simp [children])
  cases leftLiteral : current.literal? leftValue with
  | none =>
    simp only [result, leftLiteral]
    refine ⟨.refl _, fun closed => ?_⟩
    exact absurd leftLiteral (leftStands.literal?_ne_none grows acyclic
      (acyclic.allocated leftOperand)
      fun inner within => closed inner (Relation.TransGen.tail' within leftOperand))
  | some x =>
    cases rightLiteral : current.literal? rightValue with
    | none =>
      simp only [result, leftLiteral, rightLiteral]
      refine ⟨.refl _, fun closed => ?_⟩
      exact absurd rightLiteral (rightStands.literal?_ne_none grows acyclic
        (acyclic.allocated rightOperand)
        fun inner within => closed inner (Relation.TransGen.tail' within rightOperand))
    | some y =>
      have meaning : ∀ env, base.eval env id = (Fold.binary op x y).map .literal := by
        intro env
        rw [acyclic.eval_binary allocated shape, leftStands.eval_of_literal? leftLiteral,
          rightStands.eval_of_literal? rightLiteral]
        rfl
      cases folded : Fold.binary op x y with
      | error stop =>
        simp only [result, leftLiteral, rightLiteral, folded]
        refine ⟨.refl _, fun _ env => ?_⟩
        rw [meaning env, folded]
        rfl
      | ok value =>
        simp only [result, leftLiteral, rightLiteral, folded]
        have found := node?_addLiteral current value loc
        refine ⟨grows_addLiteral current value loc, ?_⟩
        exact {
          allocated := allocated_of_node? found
          meaning := fun env => by
            rw [eval_literal found rfl, meaning env, folded]
            rfl
          settled := by
            rw [shapeAt_of_node? found]
            rfl
          origin := .inr (.inr ⟨value, shapeAt_of_node? found⟩) }

end Binary

/-- Solving a node of `base` in an arena that grew out of `base`. -/
theorem solveWithin_outcome (acyclic : base.Acyclic) {depth : Nat} (grows : base.Grows current)
    (allocated : base.Allocated id) (room : base.rank id < depth) :
    current.Grows ((solveWithin depth id).run.run current).2 ∧
      Outcome base ((solveWithin depth id).run.run current).2 id
        ((solveWithin depth id).run.run current).1 := by
  -- Along the recursion the arena grows, but every node met is one of `base`.
  induction depth generalizing id current with
  | zero => omega
  | succ depth ih =>
    obtain ⟨node, found⟩ := exists_node? allocated
    have shapeBase := shapeAt_of_node? found
    have shapeCurrent := grows.shapeAt_eq allocated
    have solveOperand : ∀ (child : ExprId) {current : Arena}, base.Grows current →
        child ∈ node.shape.children →
        base.Operand child id ∧
          current.Grows ((solveWithin depth child).run.run current).2 ∧
          Outcome base ((solveWithin depth child).run.run current).2 child
            ((solveWithin depth child).run.run current).1 := by
      intro child current grows member
      have operand := operand_of_mem found member
      have smaller := acyclic.rank_lt operand
      exact ⟨operand, ih grows (acyclic.allocated operand) (by omega)⟩
    cases shape : node.shape with
    | unary op child =>
      rw [solveWithin_unary depth (shapeCurrent.trans (shapeBase.trans shape))]
      obtain ⟨operand, grown, outcome⟩ :=
        solveOperand child grows (by simp [shape, Shape.children])
      refine ⟨grown, outcome.lift operand fun env => ?_⟩
      rw [acyclic.eval_eq found, shape]
      rfl
    | step op child =>
      rw [solveWithin_step depth (shapeCurrent.trans (shapeBase.trans shape))]
      obtain ⟨operand, grown, outcome⟩ :=
        solveOperand child grows (by simp [shape, Shape.children])
      refine ⟨grown, outcome.lift operand fun env => ?_⟩
      rw [acyclic.eval_eq found, shape]
      rfl
    | binary op left right =>
      rw [solveWithin_binary depth (shapeCurrent.trans (shapeBase.trans shape))]
      obtain ⟨leftOperand, leftGrown, leftOutcome⟩ :=
        solveOperand left grows (by simp [shape, Shape.children])
      generalize (solveWithin depth left).run.run current = leftResult at *
      obtain ⟨leftStop | leftValue, afterLeft⟩ := leftResult
      · refine ⟨leftGrown, fun closed env => ?_⟩
        have stopped := leftOutcome
          (fun inner below => closed inner (below.tail leftOperand)) env
        rw [acyclic.eval_binary allocated (shapeBase.trans shape), stopped]
        rfl
      · have baseLeft := grows.trans leftGrown
        obtain ⟨rightOperand, rightGrown, rightOutcome⟩ :=
          solveOperand right baseLeft (by simp [shape, Shape.children])
        dsimp only
        generalize (solveWithin depth right).run.run afterLeft = rightResult at *
        obtain ⟨rightStop | rightValue, afterRight⟩ := rightResult
        · refine ⟨leftGrown.trans rightGrown, fun closed env => ?_⟩
          have stopped := rightOutcome
            (fun inner below => closed inner (below.tail rightOperand)) env
          have leftClosed := leftOutcome.literal?_ne_none baseLeft acyclic
            (acyclic.allocated leftOperand)
            fun inner within => closed inner (Relation.TransGen.tail' within leftOperand)
          obtain ⟨value, literal⟩ := Option.ne_none_iff_exists'.mp leftClosed
          rw [acyclic.eval_binary allocated (shapeBase.trans shape),
            leftOutcome.eval_of_literal? literal, stopped]
          rfl
        · have stands := leftOutcome.grow (baseLeft.acyclic acyclic) rightGrown
          have result := outcome_binary acyclic (baseLeft.trans rightGrown) allocated
            (shapeBase.trans shape) stands rightOutcome (current.locAt id)
          exact ⟨(leftGrown.trans rightGrown).trans result.1, result.2⟩
    | _ =>
      have leaf : (base.shapeAt id).isOperator = false := by
        rw [shapeBase, shape]
        rfl
      rw [solveWithin_leaf depth (by rw [shapeCurrent, leaf])]
      exact ⟨.refl _, StandsFor.self acyclic grows allocated leaf⟩

/-- Solving keeps every node, adds literals only, and returns a node that stands for the value of
the expression or the stop that evaluation meets. -/
theorem Acyclic.solve_outcome (acyclic : base.Acyclic) (allocated : base.Allocated id) :
    base.Grows (base.solve id).2 ∧ Outcome base (base.solve id).2 id (base.solve id).1 :=
  solveWithin_outcome acyclic (.refl base) allocated (acyclic.rank_lt_size allocated)

end Arena

end Assay
