import Assay.Proofs.Expr.Inlining
import Assay.Proofs.Expr.Validity

/-!
Contract: scalar expressions fold to the end.
-/

namespace Assay

def Environment.empty : Environment :=
  fun _ => none

namespace Arena

variable {arena : Arena} {root : ExprId} {env : Environment}

theorem Scalar.closed (scalar : arena.Scalar .empty root) {inner : ExprId}
    (within : arena.Within inner root) :
    ∃ shape, arena.shape? inner = some shape ∧ shape.isClosed = true := by
  obtain ⟨shape, found, closed | ⟨_, _, _, bound⟩⟩ := scalar within
  · exact ⟨shape, found, closed⟩
  · cases bound

/-- A constant operator is the branch that is folded first. -/
theorem Acyclic.constBranch?_eq_root (acyclic : arena.Acyclic) {shape : Shape ExprId}
    (found : arena.shape? root = some shape) (operator : shape.isOperator = true)
    (isConst : arena.isConst root = true) : arena.constBranch? root = some root := by
  obtain ⟨node, isNode, rfl⟩ := shape?_eq_some_iff.mp found
  rw [constBranch?, acyclic.fold_eq _ _ isNode, branchStep, operator, isConst]
  rfl

theorem Acyclic.operatorCount_literal (acyclic : arena.Acyclic) {value : Literal}
    (found : arena.shape? root = some (.literal value)) : arena.operatorCount root = 0 := by
  obtain ⟨node, isNode, form⟩ := shape?_eq_some_iff.mp found
  rw [operatorCount, acyclic.fold_eq _ _ isNode, form]
  rfl

end Arena

namespace Rooted

variable {expr : Rooted} {env : Environment} {session : Session} {scope : ScopeId}

/-- What folding to the end gives: a literal that the expression means, or the stop that its
evaluation meets. -/
def FoldsTo (env : Environment) (expr : Rooted)
    (outcome : Except FoldStop ExprId × Rooted) : Prop :=
  (∃ folded value, outcome.1 = .ok folded ∧
    outcome.2.arena.shape? folded = some (.literal value) ∧
    expr.arena.eval env expr.root = .ok (.literal value)) ∨
  ∃ stop, outcome.1 = .error stop ∧ expr.arena.eval env expr.root = .error stop

variable (acyclic : expr.arena.Acyclic) (allocated : expr.arena.Allocated expr.root)
include acyclic allocated

/-- The node that stands for a closed operator is a literal. -/
theorem exists_literal (closed : expr.arena.Scalar .empty expr.root)
    (operator : (expr.arena.shapeAt expr.root).isOperator = true) {grown : Arena} {folded : ExprId}
    (grows : expr.arena.Grows grown) (stands : Arena.StandsFor expr.arena grown expr.root folded) :
    ∃ value, grown.shape? folded = some (.literal value) := by
  have settled := stands.settled
  have found := Arena.shape?_of_allocated stands.allocated
  rcases stands.origin with rfl | below | ⟨value, literal⟩
  · rw [grows.shapeAt_eq allocated, operator] at settled
    cases settled
  · obtain ⟨shape, foundBefore, isClosed⟩ := closed.closed below.within
    have foldedAllocated := acyclic.allocated_of_below below
    rw [grows.shapeAt_eq foldedAllocated, Arena.shapeAt_of_shape? foundBefore] at settled found
    cases shape with
    | literal value => exact ⟨value, found⟩
    | unary _ _ | step _ _ | binary _ _ _ => cases settled
    | _ => cases isClosed
  · exact ⟨value, literal ▸ found⟩

theorem simplify_closed (closed : expr.arena.Scalar .empty expr.root) :
    FoldsTo env expr expr.simplify := by
  obtain ⟨shape, found⟩ := Arena.allocated_iff_shape?.mp allocated
  have shapeAt := Arena.shapeAt_of_shape? found
  rcases closed.cases found with ⟨value, rfl⟩ | ⟨_, _, _, bound⟩ | operator
  · left
    refine ⟨expr.root, value, ?_, ?_, ?_⟩
    · rw [simplify, acyclic.operatorCount_literal found]
      rfl
    · rw [simplify, acyclic.operatorCount_literal found]
      exact found
    · rw [acyclic.eval_of_shape? found]
      rfl
  · cases bound
  · have isConst : expr.arena.isConst expr.root = true := by
      apply Arena.isConst_of_scalar acyclic allocated closed
      intro inner node name within isNode isName
      obtain ⟨other, foundOther, isClosed⟩ := closed.closed within
      rw [Arena.shape?_eq_some_iff.mpr ⟨node, isNode, isName⟩] at foundOther
      cases foundOther
      cases isClosed
    have isBranch := acyclic.constBranch?_eq_root found operator isConst
    have positive := acyclic.operatorCount_pos found operator .refl allocated
    obtain ⟨rounds, countEq⟩ : ∃ rounds, expr.arena.operatorCount expr.root = rounds + 1 :=
      ⟨expr.arena.operatorCount expr.root - 1, by omega⟩
    rw [simplify, countEq]
    have solvedOutcome := acyclic.solve_outcome allocated
    rcases solved : expr.arena.solve expr.root with ⟨stop | folded, grown⟩
    · rw [solved] at solvedOutcome
      simp only [simplifyWithin, isBranch, solved]
      refine .inr ⟨stop, rfl, solvedOutcome.2 (fun inner below => ?_) env⟩
      obtain ⟨other, foundOther, isClosed⟩ := closed.closed below.within
      rw [Arena.shapeAt_of_shape? foundOther]
      exact isClosed
    · rw [solved] at solvedOutcome
      simp only [simplifyWithin, isBranch, solved, if_pos]
      obtain ⟨grows, stands⟩ := solvedOutcome
      have stands : Arena.StandsFor expr.arena grown expr.root folded := stands
      obtain ⟨value, literal⟩ :=
        exists_literal acyclic allocated closed (shapeAt ▸ operator) grows stands
      refine .inl ⟨folded, value, rfl, literal, ?_⟩
      rw [← stands.meaning env, (grows.acyclic acyclic).eval_of_shape? literal]
      rfl

/-- A scalar expression folds to what it means where its names are bound. -/
theorem fold_scalar (scalar : expr.arena.Scalar (session.literals scope) expr.root) :
    FoldsTo (session.literals scope) expr (inlineNames session scope expr).2.simplify := by
  have inlined := inlineNames_inlines (agrees_literals session scope) acyclic allocated
  obtain ⟨complete, staysScalar⟩ := @inlineNames_complete expr session scope acyclic allocated
  have closed : (inlineNames session scope expr).2.arena.Scalar .empty
      (inlineNames session scope expr).2.root := by
    intro inner within
    obtain ⟨shape, found, isClosed | ⟨name, value, rfl, bound⟩⟩ := staysScalar _ scalar within
    · exact ⟨shape, found, .inl isClosed⟩
    · exact absurd bound (complete inner name value within found)
  have folds : FoldsTo (session.literals scope) _ _ :=
    simplify_closed inlined.arena.acyclic inlined.root_allocated closed
  rw [FoldsTo, inlined.root_meaning] at folds
  exact folds

end Rooted

end Assay
