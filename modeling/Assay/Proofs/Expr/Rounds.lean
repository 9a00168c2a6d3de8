import Assay.Proofs.Expr.ScalarFolding

/-!
Contract: folding in rounds comes to an end.
-/

namespace Assay.Rooted

variable {expr next : Rooted} {branch folded : ExprId} {grown : Arena}
  {result : Except FoldStop ExprId} {outcome : Except FoldStop ExprId × Rooted} {rounds : Nat}

/-! ## The loop -/

/-- The first half of a round: a branch is found, and its value is computed. -/
structure Folds (expr : Rooted) (branch : ExprId) (result : Except FoldStop ExprId)
    (grown : Arena) : Prop where
  chosen : expr.arena.constBranch? expr.root = some branch
  solved : expr.arena.solve branch = (result, grown)

/-- A round that leads to the next one: the value takes the place of a branch below the root. -/
inductive Advances (expr next : Rooted) : Prop
  | intro {branch folded : ExprId} {grown : Arena} (folds : expr.Folds branch (.ok folded) grown)
      (notRoot : branch ≠ expr.root)
      (exchanged : Rooted.exchange? { expr with arena := grown } branch folded = some next)

/-- The loop of folding, with the number of rounds that it takes and without a bound on them. -/
inductive Loops : Nat → Rooted → Except FoldStop ExprId × Rooted → Prop
  | nothingLeft {expr : Rooted} (chosen : expr.arena.constBranch? expr.root = none) :
      Loops 0 expr (.ok expr.root, expr)
  | stops {expr : Rooted} {branch : ExprId} {stop : FoldStop} {grown : Arena}
      (folds : expr.Folds branch (.error stop) grown) :
      Loops 1 expr (.error stop, { expr with arena := grown })
  | whole {expr : Rooted} {folded : ExprId} {grown : Arena}
      (folds : expr.Folds expr.root (.ok folded) grown) : Loops 1 expr (.ok folded, ⟨grown, folded⟩)
  | refused {expr : Rooted} {branch folded : ExprId} {grown : Arena}
      (folds : expr.Folds branch (.ok folded) grown) (notRoot : branch ≠ expr.root)
      (refused : Rooted.exchange? { expr with arena := grown } branch folded = none) :
      Loops 1 expr (.ok expr.root, { expr with arena := grown })
  | onward {rounds : Nat} {expr next : Rooted} {outcome : Except FoldStop ExprId × Rooted}
      (advances : expr.Advances next) (rest : Loops rounds next outcome) :
      Loops (rounds + 1) expr outcome

/-- With rounds to spare the bounded loop does what the loop does. -/
theorem Loops.simplifyWithin_eq (loops : Loops rounds expr outcome) {bound : Nat}
    (enough : rounds ≤ bound) : simplifyWithin bound expr = outcome := by
  induction loops generalizing bound with
  | nothingLeft chosen =>
    cases bound with
    | zero => rfl
    | succ bound => simp only [simplifyWithin, chosen]
  | stops folds =>
    obtain ⟨bound, rfl⟩ := Nat.exists_eq_add_of_le' enough
    simp only [simplifyWithin, folds.chosen, folds.solved]
  | whole folds =>
    obtain ⟨bound, rfl⟩ := Nat.exists_eq_add_of_le' enough
    simp only [simplifyWithin, folds.chosen, folds.solved, if_pos]
  | refused folds notRoot refused =>
    obtain ⟨bound, rfl⟩ := Nat.exists_eq_add_of_le' enough
    simp only [simplifyWithin, folds.chosen, folds.solved, if_neg notRoot, refused]
  | onward advances rest ih =>
    obtain ⟨folds, notRoot, exchanged⟩ := advances
    obtain ⟨spare, rfl⟩ : ∃ spare, bound = spare + 1 := ⟨bound - 1, by omega⟩
    simp only [simplifyWithin, folds.chosen, folds.solved, if_neg notRoot, exchanged]
    exact ih (by omega)

/-! ## One round -/

/-- What holds between the rounds: no cycle, and a root that is a node. -/
structure Sound (expr : Rooted) : Prop where
  acyclic : expr.arena.Acyclic
  allocated : expr.arena.Allocated expr.root

namespace Folds

/-- The branch is an operator of the expression, and its value is put into new nodes. -/
theorem grows (folds : expr.Folds branch result grown) (sound : expr.Sound) :
    expr.arena.Within branch expr.root ∧ (expr.arena.shapeAt branch).isOperator = true ∧
      expr.arena.Grows grown ∧ Arena.Outcome expr.arena grown branch result := by
  obtain ⟨within, operator, _⟩ := sound.acyclic.constBranch?_sound sound.allocated folds.chosen
  have solved := sound.acyclic.solve_outcome (within.allocated sound.acyclic sound.allocated)
  rw [folds.solved] at solved
  exact ⟨within, operator, solved⟩

variable (folds : expr.Folds branch (.ok folded) grown) (sound : expr.Sound)
include folds sound

/-- A value is no operator, so it is not the branch that it stands for. -/
theorem moved : folded ≠ branch := by
  obtain ⟨within, operator, grows, stands⟩ := folds.grows sound
  rintro rfl
  have settled := stands.settled
  rw [grows.shapeAt_eq (within.allocated sound.acyclic sound.allocated), operator] at settled
  cases settled

/-- A value has fewer operators than its branch. -/
theorem operatorCount_lt : grown.operatorCount folded < grown.operatorCount branch := by
  obtain ⟨within, operator, grows, stands⟩ := folds.grows sound
  have allocated := within.allocated sound.acyclic sound.allocated
  have acyclic := grows.acyclic sound.acyclic
  have found := Arena.shape?_of_allocated (grows.allocated allocated)
  rw [← grows.shapeAt_eq allocated] at operator
  rcases stands.origin with same | below | ⟨value, literal⟩
  · exact absurd same (folds.moved sound)
  · exact acyclic.operatorCount_below found operator (grows.below_iff.mpr below)
  · rw [acyclic.operatorCount_literal (literal ▸ Arena.shape?_of_allocated stands.allocated)]
    exact acyclic.operatorCount_pos found operator .refl (grows.allocated allocated)

/-- A branch below the root can always be replaced. -/
theorem exists_splice (notRoot : branch ≠ expr.root) :
    ∃ next, Rooted.splice? { expr with arena := grown } branch folded = some next := by
  obtain ⟨within, _, grows, _⟩ := folds.grows sound
  have below := within.below_or_eq.resolve_left notRoot
  apply Option.ne_none_iff_exists'.mp
  intro refused
  exact not_below_of_splice? (grows.acyclic sound.acyclic) (grows.allocated sound.allocated) refused
    (grows.below_iff.mpr below)

/-- A round between others closes no cycle, keeps the root and takes an operator away. -/
theorem splice (isSpliced : Rooted.splice? { expr with arena := grown } branch folded = some next) :
    next.Sound ∧ next.root = expr.root ∧
      next.arena.operatorCount next.root < expr.arena.operatorCount expr.root := by
  obtain ⟨_, _, grows, stands⟩ := folds.grows sound
  have acyclic := grows.acyclic sound.acyclic
  have allocated := grows.allocated sound.allocated
  obtain ⟨kept, sameRoot⟩ := part_keepsMeaning .empty sound.acyclic sound.allocated folds.chosen
    folds.solved isSpliced
  obtain ⟨_, parent, within, respliced⟩ := splice?_eq_some acyclic allocated isSpliced
  have fewer := respliced.operatorCount_lt acyclic kept.acyclic allocated stands.allocated
    (folds.operatorCount_lt sound) within
  refine ⟨⟨kept.acyclic, ?_⟩, sameRoot, ?_⟩
  · rw [sameRoot]
    exact kept.allocated sound.allocated
  · rw [sameRoot, ← grows.operatorCount_eq sound.acyclic sound.allocated]
    exact fewer

end Folds

/-- What one round keeps and what it takes away. -/
theorem Advances.step (advances : expr.Advances next) (sound : expr.Sound) :
    next.Sound ∧ next.root = expr.root ∧
      next.arena.operatorCount next.root < expr.arena.operatorCount expr.root := by
  obtain ⟨folds, _, exchanged⟩ := advances
  exact folds.splice sound (exchange?_eq_some_iff.mp exchanged).2

/-! ## All rounds -/

/-- Between any two rounds the expression is sound. -/
theorem Sound.run (sound : expr.Sound) (run : Relation.ReflTransGen Advances expr next) :
    next.Sound := by
  induction run with
  | refl => exact sound
  | tail _ advances ih => exact (advances.step ih).1

theorem Sound.operatorCount_pos (sound : expr.Sound)
    (chosen : expr.arena.constBranch? expr.root = some branch) :
    0 < expr.arena.operatorCount expr.root := by
  obtain ⟨within, operator, _⟩ := sound.acyclic.constBranch?_sound sound.allocated chosen
  have found := Arena.shape?_of_allocated (within.allocated sound.acyclic sound.allocated)
  exact sound.acyclic.operatorCount_pos found operator within sound.allocated

/-- Within as many rounds as there are operators, the loop comes to its end. -/
theorem Sound.loops (sound : expr.Sound)
    (enough : expr.arena.operatorCount expr.root ≤ rounds) :
    ∃ taken ≤ expr.arena.operatorCount expr.root, Loops taken expr (simplifyWithin rounds expr) := by
  induction rounds generalizing expr with
  | zero =>
    refine ⟨0, Nat.zero_le _, .nothingLeft ?_⟩
    apply Option.eq_none_iff_forall_ne_some.mpr
    intro branch chosen
    have positive := sound.operatorCount_pos chosen
    omega
  | succ rounds ih =>
    generalize isOutcome : simplifyWithin (rounds + 1) expr = outcome
    have round := isOutcome ▸ simplifyWithin_round rounds expr
    cases round with
    | nothingLeft chosen => exact ⟨0, Nat.zero_le _, .nothingLeft chosen⟩
    | stops chosen solved => exact ⟨1, sound.operatorCount_pos chosen, .stops ⟨chosen, solved⟩⟩
    | whole chosen solved => exact ⟨1, sound.operatorCount_pos chosen, .whole ⟨chosen, solved⟩⟩
    | detached chosen solved notRoot refused =>
      exact ⟨1, sound.operatorCount_pos chosen, .refused ⟨chosen, solved⟩ notRoot refused⟩
    | @part branch folded grown spliced chosen solved isSpliced moved =>
      have notRoot : branch ≠ expr.root := by
        rintro rfl
        simp [splice?] at isSpliced
      have advances : expr.Advances spliced :=
        ⟨⟨chosen, solved⟩, notRoot, exchange?_eq_some_iff.mpr ⟨moved, isSpliced⟩⟩
      obtain ⟨soundNext, _, fewer⟩ := advances.step sound
      obtain ⟨taken, bound, rest⟩ := ih soundNext (by omega)
      exact ⟨taken + 1, by omega, .onward advances rest⟩

/-- Whatever the loop leads to is what folding gives. -/
theorem Sound.simplify_eq (sound : expr.Sound) (loops : Loops rounds expr outcome) :
    expr.simplify = outcome := by
  obtain ⟨taken, bound, folding⟩ := sound.loops le_rfl
  have unbounded := loops.simplifyWithin_eq (Nat.le_add_left rounds taken)
  rw [folding.simplifyWithin_eq (Nat.le_add_right taken rounds)] at unbounded
  exact unbounded

/-- Folding an expression without a cycle, of any sharing. At every stage that the loop comes to,
the arena has no cycle, nor has it one after the round that follows; a value differs from the branch
that it stands for, and a branch other than the root can be replaced by it. The loop ends, after no
more rounds than there are operators along the paths of the expression, and folding gives what it
ends with. -/
theorem folding_rounds_end (acyclic : expr.arena.Acyclic)
    (allocated : expr.arena.Allocated expr.root) :
    (∀ stage, Relation.ReflTransGen Advances expr stage → stage.arena.Acyclic ∧
      ∀ branch result grown, stage.Folds branch result grown → grown.Acyclic ∧
        ∀ folded, result = .ok folded → folded ≠ branch ∧
          (branch ≠ stage.root → ∃ next,
            Rooted.splice? { stage with arena := grown } branch folded = some next ∧
              next.arena.Acyclic)) ∧
    (∃ rounds ≤ expr.arena.operatorCount expr.root, Loops rounds expr expr.simplify) ∧
    ∀ rounds outcome, Loops rounds expr outcome → expr.simplify = outcome := by
  have sound : expr.Sound := ⟨acyclic, allocated⟩
  refine ⟨fun stage run => ?_, sound.loops le_rfl, fun _ _ => sound.simplify_eq⟩
  have soundStage := sound.run run
  refine ⟨soundStage.acyclic, fun branch result grown folds => ?_⟩
  obtain ⟨_, _, grows, _⟩ := folds.grows soundStage
  refine ⟨grows.acyclic soundStage.acyclic, ?_⟩
  rintro folded rfl
  refine ⟨folds.moved soundStage, fun notRoot => ?_⟩
  obtain ⟨next, isSpliced⟩ := folds.exists_splice soundStage notRoot
  exact ⟨next, isSpliced, (folds.splice soundStage isSpliced).1.acyclic⟩

def sharedSum : Rooted :=
  let node (shape : Shape ExprId) : Node := ⟨.builtin, .null, shape⟩
  ⟨⟨#[node (.literal (.int 1)), node (.literal (.int 2)), node (.binary .add ⟨0⟩ ⟨1⟩),
    node (.list [⟨2⟩, ⟨2⟩])]⟩, ⟨3⟩⟩

theorem folding_rounds_end_sharedSum :
    sharedSum.arena.Acyclic ∧ sharedSum.arena.Allocated sharedSum.root ∧
    sharedSum.Folds ⟨2⟩ (.ok ⟨4⟩) (sharedSum.arena.solve ⟨2⟩).2 ∧
    (∃ next, Rooted.splice? ⟨(sharedSum.arena.solve ⟨2⟩).2, ⟨3⟩⟩ ⟨2⟩ ⟨4⟩ = some next ∧
      next.arena.Acyclic) ∧
    ∃ rounds ≤ 2, Loops rounds sharedSum sharedSum.simplify := by
  have acyclic : sharedSum.arena.Acyclic := .of_ordered (by decide)
  have allocated : sharedSum.arena.Allocated sharedSum.root := by decide
  have folds : sharedSum.Folds ⟨2⟩ (.ok ⟨4⟩) (sharedSum.arena.solve ⟨2⟩).2 :=
    ⟨by decide, by rfl⟩
  obtain ⟨stages, ends, _⟩ := folding_rounds_end acyclic allocated
  obtain ⟨_, replaceable⟩ := (stages sharedSum .refl).2 ⟨2⟩ (.ok ⟨4⟩) _ folds
  exact ⟨acyclic, allocated, folds, (replaceable ⟨4⟩ rfl).2 (by decide), ends⟩

end Assay.Rooted
