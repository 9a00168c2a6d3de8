import Assay.Proofs.Manifest.Representation

/-!
Contract: the literal that an expression of a manifest stands for.
-/

namespace Assay.Manifest.Expr

/-! ## Direct evaluation -/

mutual

/-- The value of an expression of literals, names, groups, references and chains. It is `none` for
structured expressions, for names that the environment does not bind and for operators that do not
exist. -/
def denote? (env : Environment) : Expr → Option (Except FoldStop Literal)
  | .int value => some (.ok (.int value.toInt))
  | .real value => some (.ok (.real value))
  | .text value => some (.ok (.text value))
  | .bool value => some (.ok (.bool value))
  | .name spelling => (env spelling).map .ok
  | .group inner | .ref inner => denote? env inner
  | .chain first rest => (denote? env first).bind fun start => denoteRest? env start rest
  | .list _ | .construct _ _ | .index _ _ => none

def denoteRest? (env : Environment) (start : Except FoldStop Literal) :
    List (String × Expr) → Option (Except FoldStop Literal)
  | [] => some start
  | (symbol, operand) :: rest =>
      (BinOp.ofSymbol? symbol).bind fun op =>
        (denote? env operand).bind fun value =>
          denoteRest? env (do Fold.binary op (← start) (← value)) rest

end

variable {env : Environment} {place? : Option Location} {arena : Arena} {op : BinOp}
  {left right node : ExprId} {start value : Except FoldStop Literal}

/-! ## Nodes and what they denote -/

structure Means (env : Environment) (arena : Arena) (id : ExprId)
    (result : Except FoldStop Literal) : Prop where
  eval : arena.eval env id = result.map .literal
  scalar : arena.Scalar env id

/-- The meaning of an operator of a chain, when its operands denote literals. -/
theorem Means.link (acyclic : arena.Acyclic)
    (found : arena.shape? node = some (.binary op left right))
    (leftMeans : Means env arena left start) (rightMeans : Means env arena right value) :
    Means env arena node (do Fold.binary op (← start) (← value)) := by
  refine ⟨?_, .of_operands found (.inl rfl) ?_⟩
  · rw [acyclic.eval_of_shape? found]
    simp only [Shape.map, Value.ofShape, leftMeans.eval, rightMeans.eval]
    cases start with
    | error stop => rfl
    | ok start =>
      cases value with
      | error stop => rfl
      | ok value => rfl
  · simpa [Shape.children] using ⟨leftMeans.scalar, rightMeans.scalar⟩

mutual

/-- A node means what the expression it stands for denotes. -/
theorem Represents.means (acyclic : arena.Acyclic) :
    ∀ {expr : Expr} {id : ExprId} {result : Except FoldStop Literal},
      Represents place? arena expr id → denote? env expr = some result → Means env arena id result
  | .int _, id, _, found, denotes | .real _, id, _, found, denotes
  | .text _, id, _, found, denotes | .bool _, id, _, found, denotes => by
    cases denotes
    refine ⟨?_, .of_operands found (.inl rfl) (by simp [Shape.children])⟩
    rw [acyclic.eval_of_shape? found]
    rfl
  | .name spelling, id, _, found, denotes => by
    obtain ⟨value, bound, rfl⟩ := Option.map_eq_some_iff.mp denotes
    refine ⟨?_, .of_operands found (.inr ⟨spelling, value, rfl, bound⟩) (by simp [Shape.children])⟩
    rw [acyclic.eval_of_shape? found]
    simp only [Shape.map, Value.ofShape, Value.ofName, bound]
    rfl
  | .group inner, id, _, ⟨child, found, represents⟩, denotes
  | .ref inner, id, _, ⟨child, found, represents⟩, denotes => by
    obtain ⟨eval, scalar⟩ := represents.means acyclic denotes
    refine ⟨?_, .of_operands found (.inl rfl) (by simpa [Shape.children] using scalar)⟩
    rw [acyclic.eval_of_shape? found]
    exact eval
  | .chain first rest, id, _, ⟨start, represents, tail⟩, denotes => by
    obtain ⟨value, denotesFirst, denotesRest⟩ := Option.bind_eq_some_iff.mp denotes
    exact tail.means acyclic (represents.means acyclic denotesFirst) denotesRest
  | .list _, _, _, _, denotes | .construct _ _, _, _, _, denotes
  | .index _ _, _, _, _, denotes => by cases denotes

theorem RepresentsRest.means (acyclic : arena.Acyclic) :
    ∀ {rest : List (String × Expr)} {left root : ExprId} {start result : Except FoldStop Literal},
      RepresentsRest place? arena rest left root → Means env arena left start →
        denoteRest? env start rest = some result → Means env arena root result
  | [], left, root, start, result, same, means, denotes => by
    cases denotes
    exact same ▸ means
  | (symbol, operand) :: rest, left, root, start, result,
      ⟨op, right, node, known, represents, found, tail⟩, means, denotes => by
      rw [denoteRest?, known, Option.bind_some] at denotes
      obtain ⟨value, denotesOperand, denotesRest⟩ := Option.bind_eq_some_iff.mp denotes
      have operandMeans := represents.means acyclic denotesOperand
      exact tail.means acyclic (means.link acyclic found operandMeans) denotesRest

end

/-- A binary node is a literal only if both operands are, and folding them gives it. -/
theorem eval_link_ok (acyclic : arena.Acyclic)
    (found : arena.shape? node = some (.binary op left right)) {value : Literal}
    (meaning : arena.eval env node = .ok (.literal value)) :
    ∃ leftValue rightValue, arena.eval env left = .ok (.literal leftValue) ∧
      arena.eval env right = .ok (.literal rightValue) ∧
      Fold.binary op leftValue rightValue = .ok value := by
  rw [acyclic.eval_of_shape? found] at meaning
  simp only [Shape.map, Value.ofShape] at meaning
  obtain ⟨leftValue, leftMeaning, later⟩ := bind_eq_ok.mp meaning
  obtain ⟨rightValue, rightMeaning, combined⟩ := bind_eq_ok.mp later
  unfold Value.combine at combined
  split at combined
  · next leftLiteral rightLiteral =>
    obtain ⟨_, folded, ⟨⟩⟩ := map_eq_ok.mp combined
    exact ⟨leftLiteral, rightLiteral, leftMeaning, rightMeaning, folded⟩
  · cases combined

mutual

/-- A node that means a literal stands for an expression that denotes it. -/
theorem Represents.denote?_eq (acyclic : arena.Acyclic) :
    ∀ {expr : Expr} {id : ExprId} {value : Literal}, Represents place? arena expr id →
      arena.eval env id = .ok (.literal value) → denote? env expr = some (.ok value)
  | .int _, id, _, found, meaning | .real _, id, _, found, meaning
  | .text _, id, _, found, meaning | .bool _, id, _, found, meaning => by
    rw [acyclic.eval_of_shape? found] at meaning
    cases meaning
    rfl
  | .name spelling, id, _, found, meaning => by
    rw [acyclic.eval_of_shape? found] at meaning
    simp only [Shape.map, Value.ofShape, Value.ofName] at meaning
    split at meaning
    · next value bound =>
      cases meaning
      rw [denote?, bound]
      rfl
    · cases meaning
  | .group inner, id, _, ⟨child, found, represents⟩, meaning
  | .ref inner, id, _, ⟨child, found, represents⟩, meaning => by
    rw [acyclic.eval_of_shape? found] at meaning
    exact represents.denote?_eq acyclic meaning
  | .list _, _, _, ⟨elements, found, _⟩, meaning => by
    obtain ⟨_, isList, _⟩ := acyclic.eval_list_values found meaning
    cases isList
  | .chain first rest, id, _, ⟨start, represents, tail⟩, meaning => by
    obtain ⟨startValue, startMeaning, denotesRest⟩ := tail.denoteRest?_eq acyclic meaning
    rw [denote?, represents.denote?_eq acyclic startMeaning, Option.bind_some]
    exact denotesRest
  | .construct _ _, id, _, ⟨target, arguments, _, found, _⟩, meaning => by
    rw [acyclic.eval_of_shape? found] at meaning
    obtain ⟨_, _, ⟨⟩⟩ := map_eq_ok.mp meaning
  | .index _ _, id, _, ⟨source, subscript, found, _⟩, meaning => by
    rw [acyclic.eval_of_shape? found] at meaning
    obtain ⟨_, _, later⟩ := bind_eq_ok.mp meaning
    obtain ⟨_, _, ⟨⟩⟩ := bind_eq_ok.mp later

theorem RepresentsRest.denoteRest?_eq (acyclic : arena.Acyclic) :
    ∀ {rest : List (String × Expr)} {left root : ExprId} {value : Literal},
      RepresentsRest place? arena rest left root → arena.eval env root = .ok (.literal value) →
        ∃ start, arena.eval env left = .ok (.literal start) ∧
          denoteRest? env (.ok start) rest = some (.ok value)
  | [], left, root, value, same, meaning => by
    rw [same] at meaning
    exact ⟨value, meaning, rfl⟩
  | (symbol, operand) :: rest, left, root, value,
      ⟨op, right, node, known, represents, found, tail⟩, meaning => by
      obtain ⟨nodeValue, nodeMeaning, denotesRest⟩ := tail.denoteRest?_eq acyclic meaning
      obtain ⟨start, operandValue, leftMeaning, rightMeaning, folded⟩ :=
        eval_link_ok acyclic found nodeMeaning
      refine ⟨start, leftMeaning, ?_⟩
      rw [denoteRest?, known, Option.bind_some, represents.denote?_eq acyclic rightMeaning,
        Option.bind_some]
      change denoteRest? env (Fold.binary op start operandValue) rest = _
      rw [folded]
      exact denotesRest

end

end Assay.Manifest.Expr
