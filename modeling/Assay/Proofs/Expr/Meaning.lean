import Assay.Fold
import Assay.Proofs.Computation
import Assay.Proofs.Expr.Acyclic

/-!
Contract: the meaning of an expression in an environment.
-/

namespace Assay

abbrev Environment : Type :=
  String → Option Literal

/-- What an expression evaluates to. A name without a literal stands for itself; lists,
constructors and indices keep the values of their operands. -/
inductive Value where
  | literal (value : Literal)
  | name (spelling : String)
  | list (elements : List Value)
  | construct (target : Ty) (argument : Value)
  | index (source subscript : Value)

namespace Value

def ofName (env : Environment) (spelling : String) : Value :=
  match env spelling with
  | some value => .literal value
  | none => .name spelling

def combine (op : BinOp) : Value → Value → Except FoldStop Value
  | .literal left, .literal right => (Fold.binary op left right).map .literal
  | _, _ => .error (.fault (.notLiteral op))

/-- The value of a form from what its operands evaluate to. The first operand that stops, stops
the whole. -/
def ofShape (env : Environment) : Shape (Except FoldStop Value) → Except FoldStop Value
  | .literal value => .ok (.literal value)
  | .name spelling => .ok (ofName env spelling)
  | .list elements => (elements.mapM id).map .list
  | .unary _ child | .step _ child => child
  | .construct target child => child.map (.construct target)
  | .binary op left right => do combine op (← left) (← right)
  | .index source subscript => do return .index (← source) (← subscript)

/-- Computations that all give a value give the values together. -/
theorem mapM_id_eq_ok {ε α : Type} {outcomes : List (Except ε α)} {values : List α} :
    outcomes.mapM id = .ok values ↔ outcomes = values.map .ok := by
  constructor
  · intro computed
    induction outcomes generalizing values with
    | nil =>
      cases computed
      rfl
    | cons outcome outcomes ih =>
      rw [List.mapM_cons] at computed
      obtain ⟨value, isValue, later⟩ := bind_eq_ok.mp computed
      obtain ⟨others, rest, joined⟩ := bind_eq_ok.mp later
      cases joined
      exact congrArg₂ List.cons isValue (ih rest)
  · rintro rfl
    induction values with
    | nil => rfl
    | cons value values ih =>
      rw [List.map_cons, List.mapM_cons, ih]
      rfl

/-- A list that has a value is the list of the values of its elements. -/
theorem ofShape_list_ok {env : Environment} {elements : List (Except FoldStop Value)}
    {value : Value} (computed : ofShape env (.list elements) = .ok value) :
    ∃ values, value = .list values ∧ elements = values.map .ok := by
  obtain ⟨values, isOutcome, rfl⟩ := map_eq_ok.mp computed
  exact ⟨values, rfl, mapM_id_eq_ok.mp isOutcome⟩

theorem combine_ok {op : BinOp} {left right value : Value}
    (combined : combine op left right = .ok value) : ∃ literal, value = .literal literal := by
  unfold combine at combined
  split at combined
  · obtain ⟨literal, _, rfl⟩ := map_eq_ok.mp combined
    exact ⟨literal, rfl⟩
  · cases combined

end Value

namespace Arena

variable {arena : Arena} {id : ExprId} {node : Node} {env : Environment}

def eval (arena : Arena) (env : Environment) : ExprId → Except FoldStop Value :=
  arena.fold (.error .trap) fun _ _ operands => Value.ofShape env operands

theorem Acyclic.eval_eq (acyclic : arena.Acyclic) (found : arena.node? id = some node) :
    arena.eval env id = Value.ofShape env (node.shape.map (arena.eval env)) :=
  acyclic.fold_eq _ _ found

theorem Acyclic.eval_of_shape? (acyclic : arena.Acyclic)
    {shape : Shape ExprId} (found : arena.shape? id = some shape) :
    arena.eval env id = Value.ofShape env (shape.map (arena.eval env)) := by
  obtain ⟨node, isNode, rfl⟩ := shape?_eq_some_iff.mp found
  exact acyclic.eval_eq isNode

theorem Acyclic.eval_of_shapeAt (acyclic : arena.Acyclic) (allocated : arena.Allocated id)
    {shape : Shape ExprId} (shapeEq : arena.shapeAt id = shape) :
    arena.eval env id = Value.ofShape env (shape.map (arena.eval env)) := by
  obtain ⟨node, found⟩ := exists_node? allocated
  rw [acyclic.eval_eq found, ← shapeEq, shapeAt_of_node? found]

theorem Grows.eval_eq {before after : Arena} (grows : before.Grows after)
    (acyclic : before.Acyclic) (allocated : before.Allocated id) :
    after.eval env id = before.eval env id :=
  grows.fold_eq acyclic _ _ allocated

/-- A literal means itself in every environment. -/
theorem eval_literal (found : arena.node? id = some node) {value : Literal}
    (literal : node.shape = .literal value) : arena.eval env id = .ok (.literal value) := by
  have allocated := allocated_of_node? found
  obtain ⟨depth, sizeEq⟩ : ∃ depth, arena.size = depth + 1 :=
    ⟨arena.size - 1, by unfold Allocated at allocated; omega⟩
  rw [eval, fold, sizeEq, foldWithin_of_node? _ _ found, literal]
  rfl

theorem shape?_of_literal? {value : Literal} (allocated : arena.Allocated id)
    (literal : arena.literal? id = some value) : arena.shape? id = some (.literal value) := by
  rw [shape?_of_allocated allocated]
  unfold literal? at literal
  cases form : arena.shapeAt id with
  | literal _ =>
    rw [form] at literal
    cases literal
    rfl
  | _ => simp [form, Shape.literal?] at literal

theorem eval_of_literal? {value : Literal} (allocated : arena.Allocated id)
    (literal : arena.literal? id = some value) : arena.eval env id = .ok (.literal value) := by
  obtain ⟨node, found, isLiteral⟩ := shape?_eq_some_iff.mp (shape?_of_literal? allocated literal)
  exact eval_literal found isLiteral

theorem Acyclic.eval_list_values (acyclic : arena.Acyclic) {elements : List ExprId}
    (found : arena.shape? id = some (.list elements)) {value : Value}
    (meaning : arena.eval env id = .ok value) :
    ∃ values, value = .list values ∧ elements.map (arena.eval env) = values.map .ok := by
  rw [acyclic.eval_of_shape? found] at meaning
  exact Value.ofShape_list_ok meaning

theorem Acyclic.eval_binary_literal (acyclic : arena.Acyclic) {op : BinOp} {left right : ExprId}
    (found : arena.shape? id = some (.binary op left right)) {value : Value}
    (meaning : arena.eval env id = .ok value) : ∃ literal, value = .literal literal := by
  rw [acyclic.eval_of_shape? found] at meaning
  obtain ⟨_, _, later⟩ := bind_eq_ok.mp meaning
  obtain ⟨_, _, combined⟩ := bind_eq_ok.mp later
  exact Value.combine_ok combined

end Arena

end Assay
