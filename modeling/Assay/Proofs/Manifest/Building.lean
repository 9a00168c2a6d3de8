import Assay.Proofs.Manifest.Representation

/-!
Contract: what is computed from the nodes of an expression, read off the expression itself.
-/

namespace Assay

/-- Combine the layers of an arena, regardless of where they stand and of their types. -/
def Arena.combine {α : Type} (arena : Arena) (stop : α) (step : Shape α → α) : ExprId → α :=
  arena.fold stop fun _ _ operands => step operands

theorem Arena.Acyclic.combine_of_shape? {α : Type} {arena : Arena} (acyclic : arena.Acyclic)
    (stop : α) (step : Shape α → α) {id : ExprId} {shape : Shape ExprId}
    (found : arena.shape? id = some shape) :
    arena.combine stop step id = step (shape.map (arena.combine stop step)) := by
  obtain ⟨node, isNode, rfl⟩ := Arena.shape?_eq_some_iff.mp found
  exact acyclic.fold_eq _ _ isNode

namespace Manifest.Expr

variable {α : Type}

/-! ## The fold of an expression -/

section Fold

variable (loc : Location) (step : Shape α → α)

mutual

def fold : Expr → α
  | .int value => step (.literal (.int value.toInt))
  | .real value => step (.literal (.real value))
  | .text value => step (.literal (.text value))
  | .bool value => step (.literal (.bool value))
  | .name spelling => step (.name spelling)
  | .group inner => step (.unary .group (fold inner))
  | .ref inner => step (.unary .ref (fold inner))
  | .list values => step (.list (foldAll values))
  | .chain first rest => foldRest (fold first) rest
  | .construct type values => step (.construct (.ofName type loc) (step (.list (foldAll values))))
  | .index source subscript => step (.index (fold source) (fold subscript))

def foldAll : List Expr → List α
  | [] => []
  | value :: rest => fold value :: foldAll rest

/-- The operators of a chain apply from the left. Those that do not exist are passed over. -/
def foldRest (left : α) : List (String × Expr) → α
  | [] => left
  | (symbol, operand) :: rest =>
      match BinOp.ofSymbol? symbol with
      | some op => foldRest (step (.binary op left (fold operand))) rest
      | none => foldRest left rest

end

end Fold

/-! ## Allocated expressions -/

section Allocated

variable (stop : α) (step : Shape α → α) {loc : Location} {arena : Arena}

mutual

/-- The node that stands for an expression computes what the expression does. -/
theorem Represents.combine_eq (acyclic : arena.Acyclic) : ∀ {expr : Expr} {id : ExprId},
    Represents (some loc) arena expr id → arena.combine stop step id = expr.fold loc step
  | .int _, _, found | .real _, _, found | .text _, _, found | .bool _, _, found
  | .name _, _, found => by
    rw [acyclic.combine_of_shape? stop step found, fold]
    rfl
  | .group _, _, ⟨child, found, inner⟩ | .ref _, _, ⟨child, found, inner⟩ => by
    rw [acyclic.combine_of_shape? stop step found, fold, ← inner.combine_eq acyclic]
    rfl
  | .list _, _, ⟨elements, found, all⟩ => by
    rw [acyclic.combine_of_shape? stop step found, fold, ← all.combine_eq acyclic]
    rfl
  | .chain _ _, _, ⟨start, first, rest⟩ => by
    rw [rest.combine_eq acyclic, fold, first.combine_eq acyclic]
  | .construct type _, _, ⟨target, arguments, elements, found, written, foundList, all⟩ => by
    cases written loc rfl
    rw [acyclic.combine_of_shape? stop step found, fold, ← all.combine_eq acyclic, Shape.map,
      acyclic.combine_of_shape? stop step foundList]
    rfl
  | .index _ _, _, ⟨source, subscript, found, first, second⟩ => by
    rw [acyclic.combine_of_shape? stop step found, fold, ← first.combine_eq acyclic,
      ← second.combine_eq acyclic]
    rfl

theorem RepresentsAll.combine_eq (acyclic : arena.Acyclic) :
    ∀ {values : List Expr} {ids : List ExprId}, RepresentsAll (some loc) arena values ids →
      ids.map (arena.combine stop step) = foldAll loc step values
  | [], _, isNil => by
    rw [isNil, foldAll]
    rfl
  | _ :: _, _, ⟨first, others, split, represents, rest⟩ => by
    rw [split, foldAll, ← represents.combine_eq acyclic, ← rest.combine_eq acyclic]
    rfl

theorem RepresentsRest.combine_eq (acyclic : arena.Acyclic) :
    ∀ {rest : List (String × Expr)} {left root : ExprId},
      RepresentsRest (some loc) arena rest left root →
        arena.combine stop step root = foldRest loc step (arena.combine stop step left) rest
  | [], _, _, same => by
    rw [same, foldRest]
  | (_, _) :: _, _, _, ⟨op, right, node, known, represents, found, others⟩ => by
    rw [others.combine_eq acyclic, foldRest, known, acyclic.combine_of_shape? stop step found,
      ← represents.combine_eq acyclic]
    rfl

end

theorem combine_of_lower (loc : Location) {expr : Expr} {before after : Arena} {id : ExprId}
    (acyclic : before.Acyclic) (built : (lower loc expr).run.run before = (.ok id, after)) :
    after.combine stop step id = expr.fold loc step := by
  have yields := yields_of_lower built
  exact (yields.result rfl).2.combine_eq stop step (yields.extension.acyclic acyclic)

end Allocated

end Manifest.Expr

end Assay
