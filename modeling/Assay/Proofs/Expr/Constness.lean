import Assay.Proofs.Expr.Reporting

/-!
Contract: the structural test for constants against the demand for one.
-/

namespace Assay.Arena

variable {arena : Arena} {id : ExprId} {node : Node}

theorem Acyclic.isConst_eq (acyclic : arena.Acyclic) (isNode : arena.node? id = some node) :
    arena.isConst id = arena.constStep node (node.shape.map arena.isConst) :=
  acyclic.fold_eq _ _ isNode

theorem ok_checkOutputs (outputs : List ExprId) :
    (arena.checkOutputs outputs).ok = outputs.all fun output => (arena.typeOf output).isConst := by
  rw [checkOutputs]
  split
  · next passed =>
    have isConst : ∀ output ∈ outputs, (arena.typeOf output).isConst = true := by
      simpa using List.findIdx?_eq_none_iff.mp passed
    exact (List.all_eq_true.mpr isConst).symm
  · next index refused =>
    obtain ⟨held, offends, _⟩ := List.findIdx?_eq_some_iff_getElem.mp refused
    symm
    apply List.all_eq_false.mpr
    exact ⟨outputs[index], List.getElem_mem held, by simpa using offends⟩

/-- Whatever the form, a refusal says one thing. -/
theorem length_requireConst (id : ExprId) :
    (arena.requireConst id).entries.length = (!(arena.requireConst id).ok).toNat := by
  have outputs : ∀ ids, (arena.checkOutputs ids).entries.length =
      (!(arena.checkOutputs ids).ok).toNat := by
    intro ids
    unfold checkOutputs
    split <;> rfl
  unfold requireConst
  split
  · exact outputs _
  · exact outputs _
  · cases arena.isConst id <;> rfl

/-- The demand for a constant and the structural test are one on every expression that is not a
list. A list passes the structural test if its elements do, and meets the demand if their types are
const, which is neither more nor less. A refusal is exactly one error. -/
theorem requireConst_against_isConst (acyclic : arena.Acyclic)
    (isNode : arena.node? id = some node) :
    ((∀ elements, node.shape ≠ .list elements) →
      (arena.requireConst id).ok = arena.isConst id) ∧
    (∀ elements, node.shape = .list elements →
      ((arena.requireConst id).ok = true ↔
        ∀ element ∈ elements, (arena.typeOf element).isConst = true) ∧
      (arena.isConst id = true ↔ ∀ element ∈ elements, arena.isConst element = true)) ∧
    (arena.requireConst id).entries.length = (!(arena.requireConst id).ok).toNat ∧
    ∀ entry ∈ (arena.requireConst id).entries, entry.IsError := by
  refine ⟨fun notList => ?_, fun elements isList => ⟨?_, ?_⟩, length_requireConst id,
    (requireConst_explained id).errors⟩
  · rw [requireConst, shapeAt_of_node? isNode]
    split
    · next target child isConstruct =>
        rw [ok_checkOutputs, acyclic.isConst_eq isNode, isConstruct]
        simp [constStep, Shape.map, Shape.children, isConstruct]
    · next elements isList => exact absurd isList (notList elements)
    · cases arena.isConst id <;> rfl
  · rw [requireConst, shapeAt_of_node? isNode, isList]
    simp [ok_checkOutputs]
  · rw [acyclic.isConst_eq isNode, isList]
    simp [constStep, Shape.map]

def listsOfOne : Arena :=
  ⟨#[⟨default, .null, .list []⟩, ⟨default, .null, .list [⟨0⟩]⟩,
    ⟨default, (Literal.text "abc").naturalType default, .literal (.text "abc")⟩,
    ⟨default, (Literal.int 0).naturalType default, .literal (.int 0)⟩,
    ⟨default, .null, .index ⟨2⟩ ⟨3⟩⟩, ⟨default, .null, .list [⟨4⟩]⟩]⟩

theorem requireConst_against_isConst_listsOfOne :
    (listsOfOne.requireConst ⟨5⟩).ok = true ↔
      ∀ element ∈ [(⟨4⟩ : ExprId)], (listsOfOne.typeOf element).isConst = true :=
  ((requireConst_against_isConst (Acyclic.of_ordered (by decide)) rfl).2.1 _ rfl).1

/-- On a list either test may pass where the other fails. -/
theorem requireConst_differs_from_isConst : listsOfOne.Acyclic ∧
    listsOfOne.isConst ⟨1⟩ = true ∧ (listsOfOne.requireConst ⟨1⟩).ok = false ∧
    listsOfOne.isConst ⟨5⟩ = false ∧ (listsOfOne.requireConst ⟨5⟩).ok = true := by
  refine ⟨Acyclic.of_ordered (by decide), ?_, ?_, ?_, ?_⟩ <;> decide +kernel

end Assay.Arena
