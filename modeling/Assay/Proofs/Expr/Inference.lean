import Assay.Proofs.Expr.Trees

/-!
Contract: types that are derived from the leaves, and types that are remembered at nodes.
-/

namespace Assay

def Shape.isAtom {α : Type} : Shape α → Bool
  | .literal _ | .name _ => true
  | _ => false

theorem Shape.children_atom {α : Type} {shape : Shape α} (atom : shape.isAtom = true) :
    shape.children = [] := by
  cases shape <;> first | rfl | cases atom

namespace Arena

variable {arena before after : Arena} {id root parent old new : ExprId} {node : Node}

/-! ## Derived types -/

/-- The type of a node whose operands have the types given, whatever is remembered for it. -/
def inferStep (node : Node) (operands : Shape Ty) : Ty :=
  match operands with
  | .literal _ | .name _ => node.ty
  | .list [] => .null
  | .list (first :: _) => first
  | .unary .group child | .step _ child => child
  | .unary .ref child => child.asRef
  | .construct target _ => target
  | .binary _ left _ => left
  | .index source _ => source.element

/-- The type of a node, from the types of the literals and names below it and the targets of
constructors alone. -/
def inferType (arena : Arena) : ExprId → Ty :=
  arena.fold .null fun _ node operands => inferStep node operands

theorem typeStep_unknown (unknown : node.ty.isNull = true) (operands : Shape Ty) :
    typeStep node operands = inferStep node operands := by
  unfold typeStep
  rw [if_pos unknown]
  rfl

theorem typeStep_known (known : node.ty.isNull = false) (operands : Shape Ty) :
    typeStep node operands = node.ty := by
  unfold typeStep
  rw [known]
  rfl

theorem inferStep_atom {operands : Shape Ty} (atom : operands.isAtom = true) :
    inferStep node operands = node.ty := by
  cases operands <;> first | rfl | cases atom

/-- To remember a derived type does not change what is derived. -/
theorem inferStep_remembered (node : Node) (operands : Shape Ty) :
    inferStep { node with ty := inferStep node operands } operands = inferStep node operands := by
  cases operands with
  | list elements => cases elements <;> rfl
  | unary op child => cases op <;> rfl
  | _ => rfl

theorem Acyclic.inferType_eq (acyclic : arena.Acyclic) (isNode : arena.node? id = some node) :
    arena.inferType id = inferStep node (node.shape.map arena.inferType) :=
  acyclic.fold_eq _ _ isNode

theorem Acyclic.inferType_atom (acyclic : arena.Acyclic) (isNode : arena.node? id = some node)
    (atom : node.shape.isAtom = true) : arena.inferType id = node.ty := by
  rw [acyclic.inferType_eq isNode]
  apply inferStep_atom
  cases form : node.shape <;> rw [form] at atom <;> first | rfl | cases atom

theorem Acyclic.inferType_construct (acyclic : arena.Acyclic) {target : Ty} {child : ExprId}
    (found : arena.shape? id = some (.construct target child)) : arena.inferType id = target := by
  obtain ⟨node, isNode, form⟩ := shape?_eq_some_iff.mp found
  rw [acyclic.inferType_eq isNode, form]
  rfl

theorem Untouched.inferType_eq (untouched : Untouched before after root) (acyclic : before.Acyclic)
    (acyclicAfter : after.Acyclic) (allocated : before.Allocated root) :
    after.inferType root = before.inferType root :=
  untouched.fold_eq acyclic acyclicAfter allocated _ _

/-! ## Remembered types -/

/-- Every type that is remembered within `root` is the derived one. -/
def Current (arena : Arena) (root : ExprId) : Prop :=
  ∀ ⦃id node⦄, arena.Within id root → arena.node? id = some node → node.ty.isNull = false →
    node.ty = arena.inferType id

/-- Within `root` only literals and names have types. -/
def Untyped (arena : Arena) (root : ExprId) : Prop :=
  ∀ ⦃id node⦄, arena.Within id root → arena.node? id = some node →
    node.shape.isAtom = true ∨ node.ty.isNull = true

theorem Untyped.current (untyped : arena.Untyped root) (acyclic : arena.Acyclic) :
    arena.Current root := by
  intro id node within isNode known
  rcases untyped within isNode with atom | unknown
  · rw [acyclic.inferType_atom isNode atom]
  · rw [known] at unknown
    cases unknown

theorem Untyped.within (untyped : arena.Untyped root) (within : arena.Within id root) :
    arena.Untyped id :=
  fun _ _ below => untyped (below.trans within)

theorem Untyped.untouched (untyped : before.Untyped root) (untouched : Untouched before after root) :
    after.Untyped root := by
  intro id node within isNode
  have withinBefore := untouched.within_iff.mp within
  rw [untouched withinBefore] at isNode
  exact untyped withinBefore isNode

namespace Current

theorem within (current : arena.Current root) (within : arena.Within id root) : arena.Current id :=
  fun _ _ below => current (below.trans within)

theorem of_operands (isNode : arena.node? root = some node)
    (own : node.ty.isNull = false → node.ty = arena.inferType root)
    (operands : ∀ child ∈ node.shape.children, arena.Current child) : arena.Current root := by
  intro id other within isOther known
  rcases Relation.ReflTransGen.cases_tail within with rfl | ⟨child, below, operand⟩
  · rw [isNode] at isOther
    cases isOther
    exact own known
  · exact operands child ((operand_iff isNode).mp operand) below isOther known

/-- To read a type is to derive it. -/
theorem typeOf_eq (current : arena.Current root) (acyclic : arena.Acyclic)
    (allocated : arena.Allocated root) : arena.typeOf root = arena.inferType root := by
  revert current
  refine acyclic.induction ?_ root allocated
  intro root node isNode operands current
  have readOff : arena.typeOf root = typeStep node (node.shape.map arena.typeOf) :=
    acyclic.fold_eq _ _ isNode
  have sameOperands : node.shape.map arena.typeOf = node.shape.map arena.inferType :=
    Shape.map_congr fun child member =>
      operands child member (current.within (.single (operand_of_mem isNode member)))
  rw [readOff, sameOperands]
  cases known : node.ty.isNull with
  | true => rw [typeStep_unknown known, acyclic.inferType_eq isNode]
  | false => rw [typeStep_known known, current .refl isNode known]

theorem untouched (current : before.Current root) (untouched : Untouched before after root)
    (acyclic : before.Acyclic) (acyclicAfter : after.Acyclic) : after.Current root := by
  intro id node within isNode known
  have withinBefore := untouched.within_iff.mp within
  rw [untouched withinBefore] at isNode
  rw [(untouched.within withinBefore).inferType_eq acyclic acyclicAfter
    (allocated_of_node? isNode)]
  exact current withinBefore isNode known

end Current

/-! ## Remembering one more type -/

theorem Acyclic.inferType_setType (acyclic : arena.Acyclic) (id : ExprId)
    (acyclicAfter : (arena.setType id (arena.inferType id)).Acyclic) {other : ExprId}
    (allocated : arena.Allocated other) :
    (arena.setType id (arena.inferType id)).inferType other = arena.inferType other := by
  refine acyclic.induction ?_ other allocated
  intro other node isNode operands
  have sameOperands := Shape.map_congr operands
  rw [acyclic.inferType_eq isNode]
  by_cases same : id = other
  · subst same
    have isNodeAfter : (arena.setType id (arena.inferType id)).node? id =
        some { node with ty := arena.inferType id } := by
      rw [node?_setType, if_pos rfl, isNode]
      rfl
    rw [acyclicAfter.inferType_eq isNodeAfter]
    simp only [sameOperands]
    rw [acyclic.inferType_eq isNode]
    exact inferStep_remembered node _
  · have isNodeAfter : (arena.setType id (arena.inferType id)).node? other = some node := by
      rw [node?_setType, if_neg same, isNode]
    rw [acyclicAfter.inferType_eq isNodeAfter, sameOperands]

/-! ## Splices -/

/-- What does not have its type from its operands has it from the same source after a splice. -/
theorem Respliced.inferType_eq (respliced : Respliced before after parent old new)
    (acyclic : before.Acyclic) (acyclicAfter : after.Acyclic) {later : Node}
    (isNode : before.node? id = some node) (isLater : after.node? id = some later)
    (sameType : later.ty = node.ty) (given : node.shape.typeIsDerived = false) :
    after.inferType id = before.inferType id := by
  have found := shape?_of_node? isNode
  have foundLater := shape?_of_node? isLater
  by_cases isParent : id = parent
  · obtain ⟨shape, replaced, foundShape, foundReplaced, isReplaced⟩ := respliced.exists_shapes
    rw [← isParent, found] at foundShape
    rw [← isParent, foundLater] at foundReplaced
    cases foundShape
    cases foundReplaced
    cases form : node.shape with
    | construct target child =>
      rw [form, Shape.replaceFirst?] at isReplaced
      split at isReplaced
      · injection isReplaced with sameForm
        rw [← sameForm] at foundLater
        rw [form] at found
        rw [acyclicAfter.inferType_construct foundLater, acyclic.inferType_construct found]
      · cases isReplaced
    | literal _ | name _ =>
      rw [form] at isReplaced
      cases isReplaced
    | _ =>
      rw [form] at given
      cases given
  · rw [respliced.elsewhere isParent, found] at foundLater
    injection foundLater with sameForm
    rw [acyclicAfter.inferType_eq isLater, acyclic.inferType_eq isNode, ← sameForm]
    cases form : node.shape with
    | literal _ | name _ => exact sameType
    | construct _ _ => rfl
    | _ =>
      rw [form] at given
      cases given

namespace Grafted

variable {start : List Nat} {slot : Nat}

/-- Above a changed operand no type is remembered but those of constructors. -/
theorem type_above (grafted : Grafted before after root start slot old new)
    (respliced : Respliced before after parent old new) (acyclic : before.Acyclic)
    (acyclicAfter : after.Acyclic) (current : before.Current root)
    (isAbove : before.Above root start id) (isNode : after.node? id = some node)
    (known : node.ty.isNull = false) : node.ty = after.inferType id := by
  obtain ⟨earlier, isEarlier⟩ :=
    exists_node? (respliced.allocated_iff.mp (allocated_of_node? isNode))
  obtain ⟨shape, isAfter⟩ := grafted.above isAbove isEarlier
  obtain rfl : node = { earlier.forgotten with shape := shape } :=
    Option.some.inj (isNode.symm.trans isAfter)
  cases given : earlier.shape.typeIsDerived with
  | true =>
    rw [Node.forgotten, if_pos given] at known
    cases known
  | false =>
    have kept : earlier.forgotten = earlier := by
      rw [Node.forgotten, given]
      rfl
    have sameType : earlier.forgotten.ty = earlier.ty := congrArg Node.ty kept
    rw [respliced.inferType_eq acyclic acyclicAfter isEarlier isNode sameType given]
    obtain ⟨path, _, leads⟩ := isAbove
    dsimp only at known ⊢
    rw [sameType] at known ⊢
    exact current (within_of_follow? leads) isEarlier known

/-- A splice in a tree leaves no type behind that is not the derived one. -/
theorem current (grafted : Grafted before after root start slot old new)
    (respliced : Respliced before after parent old new) (tree : before.Tree root)
    (supplies : Supplies before root old new) (acyclic : before.Acyclic)
    (acyclicAfter : after.Acyclic) (current : before.Current root)
    (newCurrent : before.Current new) : after.Current root := by
  intro id node within isNode known
  have left {top : ExprId} (current : before.Current top) (untouched : Untouched before after top)
      (within : before.Within id top) : node.ty = after.inferType id :=
    current.untouched untouched acyclic acyclicAfter (untouched.within_iff.mpr within) isNode known
  rcases grafted.within_cases tree supplies within with inRoot | inNew
  · by_cases isAbove : before.Above root start id
    · exact grafted.type_above respliced acyclic acyclicAfter current isAbove isNode known
    · exact left (current.within inRoot) (grafted.untouched_beside tree inRoot isAbove) .refl
  · exact left newCurrent (grafted.untouched_new tree supplies) inNew

end Grafted

end Arena

end Assay
