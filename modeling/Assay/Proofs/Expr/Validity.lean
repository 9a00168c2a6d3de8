import Assay.Expr.Validity
import Assay.Proofs.Expr.Resolution

/-!
Contract: what the checks of a resolved expression say.
-/

namespace Assay

/-! ## Verdicts -/

namespace Verdict

variable {verdicts : List Verdict}

theorem ok_of_all (ok : (all verdicts).ok = true) : ∀ verdict ∈ verdicts, verdict.ok = true := by
  induction verdicts with
  | nil => simp
  | cons first verdicts ih =>
    obtain ⟨firstOk, othersOk⟩ := Bool.and_eq_true_iff.mp ok
    intro verdict member
    rcases List.mem_cons.mp member with rfl | later
    · exact firstOk
    · exact ih othersOk verdict later

theorem all_pass (pass : ∀ verdict ∈ verdicts, verdict = .pass) : all verdicts = .pass := by
  induction verdicts with
  | nil => rfl
  | cons verdict verdicts ih =>
    show verdict.and (all verdicts) = .pass
    have others := ih fun other member => pass other (by simp [member])
    rw [pass verdict (by simp), others]
    rfl

theorem ok_of_ensure {condition : Bool} {entry : Entry} (ok : (ensure condition entry).ok = true) :
    condition = true := by
  cases condition
  · cases ok
  · rfl

end Verdict

namespace Arena

variable {arena : Arena} {id inner root : ExprId} {node : Node} {session : Session} {loc : Location}
variable {env : Environment}

/-! ## Passed checks -/

theorem Acyclic.check_eq (acyclic : arena.Acyclic) (isNode : arena.node? id = some node) :
    arena.check session id = (Verdict.all (node.shape.children.map (arena.check session))).and
      (arena.checkNode session node) := by
  rw [← Shape.children_map]
  exact acyclic.fold_eq _ _ isNode

/-- A check that passes at the root has passed at every node below it. -/
theorem Acyclic.check_within (acyclic : arena.Acyclic) (ok : (arena.check session root).ok = true)
    (within : arena.Within inner root) : (arena.check session inner).ok = true := by
  induction within using Relation.ReflTransGen.head_induction_on with
  | refl => exact ok
  | head operand _ passed =>
    obtain ⟨node, isNode, member⟩ := operand
    rw [acyclic.check_eq isNode] at passed
    have operands := Verdict.ok_of_all (Bool.and_eq_true_iff.mp passed).1
    exact operands _ (List.mem_map_of_mem member)

theorem Acyclic.checkNode_within (acyclic : arena.Acyclic)
    (ok : (arena.check session root).ok = true) (within : arena.Within inner root)
    (isNode : arena.node? inner = some node) : (arena.checkNode session node).ok = true := by
  have passed := acyclic.check_within ok within
  rw [acyclic.check_eq isNode] at passed
  exact (Bool.and_eq_true_iff.mp passed).2

theorem accepts_of_checkArguments {values members : List Ty}
    (ok : (checkArguments loc values members).ok = true) {slot : Nat} {value member : Ty}
    (isValue : values[slot]? = some value) (isMember : members[slot]? = some member) :
    member.accepts value = true := by
  have paired : (values.zip members)[slot]? = some (value, member) :=
    List.getElem?_zip_eq_some.mpr ⟨isValue, isMember⟩
  refine Verdict.ok_of_ensure (Verdict.ok_of_all ok (.ensure _
    (.error loc (.argumentTypeMismatch slot member.text value.text))) ?_)
  refine List.mem_of_getElem? (i := slot) ?_
  rw [List.getElem?_mapIdx, paired]
  rfl

/-- A constructor that passes: its struct, no more arguments than declared members, and each
argument of a type that its member accepts. -/
structure Constructs (arena : Arena) (session : Session) (target : Ty) (elements : List ExprId)
    (struct : StructId) : Prop where
  kind : target.kind = .struct struct
  count : elements.length ≤ (session.structAt struct).declaredCount
  accepts : ∀ ⦃slot : Nat⦄ ⦃element : ExprId⦄ ⦃member : Member⦄, elements[slot]? = some element →
    (session.structAt struct).members[slot]? = some member →
      member.ty.accepts (arena.typeOf element) = true

theorem constructs_of_checkConstructor {target : Ty} {child : ExprId} {elements : List ExprId}
    (isList : arena.shape? child = some (.list elements))
    (ok : (arena.checkConstructor session loc target child).ok = true) :
    ∃ struct, Constructs arena session target elements struct := by
  have outputs : arena.outputs child = elements := by
    rw [Arena.outputs, shapeAt_of_shape? isList]
  unfold checkConstructor at ok
  split at ok
  · cases ok
  next struct isStruct =>
  rw [outputs] at ok
  dsimp only at ok
  split at ok
  · cases ok
  next few =>
  refine ⟨struct, ?_, by simpa using few, fun slot element member isElement isMember => ?_⟩
  · unfold Ty.struct? at isStruct
    split at isStruct
    · next isKind =>
      cases isStruct
      exact isKind
    · cases isStruct
  · have isValue : (elements.map arena.typeOf)[slot]? = some (arena.typeOf element) := by
      rw [List.getElem?_map, isElement]
      rfl
    have isType : ((session.structAt struct).members.map Member.ty)[slot]? = some member.ty := by
      rw [List.getElem?_map, isMember]
      rfl
    exact accepts_of_checkArguments ok isValue isType

/-! ## Scalar expressions -/

/-- A scalar expression is constant if the types of its names are const. -/
theorem isConst_of_scalar (acyclic : arena.Acyclic) (allocated : arena.Allocated root)
    (scalar : arena.Scalar env root)
    (constNames : ∀ ⦃inner node name⦄, arena.Within inner root → arena.node? inner = some node →
      node.shape = .name name → node.ty.isConst = true) : arena.isConst root = true := by
  refine acyclic.induction (motive := fun id => arena.Within id root → arena.isConst id = true) ?_
    root allocated .refl
  intro id node isNode operands within
  have inner := scalar.within within
  have isShape := shape?_of_node? isNode
  have operandConst : ∀ child ∈ node.shape.children, arena.isConst child = true :=
    fun child member => operands child member (within.head (operand_of_mem isNode member))
  have unfolded : arena.isConst id = arena.constStep node (node.shape.map arena.isConst) :=
    acyclic.fold_eq _ _ isNode
  rw [unfolded]
  rcases inner.cases isShape with ⟨value, isLiteral⟩ | ⟨name, value, isName, _⟩ | operator
  · rw [isLiteral]
    rfl
  · rw [isName]
    exact constNames within isNode isName
  · cases shape : node.shape with
    | unary op child => simp [shape, Shape.map, constStep, operandConst, Shape.children]
    | step op child => simp [shape, Shape.map, constStep, operandConst, Shape.children]
    | binary op left right => simp [shape, Shape.map, constStep, operandConst, Shape.children]
    | _ => simp [shape, Shape.isOperator] at operator

/-- There is nothing to check about scalar expressions. -/
theorem check_scalar (acyclic : arena.Acyclic) (allocated : arena.Allocated root)
    (scalar : arena.Scalar env root) : arena.check session root = .pass := by
  refine acyclic.induction (motive := fun id => arena.Within id root →
    arena.check session id = .pass) ?_ root allocated .refl
  intro id node isNode operands within
  have isShape := shape?_of_node? isNode
  have operandsPass : Verdict.all (node.shape.children.map (arena.check session)) = .pass := by
    apply Verdict.all_pass
    intro verdict member
    obtain ⟨child, isChild, rfl⟩ := List.mem_map.mp member
    exact operands child isChild (within.head (operand_of_mem isNode isChild))
  have nodePass : arena.checkNode session node = .pass := by
    rcases (scalar.within within).cases isShape with
      ⟨value, form⟩ | ⟨name, value, form, _⟩ | operator
    · simp only [checkNode, form]
    · simp only [checkNode, form]
    · cases form : node.shape <;> simp_all [checkNode, Shape.isOperator]
  rw [acyclic.check_eq isNode, operandsPass, nodePass]
  rfl

theorem requireConst_scalar (scalar : arena.Scalar env root) (isConst : arena.isConst root = true) :
    arena.requireConst root = .pass := by
  obtain ⟨shape, found, form⟩ := scalar .refl
  rw [requireConst, shapeAt_of_shape? found]
  split
  · rcases form with closed | ⟨_, _, named, _⟩
    · cases closed
    · cases named
  · rcases form with closed | ⟨_, _, named, _⟩
    · cases closed
    · cases named
  · rw [Verdict.ensure, if_pos isConst]

end Arena

end Assay
