import Assay.Proofs.Expr.Nodewise
import Assay.Proofs.Ty.Admission

/-!
Contract: the types of literals and the targets of constructors.
-/

namespace Assay

def Session.TypedIn (session : Session) (scope : ScopeId) : Prop :=
  ∀ ⦃name ty value⦄, session.value? scope name = some ⟨ty, some value⟩ → ty.Admits value

variable {shape : Shape ExprId} {old new : ExprId} {value : Literal}

/-- A form with an operand to replace is no literal. -/
theorem Shape.replaceFirst?_ne_literal : shape.replaceFirst? old new ≠ some (.literal value) := by
  intro replaced
  cases shape <;> simp only [replaceFirst?] at replaced <;> (repeat' split at replaced) <;>
    cases replaced

/-- Replacing an operand keeps the target of a constructor. -/
theorem Shape.replaceFirst?_eq_construct {child : ExprId} {target : Ty}
    (replaced : shape.replaceFirst? old new = some (.construct target child)) :
    ∃ earlier, shape = .construct target earlier := by
  cases shape <;> simp only [replaceFirst?] at replaced <;> (repeat' split at replaced) <;>
    cases replaced
  exact ⟨_, rfl⟩

/-- The type of a literal admits it, and the target of a constructor is canonical. -/
structure Node.Fits (node : Node) : Prop where
  literal : ∀ value, node.shape = .literal value → node.ty.Admits value
  target : ∀ target child, node.shape = .construct target child → target.Canonical

theorem Node.Fits.natural (inRange : value.InRange) (loc : Location) :
    Node.Fits ⟨loc, value.naturalType loc, .literal value⟩ := by
  refine ⟨fun other literal => ?_, fun _ _ construct => by cases construct⟩
  cases literal
  exact Ty.admits_naturalType inRange loc

theorem Node.Fits.unknown (notLiteral : ∀ value, shape ≠ .literal value)
    (canonical : ∀ target child, shape = .construct target child → target.Canonical)
    (loc : Location) : Node.Fits ⟨loc, .null, shape⟩ :=
  ⟨fun value literal => absurd literal (notLiteral value), canonical⟩

namespace Arena

variable {arena : Arena} {id : ExprId} {node : Node}

def Typed (arena : Arena) : Prop :=
  ∀ ⦃id node⦄, arena.node? id = some node → node.Fits

namespace Typed

theorem setShape (typed : arena.Typed) {shape : Shape ExprId}
    (notLiteral : ∀ value, shape ≠ .literal value)
    (canonical : ∀ target child, arena.Allocated id → shape = .construct target child →
      target.Canonical) : (arena.setShape id shape).Typed := by
  refine Nodewise.modifyNode typed fun node isNode => ⟨fun value literal => ?_, fun target child form => ?_⟩
  · exact absurd literal (notLiteral value)
  · exact canonical target child (allocated_of_node? isNode) form

/-- The type of a node that is no literal is free. -/
theorem setType (typed : arena.Typed) {ty : Ty}
    (notLiteral : ∀ value, arena.shape? id ≠ some (.literal value)) :
    (arena.setType id ty).Typed := by
  refine Nodewise.modifyNode typed fun node isNode => ⟨fun value literal => ?_, (typed isNode).target⟩
  exact absurd (shape?_eq_some_iff.mpr ⟨node, isNode, literal⟩) (notLiteral value)

theorem target (typed : arena.Typed) {target : Ty} {child : ExprId}
    (found : arena.shape? id = some (.construct target child)) : target.Canonical := by
  obtain ⟨node, isNode, form⟩ := shape?_eq_some_iff.mp found
  exact (typed isNode).target target child form

end Typed

end Arena

/-! ## Folding and inlining -/

theorem Node.Fits.durable : Node.Durable Node.Fits where
  forgotten := fun {node} fits derived => by
    refine ⟨fun value literal => ?_, fits.target⟩
    have isLiteral : node.shape = .literal value := literal
    simp [isLiteral, Shape.typeIsDerived] at derived
  replaced := fun fits isShape => by
    refine ⟨?_, ?_⟩
    · rintro value rfl
      exact absurd isShape Shape.replaceFirst?_ne_literal
    · rintro target child rfl
      obtain ⟨earlier, isConstruct⟩ := Shape.replaceFirst?_eq_construct isShape
      exact fits.target target earlier isConstruct
  folded := fun loc folded => .natural (Fold.binary_inRange folded) loc

namespace Rooted

variable {expr : Rooted}

theorem simplifyWithin_typed (rounds : Nat) (typed : expr.arena.Typed) :
    (simplifyWithin rounds expr).2.arena.Typed :=
  simplifyWithin_nodewise Node.Fits.durable rounds typed

theorem inlineNames_typed {session : Session} {scope : ScopeId} (typed : expr.arena.Typed)
    (typedIn : session.TypedIn scope) : (inlineNames session scope expr).2.arena.Typed := by
  refine inlineNames_nodewise Node.Fits.durable (fun loc known => ?_) typed
  refine ⟨fun literal isLiteral => ?_, fun _ _ construct => by cases construct⟩
  cases isLiteral
  exact typedIn known

end Rooted

end Assay
