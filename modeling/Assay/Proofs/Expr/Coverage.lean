import Assay.Proofs.Expr.Resolution
import Assay.Proofs.Scope.Searching

/-!
Contract: the types that the nodes of an arena carry, and the handles in them.
-/

namespace Assay

structure Node.CoveredBy (node : Node) (bounds : Bounds) : Prop where
  ty : bounds.Covers node.ty.handles
  types : ∀ ty ∈ node.shape.types, bounds.Covers ty.handles

theorem Node.CoveredBy.mono {node : Node} {bounds large : Bounds} (covered : node.CoveredBy bounds)
    (grows : bounds.Le large) : node.CoveredBy large :=
  ⟨covered.ty.mono grows, fun ty member => (covered.types ty member).mono grows⟩

@[simp] theorem Shape.types_map {α β : Type} (f : α → β) (shape : Shape α) :
    (shape.map f).types = shape.types := by
  cases shape <;> rfl

/-- Replacing an operand brings in no type. -/
theorem Shape.types_replaceFirst? {shape replaced : Shape ExprId} {old new : ExprId}
    (isReplaced : shape.replaceFirst? old new = some replaced) : replaced.types = shape.types := by
  cases shape <;> simp only [replaceFirst?] at isReplaced <;> (repeat' split at isReplaced) <;>
    cases isReplaced <;> rfl

namespace Arena

variable {arena : Arena} {bounds : Bounds} {id : ExprId} {node : Node}

def CoveredBy (arena : Arena) (bounds : Bounds) : Prop :=
  ∀ ⦃id node⦄, arena.node? id = some node → node.CoveredBy bounds

/-! ## Types -/

theorem typeStep_covers {operands : Shape Ty} (ty : bounds.Covers node.ty.handles)
    (types : ∀ ty ∈ operands.types, bounds.Covers ty.handles)
    (children : ∀ ty ∈ operands.children, bounds.Covers ty.handles) :
    bounds.Covers (typeStep node operands).handles := by
  unfold typeStep
  split
  · split
    · exact ty
    · exact ty
    · simp
    · exact children _ (by simp [Shape.children])
    · exact children _ (by simp [Shape.children])
    · exact children _ (by simp [Shape.children])
    · rw [Ty.handles_asRef]
      exact children _ (by simp [Shape.children])
    · exact types _ (by simp [Shape.types])
    · exact children _ (by simp [Shape.children])
    · rw [Ty.handles_element]
      exact children _ (by simp [Shape.children])
  · exact ty

theorem CoveredBy.typeOf (covered : arena.CoveredBy bounds) (id : ExprId) :
    bounds.Covers (arena.typeOf id).handles := by
  unfold Arena.typeOf fold
  generalize arena.size = depth
  induction depth generalizing id with
  | zero => simp [foldWithin]
  | succ depth ih =>
    rw [foldWithin]
    split
    · simp
    · next node isNode =>
      have node := covered isNode
      refine typeStep_covers node.ty (by simpa using node.types) fun ty member => ?_
      rw [Shape.children_map] at member
      obtain ⟨child, _, rfl⟩ := List.mem_map.mp member
      exact ih child

namespace CoveredBy

theorem mono {large : Bounds} (covered : arena.CoveredBy bounds) (grows : bounds.Le large) :
    arena.CoveredBy large :=
  fun _ _ found => (covered found).mono grows

end CoveredBy

end Arena

/-- What is allocated for an expression refers to no definition. -/
theorem Node.Written.coveredBy {node : Node} (written : node.Written) (bounds : Bounds) :
    node.CoveredBy bounds := by
  obtain ⟨ty, types⟩ := List.forall_mem_cons.mp written.handles
  refine ⟨by simp [ty], fun other member => ?_⟩
  rw [types other member]
  exact Bounds.covers_nil

/-! ## Resolution -/

namespace Arena

section Resolution

variable {session : Session} {scope : ScopeId} {exprs : Nat}

/-- A node that is allocated gets a type of the session. -/
theorem CoveredBy.setType (covered : arena.CoveredBy bounds) (isClosed : arena.Closed)
    {id : ExprId} (allocated : arena.Allocated id) {ty : Ty} (coversNew : bounds.Covers ty.handles) :
    Revision (fun node => node.CoveredBy bounds) arena (arena.setType id ty) := by
  obtain ⟨node, found⟩ := exists_node? allocated
  exact .change found (fun child => isClosed found child) ⟨coversNew, (covered found).types⟩

theorem CoveredBy.setTarget (covered : arena.CoveredBy bounds) (isClosed : arena.Closed)
    {id child : ExprId} (allocated : arena.Allocated id) (isChild : arena.Allocated child)
    {target : Ty} (coversNew : bounds.Covers target.handles) :
    Revises (fun node => node.CoveredBy bounds) arena (arena.setTarget id target child) := by
  obtain ⟨node, found⟩ := exists_node? allocated
  have reshaped : Revision (fun node => node.CoveredBy bounds) arena
      (arena.setShape id (.construct target child)) :=
    .change found (List.forall_mem_singleton.mpr isChild)
      ⟨(covered found).ty, List.forall_mem_singleton.mpr coversNew⟩
  have still : (arena.setShape id (.construct target child)).CoveredBy bounds :=
    reshaped.nodewise covered
  exact .head reshaped (.single (still.setType (reshaped.closed isClosed)
    (Nat.lt_of_lt_of_le allocated reshaped.size_le) coversNew))

/-- Resolution changes types one by one, and those that it finds belong to the session. -/
theorem resolveWithin_revises (coveredSession : session.CoveredBy (session.bounds exprs))
    (depth : Nat) (id : ExprId) {arena : Arena} (isClosed : arena.Closed)
    (covered : arena.CoveredBy (session.bounds exprs)) :
    Revises (fun node => node.CoveredBy (session.bounds exprs)) arena
      (resolveWithin session scope depth id arena).arena := by
  induction depth generalizing id arena with
  | zero => exact .refl
  | succ depth ih =>
    rw [resolveWithin]
    split
    · exact .refl
    · next node isNode =>
      have allocated := allocated_of_node? isNode
      split
      · exact .refl
      · split
        · next value known =>
          exact .single (covered.setType isClosed allocated (coveredSession.value? known))
        · exact .refl
      · next target child isConstruct =>
        have inner := ih child isClosed covered
        have start := (covered isNode).types target (by simp [isConstruct, Shape.types])
        have isChild := isClosed isNode child (by simp [isConstruct, Shape.children])
        dsimp only
        split
        · split
          · exact inner
          · next found resolved =>
            have coversFound := coveredSession.resolveType (resolveTarget_eq_ok resolved).1 start
            exact inner.trans (CoveredBy.setTarget (inner.nodewise covered) (inner.closed isClosed)
              (Nat.lt_of_lt_of_le allocated inner.size_le)
              (Nat.lt_of_lt_of_le isChild inner.size_le) coversFound)
        · exact inner
      · have operands : Revises _ arena
            (resolveEach (resolveWithin session scope depth) node.shape.children arena).arena :=
          resolveEach_keeps (fun id _ revises => revises.trans
            (ih id (revises.closed isClosed) (revises.nodewise covered))) node.shape.children .refl
        dsimp only
        split
        · unfold Arena.rememberType
          dsimp only
          split
          · exact operands
          · have still : Arena.CoveredBy _ _ := operands.nodewise covered
            exact operands.tail (still.setType (operands.closed isClosed)
              (Nat.lt_of_lt_of_le allocated operands.size_le) (still.typeOf id))
        · exact operands

end Resolution

end Arena

/-! ## Folding -/

theorem Node.CoveredBy.durable {bounds : Bounds} :
    Node.Durable fun node => node.CoveredBy bounds where
  forgotten := fun covered _ => ⟨by simp, covered.types⟩
  replaced := fun covered isShape => by
    refine ⟨covered.ty, ?_⟩
    dsimp only
    rw [Shape.types_replaceFirst? isShape]
    exact covered.types
  folded := fun _ _ => ⟨by simp, fun _ absent => (List.not_mem_nil absent).elim⟩

end Assay
