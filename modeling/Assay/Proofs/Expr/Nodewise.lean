import Assay.Proofs.Expr.Preservation

/-!
Contract: what holds of every node of an arena by itself.
-/

namespace Assay

/-- What is true of a node stays true when it is given another operand or forgets its type, and it
is true of the literals that folding puts in. -/
structure Node.Durable (good : Node → Prop) : Prop where
  forgotten : ∀ {node}, good node → node.shape.typeIsDerived = true → good { node with ty := .null }
  replaced : ∀ {node shape old new}, good node → node.shape.replaceFirst? old new = some shape →
    good { node with shape := shape }
  folded : ∀ {op left right value} (loc : Location), Fold.binary op left right = .ok value →
    good ⟨loc, value.naturalType loc, .literal value⟩

namespace Arena

variable {good : Node → Prop} {arena : Arena} {id : ExprId} {node : Node}

def Nodewise (good : Node → Prop) (arena : Arena) : Prop :=
  ∀ ⦃id node⦄, arena.node? id = some node → good node

namespace Nodewise

theorem empty : Nodewise good {} := by
  intro id node found
  cases found

theorem alloc (holds : arena.Nodewise good) (isGood : good node) :
    ((alloc node).run arena).2.Nodewise good := by
  intro id other found
  rw [node?_alloc] at found
  split at found
  · cases found
    exact isGood
  · exact holds found

theorem modifyNode (holds : arena.Nodewise good) {change : Node → Node}
    (isGood : ∀ node, arena.node? id = some node → good (change node)) :
    (arena.modifyNode id change).Nodewise good := by
  intro other node found
  rw [node?_modifyNode] at found
  split at found
  · next same =>
    obtain ⟨old, isOld, rfl⟩ := Option.map_eq_some_iff.mp found
    exact isGood old (same ▸ isOld)
  · exact holds found

end Nodewise

/-! ## Single changes -/

/-- Whatever a node refers to is allocated. -/
def Closed (arena : Arena) : Prop :=
  arena.Nodewise fun node => ∀ child ∈ node.shape.children, arena.Allocated child

theorem Acyclic.closed (acyclic : arena.Acyclic) : arena.Closed :=
  fun _ _ found _ member => acyclic.allocated (operand_of_mem found member)

/-- One change of an arena: a node is added, or one that is allocated is changed. The node is good
then, and its operands are allocated. -/
inductive Revision (good : Node → Prop) (arena : Arena) : Arena → Prop
  | add {node : Node} (operands : ∀ child ∈ node.shape.children, arena.Allocated child)
      (isGood : good node) : Revision good arena ((Arena.alloc node).run arena).2
  | change {id : ExprId} {node : Node} {change : Node → Node} (found : arena.node? id = some node)
      (operands : ∀ child ∈ (change node).shape.children, arena.Allocated child)
      (isGood : good (change node)) : Revision good arena (arena.modifyNode id change)

def Revises (good : Node → Prop) : Arena → Arena → Prop :=
  Relation.ReflTransGen (Revision good)

variable {before after : Arena}

namespace Revision

variable (revision : Revision good before after)
include revision

theorem size_le : before.size ≤ after.size := by
  cases revision with
  | add => exact Nat.le_of_lt (Nat.lt_of_lt_of_eq (Nat.lt_succ_self _) (size_alloc _ _).symm)
  | change => exact Nat.le_of_eq (size_modifyNode _ _ _).symm

theorem nodewise (holds : before.Nodewise good) : after.Nodewise good := by
  cases revision with
  | add _ isGood => exact holds.alloc isGood
  | change found _ isGood =>
    refine holds.modifyNode fun other isOther => ?_
    cases found.symm.trans isOther
    exact isGood

theorem closed (isClosed : before.Closed) : after.Closed := by
  have size := revision.size_le
  have still : before.Nodewise fun node => ∀ child ∈ node.shape.children, after.Allocated child :=
    fun _ _ found child member => Nat.lt_of_lt_of_le (isClosed found child member) size
  cases revision with
  | add operands => exact still.alloc fun child member => Nat.lt_of_lt_of_le (operands child member) size
  | change found operands =>
    refine still.modifyNode fun other isOther child member => ?_
    cases found.symm.trans isOther
    exact Nat.lt_of_lt_of_le (operands child member) size

theorem mono {fine : Node → Prop} (weaker : ∀ node, good node → fine node) :
    Revision fine before after := by
  cases revision with
  | add operands isGood => exact .add operands (weaker _ isGood)
  | change found operands isGood => exact .change found operands (weaker _ isGood)

end Revision

namespace Revises

variable (revises : Revises good before after)
include revises

theorem size_le : before.size ≤ after.size := by
  induction revises with
  | refl => exact Nat.le_refl _
  | tail _ revision ih => exact Nat.le_trans ih revision.size_le

theorem nodewise (holds : before.Nodewise good) : after.Nodewise good := by
  induction revises with
  | refl => exact holds
  | tail _ revision ih => exact revision.nodewise ih

theorem closed (isClosed : before.Closed) : after.Closed := by
  induction revises with
  | refl => exact isClosed
  | tail _ revision ih => exact revision.closed ih

theorem mono {fine : Node → Prop} (weaker : ∀ node, good node → fine node) :
    Revises fine before after := by
  induction revises with
  | refl => exact .refl
  | tail _ revision ih => exact ih.tail (revision.mono weaker)

theorem trans {last : Arena} (later : Revises good after last) : Revises good before last :=
  Relation.ReflTransGen.trans revises later

end Revises

/-! ## Changes of folding -/

namespace Nodewise

theorem forgetTypes (durable : Node.Durable good) (holds : arena.Nodewise good)
    (path : List ExprId) : (path.foldl Arena.forgetType arena).Nodewise good := by
  induction path generalizing arena with
  | nil => exact holds
  | cons id path ih =>
    refine ih (holds.modifyNode fun node isNode => ?_)
    split
    · next derived => exact durable.forgotten (holds isNode) derived
    · exact holds isNode

end Nodewise

theorem solveWithin_nodewise (durable : Node.Durable good) (depth : Nat) (id : ExprId) :
    Stopping.Keeps (Nodewise good) (solveWithin depth id) :=
  solveWithin_keeps (fun loc folded holds => holds.alloc (durable.folded loc folded)) depth id

theorem solve_revises (durable : Node.Durable good) {result : Except FoldStop ExprId}
    {grown : Arena} (solved : arena.solve id = (result, grown)) : Revises good arena grown := by
  have kept : Revises good arena (arena.solve id).2 :=
    solveWithin_keeps (fun loc folded revises => revises.tail
      (.add (List.forall_mem_nil _) (durable.folded loc folded))) arena.size id arena .refl
  rw [solved] at kept
  exact kept

/-- Nodes that are allocated forget their types one after the other. -/
theorem forgetTypes_revises (durable : Node.Durable good) {path : List ExprId}
    (allocated : ∀ id ∈ path, arena.Allocated id) (isClosed : arena.Closed)
    (holds : arena.Nodewise good) : Revises good arena (path.foldl Arena.forgetType arena) := by
  induction path generalizing arena with
  | nil => exact .refl
  | cons id path ih =>
    obtain ⟨isFirst, others⟩ := List.forall_mem_cons.mp allocated
    obtain ⟨node, found⟩ := exists_node? isFirst
    have first : Revision good arena (arena.forgetType id) := by
      refine .change found ?_ ?_
      · split
        · exact fun child member => isClosed found child member
        · exact isClosed found
      · split
        · next derived => exact durable.forgotten (holds found) derived
        · exact holds found
    have still : ∀ other ∈ path, (arena.forgetType id).Allocated other :=
      fun other member => Nat.lt_of_lt_of_le (others other member) first.size_le
    exact .head first (ih still (first.closed isClosed) (first.nodewise holds))

theorem Nodewise.solve (durable : Node.Durable good) (holds : arena.Nodewise good)
    {result : Except FoldStop ExprId} {grown : Arena} (solved : arena.solve id = (result, grown)) :
    grown.Nodewise good := by
  have kept := solveWithin_nodewise durable arena.size id arena holds
  change (arena.solve id).2.Nodewise good at kept
  rw [solved] at kept
  exact kept

end Arena

namespace Rooted

variable {good : Node → Prop} {expr : Rooted}

theorem splice?_nodewise (durable : Node.Durable good) {old new : ExprId} {spliced : Rooted}
    (holds : expr.arena.Nodewise good) (isSpliced : expr.splice? old new = some spliced) :
    spliced.arena.Nodewise good := by
  obtain ⟨path, parent, shape, _, _, isShape, rfl⟩ := splice?_steps isSpliced
  refine .forgetTypes durable (holds.modifyNode fun node isNode => ?_) path
  rw [Arena.shapeAt_of_node? isNode] at isShape
  exact durable.replaced (holds isNode) isShape

theorem simplifyWithin_nodewise (durable : Node.Durable good) (rounds : Nat)
    (holds : expr.arena.Nodewise good) : (simplifyWithin rounds expr).2.arena.Nodewise good := by
  induction rounds generalizing expr with
  | zero => exact holds
  | succ rounds ih =>
    generalize isOutcome : simplifyWithin (rounds + 1) expr = outcome
    have round := isOutcome ▸ simplifyWithin_round rounds expr
    cases round with
    | nothingLeft _ => exact holds
    | stops _ solved => exact holds.solve durable solved
    | whole _ solved => exact holds.solve durable solved
    | part _ solved isSpliced =>
      exact ih (splice?_nodewise durable (holds.solve durable solved) isSpliced)
    | detached _ solved _ _ => exact holds.solve durable solved

theorem inlineNames_nodewise (durable : Node.Durable good) {session : Session} {scope : ScopeId}
    (known : ∀ {name ty value} (loc : Location),
      session.value? scope name = some ⟨ty, some value⟩ → good ⟨loc, ty, .literal value⟩)
    (holds : expr.arena.Nodewise good) :
    (inlineNames session scope expr).2.arena.Nodewise good := by
  refine inlineNames_keeps (motive := fun expr => expr.arena.Nodewise good) ?_ holds
  intro expr id name holds
  have grown {ty : Ty} {value : Literal}
      (isKnown : session.value? scope name = some ⟨ty, some value⟩) :
      (expr.withLiteral id value ty).Nodewise good := by
    intro other node found
    rw [node?_withLiteral] at found
    split at found
    · cases found
      exact known _ isKnown
    · exact holds found
  generalize isOutcome : inlineName session scope expr id name = outcome
  have inlining := isOutcome ▸ inlineName_inlining session scope expr id name
  cases inlining with
  | unknown _ => exact holds
  | root isKnown _ => exact grown isKnown
  | spliced isKnown isSpliced => exact splice?_nodewise durable (grown isKnown) isSpliced
  | detached isKnown _ _ => exact grown isKnown

/-! The changes one by one -/

section Revises

variable (acyclic : expr.arena.Acyclic) (allocated : expr.arena.Allocated expr.root)
  (holds : expr.arena.Nodewise good)
include acyclic allocated holds

theorem splice?_revises (durable : Node.Durable good) {old new : ExprId} {spliced : Rooted}
    (isNew : expr.arena.Allocated new) (isSpliced : expr.splice? old new = some spliced) :
    Arena.Revises good expr.arena spliced.arena := by
  obtain ⟨_, trail, _, found, _, along⟩ := splice?_along acyclic allocated isSpliced
  obtain ⟨path, parent, shape, foundPath, isLast, isShape, rfl⟩ := splice?_steps isSpliced
  cases found.symm.trans foundPath
  have onTrail : ∀ id ∈ trail, expr.arena.Allocated id := fun id member => by
    obtain ⟨child, isChild⟩ := List.exists_mem_of_ne_nil _ (along.inner member)
    exact (Arena.operand_iff_mem_shapeAt.mpr isChild).parent_allocated
  obtain ⟨node, isNode⟩ := Arena.exists_node? (onTrail parent (List.mem_of_getLast? isLast))
  rw [Arena.shapeAt_of_node? isNode] at isShape
  have first : Arena.Revision good expr.arena (expr.arena.setShape parent shape) := by
    refine .change isNode (fun child member => ?_) (durable.replaced (holds isNode) isShape)
    obtain ⟨earlier, later, _, isBefore, isAfter⟩ := Shape.children_replaceFirst? isShape
    have isOperand : child = new ∨ child ∈ node.shape.children := by
      have isMember : child ∈ shape.children := member
      rw [isAfter, List.mem_append, List.mem_cons] at isMember
      rw [isBefore, List.mem_append, List.mem_cons]
      tauto
    rcases isOperand with rfl | isOld
    · exact isNew
    · exact acyclic.closed isNode child isOld
  have still : ∀ id ∈ trail, (expr.arena.setShape parent shape).Allocated id :=
    fun id member => Nat.lt_of_lt_of_le (onTrail id member) first.size_le
  exact .head first (Arena.forgetTypes_revises durable still (first.closed acyclic.closed)
    (first.nodewise holds))

theorem simplifyWithin_revises (durable : Node.Durable good) (rounds : Nat) :
    Arena.Revises good expr.arena (simplifyWithin rounds expr).2.arena := by
  induction rounds generalizing expr with
  | zero => exact .refl
  | succ rounds ih =>
    generalize isOutcome : simplifyWithin (rounds + 1) expr = outcome
    have round := isOutcome ▸ simplifyWithin_round rounds expr
    cases round with
    | nothingLeft _ => exact .refl
    | stops _ solved | whole _ solved | detached _ solved _ _ =>
      exact Arena.solve_revises durable solved
    | part chosen solved isSpliced =>
      obtain ⟨kept, _, _, stands⟩ :=
        branch_keepsMeaning (fun _ => none) acyclic allocated chosen solved
      obtain ⟨keptAll, sameRoot⟩ :=
        part_keepsMeaning (fun _ => none) acyclic allocated chosen solved isSpliced
      have grown := Arena.solve_revises durable solved
      have spliced := splice?_revises kept.acyclic (kept.allocated allocated) (grown.nodewise holds)
        durable stands.allocated isSpliced
      have first := grown.trans spliced
      refine first.trans (ih keptAll.acyclic ?_ (first.nodewise holds))
      rw [sameRoot]
      exact keptAll.allocated allocated

theorem inlineNames_revises (durable : Node.Durable good) {session : Session} {scope : ScopeId}
    (natural : ∀ value loc, good ⟨loc, value.naturalType loc, .literal value⟩)
    (known : ∀ {name ty value} (loc : Location),
      session.value? scope name = some ⟨ty, some value⟩ → good ⟨loc, ty, .literal value⟩) :
    Arena.Revises good expr.arena (inlineNames session scope expr).2.arena := by
  let related (expr next : Rooted) : Prop := expr.arena.Nodewise good →
    Arena.Revises good expr.arena next.arena
  suffices inlined : related expr (inlineNames session scope expr).2 from inlined holds
  refine inlineNames_relates acyclic allocated (fun _ _ _ => .refl)
    (fun first second holds => (first holds).trans (second ((first holds).nodewise holds))) ?_
  intro expr id name acyclic allocated isName holds
  have grown : ∀ {ty value}, session.value? scope name = some ⟨ty, some value⟩ →
      Arena.Revises good expr.arena (expr.withLiteral id value ty) := by
    intro ty value isKnown
    let loc := expr.arena.locAt id
    have added := (Arena.node?_alloc expr.arena ⟨loc, value.naturalType loc, .literal value⟩
      ⟨expr.arena.size⟩).trans (if_pos rfl)
    exact (Relation.ReflTransGen.single (.add (List.forall_mem_nil _) (natural value _))).tail
      (.change added (List.forall_mem_nil _) (known _ isKnown))
  generalize isOutcome : inlineName session scope expr id name = outcome
  have inlining := isOutcome ▸ inlineName_inlining session scope expr id name
  cases inlining with
  | unknown _ => exact .refl
  | root isKnown _ | detached isKnown _ _ => exact grown isKnown
  | @spliced ty value _ isKnown isSpliced =>
    have grows := expr.grows_withLiteral id value ty
    have isNew := Arena.allocated_of_node? (expr.literal_withLiteral id value ty)
    exact (grown isKnown).trans (splice?_revises (grows.acyclic acyclic) (grows.allocated allocated)
      ((grown isKnown).nodewise holds) durable isNew isSpliced)

end Revises

end Rooted

end Assay
