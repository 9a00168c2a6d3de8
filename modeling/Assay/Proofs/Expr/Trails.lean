import Assay.Proofs.Expr.Occurrences
import Assay.Proofs.Expr.Splicing
import Mathlib.Data.List.Lex

/-!
Contract: a splice, node by node and path by path.
-/

namespace Assay

def Node.forgotten (node : Node) : Node :=
  if node.shape.typeIsDerived then { node with ty := .null } else node

theorem Node.forgotten_idem (node : Node) : node.forgotten.forgotten = node.forgotten := by
  unfold forgotten
  by_cases derived : node.shape.typeIsDerived
  · simp only [derived, if_true]
  · simp only [derived, if_false, Bool.false_eq_true]

variable {shape : Shape ExprId} {old new : ExprId}

/-- Replacing an operand changes nothing about where the type of a form comes from. -/
theorem Shape.typeIsDerived_replaceFirst? {replaced : Shape ExprId}
    (isReplaced : shape.replaceFirst? old new = some replaced) :
    replaced.typeIsDerived = shape.typeIsDerived := by
  cases shape <;> simp only [replaceFirst?] at isReplaced <;> (repeat' split at isReplaced) <;>
    cases isReplaced <;> rfl

theorem Node.forgotten_setShape (node : Node)
    (isReplaced : node.shape.replaceFirst? old new = some shape) :
    { node with shape := shape : Node }.forgotten = { node.forgotten with shape := shape } := by
  have sameSource := Shape.typeIsDerived_replaceFirst? isReplaced
  unfold forgotten
  simp only [sameSource]
  split <;> rfl

namespace Arena

variable {arena before after : Arena} {id root target : ExprId} {path : List Nat}
  {trail : List ExprId}

/-! ## Forgotten types -/

theorem node?_forgetType (arena : Arena) (id other : ExprId) :
    (arena.forgetType id).node? other =
      if id = other then (arena.node? other).map Node.forgotten else arena.node? other :=
  node?_modifyNode arena id other Node.forgotten

theorem node?_forgetTypes (arena : Arena) (trail : List ExprId) (other : ExprId) :
    (trail.foldl forgetType arena).node? other =
      if other ∈ trail then (arena.node? other).map Node.forgotten else arena.node? other := by
  induction trail generalizing arena with
  | nil => rfl
  | cons first trail ih =>
    rw [List.foldl_cons, ih, node?_forgetType]
    by_cases isFirst : first = other
    · have twice : (arena.node? other).map (Node.forgotten ∘ Node.forgotten) =
          (arena.node? other).map Node.forgotten := by
        congr 1
        funext node
        exact node.forgotten_idem
      simp [isFirst, twice]
    · simp [isFirst, Ne.symm isFirst]

/-! ## The trail of a search -/

def Passes (arena : Arena) (root : ExprId) (path : List Nat) (id : ExprId) : Prop :=
  ∃ shorter, shorter <+: path ∧ arena.follow? root shorter = some id

/-- The search for a node goes along the first of all paths to it, and notes the nodes that it
passes. -/
theorem Acyclic.pathTo?_trail (acyclic : arena.Acyclic) (allocated : arena.Allocated root)
    ⦃trail : List ExprId⦄ (found : arena.pathTo? root target = some trail) :
    ∃ (path : List Nat) (parent : ExprId) (earlier later : List ExprId),
      arena.follow? root path = some parent ∧ trail.getLast? = some parent ∧
      (arena.shapeAt parent).children = earlier ++ target :: later ∧ target ∉ earlier ∧
      (∀ id, id ∈ trail ↔ arena.Passes root path id) ∧
      ∀ other, other ≠ [] → arena.follow? root other = some target →
        path ++ [earlier.length] ≤ other := by
  revert trail
  refine acyclic.induction ?_ root allocated
  intro root node isNode operands trail search
  rw [acyclic.pathTo?_eq isNode] at search
  obtain ⟨earlier, child, later, children, found, skipped⟩ := List.findSome?_eq_some_iff.mp search
  have member : child ∈ node.shape.children := by simp [children]
  rw [← shapeAt_of_node? isNode] at children
  have isChild : (arena.shapeAt root).children[earlier.length]? = some child := by simp [children]
  -- No path to the target starts with an operand that the search has gone past.
  have first : ∀ tail, (∀ rest, arena.follow? child rest = some target → tail ≤ rest) →
      ∀ other, other ≠ [] → arena.follow? root other = some target →
        earlier.length :: tail ≤ other := by
    intro tail least other nonempty leads
    obtain ⟨place, rest, rfl⟩ := List.exists_cons_of_ne_nil nonempty
    obtain ⟨operand, isOperand, leadsOn⟩ := follow?_cons_eq_some.mp leads
    rcases Nat.lt_trichotomy earlier.length place with isLater | rfl | isEarlier
    · exact le_of_lt (List.Lex.rel isLater)
    · rw [isChild] at isOperand
      cases isOperand
      exact List.cons_le_cons _ (least rest leadsOn)
    · rw [children, List.getElem?_append_left isEarlier] at isOperand
      have missed := skipped operand (List.mem_of_getElem? isOperand)
      rcases (within_of_follow? leadsOn).below_or_eq with rfl | below
      · simp at missed
      · obtain ⟨path, foundBelow⟩ := acyclic.pathTo?_complete below
        split at missed <;> simp [foundBelow] at missed
  split at found
  · next same =>
    cases found
    subst same
    refine ⟨[], root, earlier, later, rfl, rfl, children, fun isEarlier => ?_, fun id => ?_,
      first [] fun rest _ => not_lt.mp (List.not_lt_nil rest)⟩
    · simpa using skipped child isEarlier
    · simp [Passes, List.prefix_nil, eq_comm]
  · next different =>
    obtain ⟨below, foundBelow, rfl⟩ := Option.map_eq_some_iff.mp found
    obtain ⟨path, parent, before, after, leads, isLast, split, fresh, passed, least⟩ :=
      operands child member foundBelow
    refine ⟨earlier.length :: path, parent, before, after, ?_, ?_, split, fresh, fun id => ?_,
      first _ fun rest leadsOn => least rest ?_ leadsOn⟩
    · exact follow?_cons_eq_some.mpr ⟨child, isChild, leads⟩
    · rw [List.getLast?_cons, isLast]
      rfl
    · rw [List.mem_cons, passed]
      constructor
      · rintro (rfl | ⟨shorter, isPrefix, leadsTo⟩)
        · exact ⟨[], List.nil_prefix, rfl⟩
        · exact ⟨_ :: shorter, (List.prefix_cons_inj _).mpr isPrefix,
            follow?_cons_eq_some.mpr ⟨child, isChild, leadsTo⟩⟩
      · rintro ⟨shorter, isPrefix, leadsTo⟩
        rcases List.prefix_cons_iff.mp isPrefix with rfl | ⟨short, rfl, isShort⟩
        · cases leadsTo
          exact .inl rfl
        · obtain ⟨other, isOther, leadsBelow⟩ := follow?_cons_eq_some.mp leadsTo
          rw [isChild] at isOther
          cases isOther
          exact .inr ⟨short, isShort, leadsBelow⟩
    · rintro rfl
      exact different (Option.some.inj leadsOn)

/-- Every node that is passed has an operand. -/
theorem Acyclic.children_of_mem_pathTo? (acyclic : arena.Acyclic) (allocated : arena.Allocated root)
    (found : arena.pathTo? root target = some trail) (isOn : id ∈ trail) :
    (arena.shapeAt id).children ≠ [] := by
  obtain ⟨path, parent, _, _, leads, _, children, _, passed, _⟩ :=
    acyclic.pathTo?_trail allocated found
  obtain ⟨shorter, ⟨onward, rfl⟩, leadsTo⟩ := (passed id).mp isOn
  rw [follow?_append_of_eq leadsTo] at leads
  intro leaf
  obtain ⟨_, rfl⟩ := Arena.follow?_leaf leaf leads
  simp [leaf] at children

/-! ## Paths after a splice -/

theorem shapeAt_congr (same : after.shape? id = before.shape? id) :
    after.shapeAt id = before.shapeAt id := by
  have isShape (arena : Arena) : arena.shapeAt id = (arena.shape? id).getD default := by
    unfold shape? shapeAt nodeAt
    cases arena.node? id <;> rfl
  rw [isShape, isShape, same]

namespace Respliced

variable {parent old new : ExprId}

variable (respliced : Respliced before after parent old new)
include respliced

theorem shapeAt_elsewhere (notParent : id ≠ parent) : after.shapeAt id = before.shapeAt id :=
  shapeAt_congr (respliced.elsewhere notParent)

/-- One operand of the changed node is another one, those at all other places are the same. -/
theorem exists_slot :
    ∃ slot : Nat, (before.shapeAt parent).children[slot]? = some old ∧
      (after.shapeAt parent).children[slot]? = some new ∧
      ∀ other, other ≠ slot →
        (after.shapeAt parent).children[other]? = (before.shapeAt parent).children[other]? := by
  obtain ⟨shape, replaced, found, foundAfter, isReplaced⟩ := respliced.exists_shapes
  obtain ⟨earlier, later, _, children, childrenAfter⟩ := Shape.children_replaceFirst? isReplaced
  rw [shapeAt_of_shape? found, shapeAt_of_shape? foundAfter, children, childrenAfter]
  refine ⟨earlier.length, by simp, by simp, fun other notSlot => ?_⟩
  rw [List.getElem?_append, List.getElem?_append]
  split
  · rfl
  · obtain ⟨further, isFurther⟩ : ∃ further, other - earlier.length = further + 1 :=
      ⟨other - earlier.length - 1, by omega⟩
    rw [isFurther, List.getElem?_cons_succ, List.getElem?_cons_succ]

/-- A path leads where it led, unless it goes on from the changed operand. -/
theorem follow?_cases :
    ∃ slot : Nat, (before.shapeAt parent).children[slot]? = some old ∧
      (after.shapeAt parent).children[slot]? = some new ∧
      ∀ root path, after.follow? root path = before.follow? root path ∨
        ∃ start rest, path = start ++ slot :: rest ∧ before.follow? root start = some parent ∧
          after.follow? root path = after.follow? new rest := by
  obtain ⟨slot, isOld, isNew, others⟩ := respliced.exists_slot
  refine ⟨slot, isOld, isNew, fun root path => ?_⟩
  induction path generalizing root with
  | nil => exact .inl rfl
  | cons place rest ih =>
    by_cases atSlot : root = parent ∧ place = slot
    · obtain ⟨rfl, rfl⟩ := atSlot
      refine .inr ⟨[], rest, rfl, rfl, ?_⟩
      rw [follow?_cons, isNew, Option.bind_some]
    · have sameChild : (after.shapeAt root).children[place]? =
          (before.shapeAt root).children[place]? := by
        by_cases isParent : root = parent
        · subst isParent
          exact others place fun isSlot => atSlot ⟨rfl, isSlot⟩
        · rw [respliced.shapeAt_elsewhere isParent]
      rw [follow?_cons, follow?_cons, sameChild]
      cases isChild : (before.shapeAt root).children[place]? with
      | none => exact .inl rfl
      | some child =>
        rw [Option.bind_some, Option.bind_some]
        rcases ih child with same | ⟨start, rest, rfl, leads, moved⟩
        · exact .inl same
        · exact .inr ⟨place :: start, rest, rfl,
            follow?_cons_eq_some.mpr ⟨child, isChild, leads⟩, moved⟩

/-- Where paths lead once a node without operands has taken the place of another one. -/
theorem follow?_leaf (oldLeaf : (before.shapeAt old).children = [])
    (newLeaf : (after.shapeAt new).children = []) (root : ExprId) (path : List Nat) :
    after.follow? root path = before.follow? root path ∨
      before.follow? root path = some old ∧ after.follow? root path = some new := by
  obtain ⟨slot, isOld, _, leadsTo⟩ := respliced.follow?_cases
  rcases leadsTo root path with same | ⟨start, rest, rfl, leads, moved⟩
  · exact .inl same
  · rw [moved, follow?_append_of_eq leads, follow?_cons, isOld, Option.bind_some]
    cases rest with
    | nil => exact .inr ⟨rfl, rfl⟩
    | cons place rest =>
      left
      rw [follow?_cons, follow?_cons, oldLeaf, newLeaf, List.getElem?_nil]
      rfl

end Respliced

/-! ## A splice along a trail -/

/-- A splice that passed the nodes of `trail`. -/
structure SplicedAlong (before after : Arena) (trail : List ExprId) (parent old new : ExprId) :
    Prop extends Respliced before after parent old new where
  parent_mem : parent ∈ trail
  inner : ∀ {id}, id ∈ trail → (before.shapeAt id).children ≠ []
  offTrail : ∀ {id}, id ∉ trail → after.node? id = before.node? id
  /-- Types that do not come from operands are kept on the trail as well. -/
  onTrail : ∀ {id node}, id ∈ trail → before.node? id = some node →
    ∃ shape, after.node? id = some { node.forgotten with shape := shape }

/-- Nodes without operands are on no trail. -/
theorem SplicedAlong.node?_leaf {parent old new : ExprId}
    (spliced : SplicedAlong before after trail parent old new) {node : Node}
    (found : before.node? id = some node) (leaf : node.shape.children = []) :
    after.node? id = some node := by
  rw [spliced.offTrail, found]
  intro isOn
  apply spliced.inner isOn
  rw [shapeAt_of_node? found, leaf]

end Arena

namespace Rooted

variable {expr spliced : Rooted} {old new : ExprId}

/-- A splice goes along the path that the search for the replaced node takes. -/
theorem splice?_along (acyclic : expr.arena.Acyclic) (allocated : expr.arena.Allocated expr.root)
    (isSpliced : expr.splice? old new = some spliced) :
    spliced.root = expr.root ∧ ∃ trail parent, expr.arena.pathTo? expr.root old = some trail ∧
      trail.getLast? = some parent ∧
      Arena.SplicedAlong expr.arena spliced.arena trail parent old new := by
  obtain ⟨trail, parent, shape, foundTrail, isLast, isShape, rfl⟩ := splice?_steps isSpliced
  obtain ⟨_, _, _, _, _, sameLast, children, _⟩ := acyclic.pathTo?_trail allocated foundTrail
  rw [isLast] at sameLast
  cases sameLast
  have operand : expr.arena.Operand old parent :=
    Arena.operand_iff_mem_shapeAt.mpr (by simp [children])
  have member : parent ∈ trail := List.mem_of_getLast? isLast
  refine ⟨rfl, trail, parent, foundTrail, isLast, ⟨operand, ?_, ?_⟩, member,
    acyclic.children_of_mem_pathTo? allocated foundTrail, ?_, ?_⟩
  · intro id different
    rw [Arena.shape?_forgetTypes, Arena.shape?_setShape, if_neg (Ne.symm different)]
  · rw [Arena.shape?_forgetTypes, Arena.shape?_setShape, if_pos rfl, isShape,
      Arena.shape?_of_allocated operand.parent_allocated]
    rfl
  · intro id notOn
    have different : parent ≠ id := by
      rintro rfl
      exact notOn member
    rw [Arena.node?_forgetTypes, if_neg notOn, Arena.setShape, Arena.node?_modifyNode,
      if_neg different]
  · intro id node isOn found
    rw [Arena.node?_forgetTypes, if_pos isOn, Arena.setShape, Arena.node?_modifyNode, found]
    by_cases isParent : parent = id
    · subst isParent
      rw [Arena.shapeAt_of_node? found] at isShape
      refine ⟨shape, ?_⟩
      rw [if_pos rfl, Option.map_some, Option.map_some, node.forgotten_setShape isShape]
    · exact ⟨node.forgotten.shape, by rw [if_neg isParent]; rfl⟩

/-- A splice changes one operand of one node of the expression. -/
theorem splice?_eq_some (acyclic : expr.arena.Acyclic)
    (allocated : expr.arena.Allocated expr.root) (isSpliced : expr.splice? old new = some spliced) :
    spliced.root = expr.root ∧ ∃ parent, expr.arena.Within parent expr.root ∧
      Arena.Respliced expr.arena spliced.arena parent old new := by
  obtain ⟨sameRoot, trail, parent, found, isLast, along⟩ := splice?_along acyclic allocated isSpliced
  obtain ⟨path, _, _, _, leads, sameLast, _⟩ := acyclic.pathTo?_trail allocated found
  rw [isLast] at sameLast
  cases sameLast
  exact ⟨sameRoot, parent, Arena.within_of_follow? leads, along.toRespliced⟩

/-- Every node below the root can be replaced. -/
theorem not_below_of_splice? (acyclic : expr.arena.Acyclic)
    (allocated : expr.arena.Allocated expr.root) (refused : expr.splice? old new = none) :
    ¬ expr.arena.Below old expr.root := by
  intro below
  have isBelow : old ≠ expr.root := by
    rintro same
    exact acyclic.irreflexive _ (same ▸ below)
  obtain ⟨trail, found⟩ := acyclic.pathTo?_complete below
  obtain ⟨_, parent, _, _, _, isLast, children, _⟩ := acyclic.pathTo?_trail allocated found
  obtain ⟨replaced, isReplaced⟩ := Shape.exists_replaceFirst?
    (show old ∈ (expr.arena.shapeAt parent).children by simp [children]) new
  rw [splice?_eq isBelow, found, Option.bind_some, isLast, Option.bind_some,
    Arena.replaceOperand?, isReplaced] at refused
  cases refused

/-- A splice succeeds for every node but the root. The first of all the operands that are the
replaced node becomes the new one, the nodes on the way to it lose their derived types, and nothing
else changes. -/
theorem splice?_changes_one_operand (acyclic : expr.arena.Acyclic)
    (allocated : expr.arena.Allocated expr.root) (old new : ExprId) :
    ((expr.splice? old new).isSome = true ↔
      old ≠ expr.root ∧ expr.arena.Within old expr.root) ∧
    ∀ spliced, expr.splice? old new = some spliced → spliced.root = expr.root ∧
      ∃ (path : List Nat) (parent : ExprId) (earlier later : List ExprId),
        expr.arena.follow? expr.root path = some parent ∧
        (∀ other, expr.arena.follow? expr.root other = some old →
          path ++ [earlier.length] ≤ other) ∧
        (expr.arena.shapeAt parent).children = earlier ++ old :: later ∧
        (spliced.arena.shapeAt parent).children = earlier ++ new :: later ∧
        (spliced.arena.shapeAt parent).map (fun _ => ()) =
          (expr.arena.shapeAt parent).map (fun _ => ()) ∧
        (∀ id, ¬ expr.arena.Passes expr.root path id →
          spliced.arena.node? id = expr.arena.node? id) ∧
        ∀ id node, expr.arena.Passes expr.root path id → expr.arena.node? id = some node →
          ∃ shape, (id ≠ parent → shape = node.shape) ∧
            spliced.arena.node? id = some { node.forgotten with shape := shape } := by
  have different : ∀ spliced, expr.splice? old new = some spliced → old ≠ expr.root := by
    rintro spliced isSpliced rfl
    simp [splice?] at isSpliced
  refine ⟨⟨fun done => ?_, fun apart => ?_⟩, fun spliced isSpliced => ?_⟩
  · obtain ⟨spliced, isSpliced⟩ := Option.isSome_iff_exists.mp done
    obtain ⟨_, parent, within, respliced⟩ := splice?_eq_some acyclic allocated isSpliced
    exact ⟨different spliced isSpliced, Relation.ReflTransGen.head respliced.operand within⟩
  · have below := apart.2.below_or_eq.resolve_left apart.1
    by_contra refused
    exact not_below_of_splice? acyclic allocated (by simpa using refused) below
  · obtain ⟨sameRoot, trail, parent, found, isLast, along⟩ :=
      splice?_along acyclic allocated isSpliced
    obtain ⟨path, _, earlier, later, leads, sameLast, children, fresh, passed, first⟩ :=
      acyclic.pathTo?_trail allocated found
    rw [isLast] at sameLast
    cases sameLast
    obtain ⟨shape, replaced, isShape, isAfter, isReplaced⟩ := along.exists_shapes
    rw [Arena.shapeAt_of_shape? isShape] at children
    obtain ⟨before, after, isFirst, split, splitAfter⟩ := Shape.children_replaceFirst? isReplaced
    have samePlace : earlier.length = before.length := by
      have place := congrArg (List.idxOf old) (children.symm.trans split)
      simpa [List.idxOf_append_of_notMem fresh, List.idxOf_append_of_notMem isFirst] using place
    obtain ⟨rfl, sameRest⟩ := List.append_inj (children.symm.trans split) samePlace
    cases sameRest
    refine ⟨sameRoot, path, parent, earlier, later, leads, fun other leadsTo => ?_, ?_, ?_, ?_,
      fun id aside => ?_, fun id node through isNode => ?_⟩
    · refine first other ?_ leadsTo
      rintro rfl
      exact different spliced isSpliced (Option.some.inj leadsTo).symm
    · rw [Arena.shapeAt_of_shape? isShape, children]
    · rw [Arena.shapeAt_of_shape? isAfter, splitAfter]
    · rw [Arena.shapeAt_of_shape? isAfter, Arena.shapeAt_of_shape? isShape,
        Shape.map_replaceFirst? isReplaced rfl]
    · exact along.offTrail fun isOn => aside ((passed id).mp isOn)
    · obtain ⟨form, isNodeAfter⟩ := along.onTrail ((passed id).mpr through) isNode
      refine ⟨form, fun isOther => ?_, isNodeAfter⟩
      have sameShape := along.elsewhere isOther
      rw [Arena.shape?_of_node? isNodeAfter, Arena.shape?_of_node? isNode] at sameShape
      exact Option.some.inj sameShape

/-- Of a node that is an operand in three places, the first place is changed. -/
theorem splice?_changes_one_operand_shared :
    let node := fun shape => (⟨.builtin, .ofKind .uint8 .builtin, shape⟩ : Node)
    let expr : Rooted := ⟨⟨#[node (.literal (.int 2)), node (.literal (.int 9)),
      node (.list [⟨0⟩, ⟨0⟩]), node (.list [⟨2⟩, ⟨0⟩])]⟩, ⟨3⟩⟩
    (expr.splice? ⟨3⟩ ⟨1⟩).isSome ≠ true ∧ ∃ spliced, expr.splice? ⟨0⟩ ⟨1⟩ = some spliced ∧
      ∃ path place, expr.arena.follow? expr.root (path ++ [place]) = some ⟨0⟩ ∧
        path ++ [place] ≤ [0, 0] := by
  intro node expr
  have acyclic : expr.arena.Acyclic := .of_ordered (by decide)
  have allocated : expr.arena.Allocated expr.root := by decide
  obtain ⟨root, _⟩ := splice?_changes_one_operand acyclic allocated ⟨3⟩ ⟨1⟩
  obtain ⟨isSome, changes⟩ := splice?_changes_one_operand acyclic allocated ⟨0⟩ ⟨1⟩
  have within : expr.arena.Within ⟨0⟩ expr.root :=
    Arena.within_iff_follow?.mpr ⟨[0, 0], by decide⟩
  obtain ⟨spliced, isSpliced⟩ := Option.isSome_iff_exists.mp (isSome.mpr ⟨by decide, within⟩)
  obtain ⟨_, path, parent, earlier, later, leads, first, children, _⟩ := changes spliced isSpliced
  exact ⟨fun done => (root.mp done).1 rfl, spliced, isSpliced, path, earlier.length,
    Arena.follow?_concat_eq_some.mpr ⟨parent, leads, by simp [children]⟩, first [0, 0] (by decide)⟩

end Rooted

end Assay
