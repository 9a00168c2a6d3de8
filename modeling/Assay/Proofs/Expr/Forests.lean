import Assay.Proofs.Expr.Inference

/-!
Contract: trees beside each other in one arena.
-/

namespace Assay.Arena

variable {arena before middle after : Arena} {start : Nat} {root id : ExprId}
  {roots others : List ExprId}

/-! ## Trees -/

/-- A tree all of whose nodes stand at `start` or behind it. Only literals and names among them have
types. -/
structure Planted (arena : Arena) (start : Nat) (root : ExprId) : Prop where
  allocated : ∀ ⦃id⦄, arena.Within id root → arena.Allocated id
  recent : ∀ ⦃id⦄, arena.Within id root → start ≤ id.index
  tree : arena.Tree root
  untyped : arena.Untyped root

namespace Planted

theorem untouched (planted : before.Planted start root) (extension : before.Extends after) :
    Untouched before after root :=
  .of_kept planted.allocated extension.keeps

theorem keep (planted : before.Planted start root) (extension : before.Extends after) :
    after.Planted start root := by
  have untouched := planted.untouched extension
  refine ⟨fun id within => ?_, fun id within => ?_, ?_, ?_⟩
  · exact extension.allocated (planted.allocated (untouched.within_iff.mp within))
  · exact planted.recent (untouched.within_iff.mp within)
  · exact planted.tree.of_follow?_eq untouched.follow?_eq
  · exact planted.untyped.untouched untouched

theorem mono {earlier : Nat} (planted : arena.Planted start root) (begins : earlier ≤ start) :
    arena.Planted earlier root :=
  { planted with recent := fun _ within => begins.trans (planted.recent within) }

/-- What lies in a tree was allocated with it, whatever has been allocated since. -/
theorem index_lt (planted : before.Planted start root) (extension : before.Extends after)
    (within : after.Within id root) : id.index < before.size :=
  planted.allocated ((planted.untouched extension).within_iff.mp within)

end Planted

/-! ## Forests -/

/-- Trees that share no node. -/
structure Forest (arena : Arena) (start : Nat) (roots : List ExprId) : Prop where
  planted : ∀ root ∈ roots, arena.Planted start root
  apart : arena.Apart roots

namespace Forest

theorem nil (arena : Arena) (start : Nat) : arena.Forest start [] :=
  ⟨by simp, .nil⟩

theorem single (forest : arena.Forest start [id]) : arena.Planted start id :=
  forest.planted id (List.mem_singleton.mpr rfl)

theorem mono {earlier : Nat} (forest : arena.Forest start roots) (begins : earlier ≤ start) :
    arena.Forest earlier roots :=
  ⟨fun root member => (forest.planted root member).mono begins, forest.apart⟩

theorem keep (forest : before.Forest start roots) (extension : before.Extends after) :
    after.Forest start roots := by
  refine ⟨fun root member => (forest.planted root member).keep extension, ?_⟩
  refine forest.apart.imp_of_mem fun {first second} isFirst isSecond apart id inFirst inSecond => ?_
  exact apart id (((forest.planted first isFirst).untouched extension).within_iff.mp inFirst)
    (((forest.planted second isSecond).untouched extension).within_iff.mp inSecond)

/-- Trees whose nodes stand behind all of an arena share none with the trees in it. -/
theorem append (forest : middle.Forest start roots) (begins : start ≤ middle.size)
    (extension : middle.Extends after) (later : after.Forest middle.size others) :
    after.Forest start (roots ++ others) := by
  have kept := forest.keep extension
  refine ⟨List.forall_mem_append.mpr ⟨kept.planted, (later.mono begins).planted⟩,
    List.pairwise_append.mpr ⟨kept.apart, later.apart, ?_⟩⟩
  intro first isFirst second isSecond id inFirst inSecond
  exact Nat.not_lt.mpr ((later.planted second isSecond).recent inSecond)
    ((forest.planted first isFirst).index_lt extension inFirst)

/-- A new node over the first trees of a forest takes their place. -/
theorem add {node : Node} (forest : before.Forest start (node.shape.children ++ others))
    (begins : start ≤ before.size) (extension : before.Extends after)
    (isNode : after.node? ⟨before.size⟩ = some node)
    (plain : node.shape.isAtom = true ∨ node.ty.isNull = true) :
    after.Forest start (⟨before.size⟩ :: others) := by
  have kept := forest.keep extension
  obtain ⟨apartOperands, apartRest, apartOthers⟩ := List.pairwise_append.mp kept.apart
  obtain ⟨operands, rest⟩ := List.forall_mem_append.mp kept.planted
  obtain ⟨earlier, earlierRest⟩ := List.forall_mem_append.mp forest.planted
  have within_cases {id : ExprId} (within : after.Within id ⟨before.size⟩) :
      id = ⟨before.size⟩ ∨ ∃ child ∈ node.shape.children, after.Within id child := by
    rcases Relation.ReflTransGen.cases_tail_iff _ _ _ |>.mp within with same | ⟨child, below, operand⟩
    · exact .inl same.symm
    · exact .inr ⟨child, (operand_iff isNode).mp operand, below⟩
  refine ⟨List.forall_mem_cons.mpr ⟨⟨fun id within => ?_, fun id within => ?_, .of_children ?_ ?_ ?_,
    fun id found within isFound => ?_⟩, rest⟩, List.pairwise_cons.mpr
      ⟨fun second isSecond id within inSecond => ?_, apartRest⟩⟩
  · rcases within_cases within with rfl | ⟨child, member, below⟩
    · exact allocated_of_node? isNode
    · exact (operands child member).allocated below
  · rcases within_cases within with rfl | ⟨child, member, below⟩
    · exact begins
    · exact (operands child member).recent below
  · rw [shapeAt_of_node? isNode]
    exact fun child member within =>
      Nat.lt_irrefl _ ((earlier child member).index_lt extension within)
  · rw [shapeAt_of_node? isNode]
    exact fun child member => (operands child member).tree
  · rw [shapeAt_of_node? isNode]
    exact apartOperands
  · rcases within_cases within with rfl | ⟨child, member, below⟩
    · rw [isNode] at isFound
      cases isFound
      exact plain
    · exact (operands child member).untyped below isFound
  · rcases within_cases within with rfl | ⟨child, member, below⟩
    · -- The trees beside the new node were there before it.
      exact Nat.lt_irrefl _ ((earlierRest second isSecond).index_lt extension inSecond)
    · exact apartOthers child member second isSecond id below inSecond

end Forest

end Assay.Arena
