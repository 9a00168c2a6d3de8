import Assay.Proofs.Expr.Trails

/-!
Contract: expressions in which no node is shared.
-/

namespace Assay.Arena

variable {arena before after : Arena} {id root child parent old new : ExprId} {path : List Nat}

/-! ## Parts that are left alone -/

def Untouched (before after : Arena) (root : ExprId) : Prop :=
  ∀ ⦃id⦄, before.Within id root → after.node? id = before.node? id

namespace Untouched

theorem of_kept (allocated : ∀ ⦃id⦄, before.Within id root → before.Allocated id)
    (keeps : ∀ {id node}, before.node? id = some node → after.node? id = some node) :
    Untouched before after root := by
  intro id within
  obtain ⟨node, isNode⟩ := exists_node? (allocated within)
  rw [isNode, keeps isNode]

variable (untouched : Untouched before after root)
include untouched

theorem within (within : before.Within id root) : Untouched before after id :=
  fun _ below => untouched (below.trans within)

theorem shapeAt_eq : after.shapeAt root = before.shapeAt root := by
  rw [shapeAt, nodeAt, untouched .refl]
  rfl

theorem follow?_eq (path : List Nat) : after.follow? root path = before.follow? root path :=
  follow?_congr (fun _ below => by rw [(untouched.within below).shapeAt_eq]) path

theorem within_iff : after.Within id root ↔ before.Within id root := by
  rw [within_iff_follow?, within_iff_follow?]
  simp only [untouched.follow?_eq]

/-- What is left alone is folded as before. -/
theorem fold_eq (acyclic : before.Acyclic) (acyclicAfter : after.Acyclic)
    (allocated : before.Allocated root) {α : Type} (stop : α) (value : ExprId → Node → Shape α → α) :
    after.fold stop value root = before.fold stop value root := by
  revert untouched
  refine acyclic.induction ?_ root allocated
  intro root node isNode operands untouched
  have isNodeAfter := (untouched .refl).trans isNode
  rw [acyclic.fold_eq stop value isNode, acyclicAfter.fold_eq stop value isNodeAfter]
  congr 1
  apply Shape.map_congr
  intro child member
  exact operands child member (untouched.within (.single (operand_of_mem isNode member)))

end Untouched

/-! ## Trees -/

def Apart (arena : Arena) (roots : List ExprId) : Prop :=
  roots.Pairwise fun first second => ∀ id, arena.Within id first → ¬ arena.Within id second

theorem Apart.place_eq {roots : List ExprId} {first second : ExprId} {place other : Nat}
    (apart : arena.Apart roots) (isFirst : roots[place]? = some first)
    (isSecond : roots[other]? = some second) (inFirst : arena.Within id first)
    (inSecond : arena.Within id second) : place = other := by
  obtain ⟨earlier, rfl⟩ := List.getElem?_eq_some_iff.mp isFirst
  obtain ⟨later, rfl⟩ := List.getElem?_eq_some_iff.mp isSecond
  have pairwise := List.pairwise_iff_getElem.mp apart
  by_contra different
  rcases Nat.lt_or_gt_of_ne different with before | after
  · exact pairwise _ _ earlier later before id inFirst inSecond
  · exact pairwise _ _ later earlier after id inSecond inFirst

def Tree (arena : Arena) (root : ExprId) : Prop :=
  ∀ ⦃first second id⦄, arena.follow? root first = some id →
    arena.follow? root second = some id → first = second

theorem tree_leaf (leaf : (arena.shapeAt root).children = []) : arena.Tree root := by
  intro first second id leadsFirst leadsSecond
  rw [(follow?_leaf leaf leadsFirst).1, (follow?_leaf leaf leadsSecond).1]

namespace Tree

theorem within (tree : arena.Tree root) (within : arena.Within id root) : arena.Tree id := by
  obtain ⟨path, leads⟩ := within.exists_follow?
  intro first second inner leadsFirst leadsSecond
  rw [← follow?_append_of_eq leads] at leadsFirst leadsSecond
  exact List.append_cancel_left (tree leadsFirst leadsSecond)

theorem of_follow?_eq (tree : before.Tree root)
    (same : ∀ path, after.follow? root path = before.follow? root path) : after.Tree root := by
  intro first second id leadsFirst leadsSecond
  rw [same] at leadsFirst leadsSecond
  exact tree leadsFirst leadsSecond

/-- Two operands of a node have no node in common. -/
theorem apart_children (tree : arena.Tree root) :
    arena.Apart (arena.shapeAt root).children := by
  rw [Apart, List.pairwise_iff_getElem]
  intro earlier later isEarlier isLater before id inFirst inSecond
  obtain ⟨first, leadsFirst⟩ := inFirst.exists_follow?
  obtain ⟨second, leadsSecond⟩ := inSecond.exists_follow?
  have same := tree
    (follow?_cons_eq_some.mpr ⟨_, List.getElem?_eq_getElem isEarlier, leadsFirst⟩)
    (follow?_cons_eq_some.mpr ⟨_, List.getElem?_eq_getElem isLater, leadsSecond⟩)
  injection same with samePlace
  omega

/-- A node over trees that have no node in common and do not contain it. -/
theorem of_children (outside : ∀ child ∈ (arena.shapeAt root).children, ¬ arena.Within root child)
    (trees : ∀ child ∈ (arena.shapeAt root).children, arena.Tree child)
    (apart : arena.Apart (arena.shapeAt root).children) : arena.Tree root := by
  have strictly {place : Nat} {rest : List Nat} :
      arena.follow? root (place :: rest) ≠ some root := by
    intro leads
    obtain ⟨child, isChild, below⟩ := follow?_cons_eq_some.mp leads
    exact outside child (List.mem_of_getElem? isChild) (within_of_follow? below)
  intro first second id leadsFirst leadsSecond
  match first, second with
  | [], [] => rfl
  | [], _ :: _ =>
    cases leadsFirst
    exact absurd leadsSecond strictly
  | _ :: _, [] =>
    cases leadsSecond
    exact absurd leadsFirst strictly
  | place :: rest, other :: others =>
    obtain ⟨child, isChild, inChild⟩ := follow?_cons_eq_some.mp leadsFirst
    obtain ⟨sibling, isSibling, inSibling⟩ := follow?_cons_eq_some.mp leadsSecond
    have same := apart.place_eq isChild isSibling
      (within_of_follow? inChild) (within_of_follow? inSibling)
    subst same
    rw [isChild] at isSibling
    cases isSibling
    rw [trees child (List.mem_of_getElem? isChild) inChild inSibling]

end Tree

/-! ## A splice in a tree -/

def Above (arena : Arena) (root : ExprId) (path : List Nat) (id : ExprId) : Prop :=
  ∃ shorter, shorter <+: path ∧ arena.follow? root shorter = some id

/-- The operand at `slot` of the node that `start` leads to has made way for `new`. -/
structure Grafted (before after : Arena) (root : ExprId) (start : List Nat) (slot : Nat)
    (old new : ExprId) : Prop where
  replaced : before.follow? root (start ++ [slot]) = some old
  through : ∀ rest, after.follow? root (start ++ slot :: rest) = after.follow? new rest
  aside : ∀ path, ¬ start ++ [slot] <+: path →
    after.follow? root path = before.follow? root path
  beside : ∀ {id}, ¬ before.Above root start id → after.node? id = before.node? id
  above : ∀ {id node}, before.Above root start id → before.node? id = some node →
    ∃ shape, after.node? id = some { node.forgotten with shape := shape }

namespace Grafted

variable {start : List Nat} {slot : Nat}

/-- What does not lie above the changed operand is left alone with all below it. -/
theorem untouched_beside (grafted : Grafted before after root start slot old new)
    (tree : before.Tree root) (within : before.Within id root)
    (notAbove : ¬ before.Above root start id) : Untouched before after id := by
  intro inner below
  apply grafted.beside
  rintro ⟨shorter, isPrefix, leads⟩
  obtain ⟨path, leadsTo⟩ := within.exists_follow?
  obtain ⟨rest, leadsBelow⟩ := below.exists_follow?
  rw [← follow?_append_of_eq leadsTo] at leadsBelow
  have same : path ++ rest = shorter := tree leadsBelow leads
  exact notAbove ⟨path, List.IsPrefix.trans ⟨rest, same⟩ isPrefix, leadsTo⟩

theorem untouched_old (grafted : Grafted before after root start slot old new)
    (tree : before.Tree root) : Untouched before after old := by
  apply grafted.untouched_beside tree (within_of_follow? grafted.replaced)
  rintro ⟨shorter, isPrefix, leads⟩
  have same := tree grafted.replaced leads
  have length := isPrefix.length_le
  rw [← same, List.length_append, List.length_singleton] at length
  omega

def Supplies (before : Arena) (root old new : ExprId) : Prop :=
  before.Within new old ∨ ¬ before.Within new root ∧ (before.shapeAt new).children = []

theorem Supplies.tree (supplies : Supplies before root old new) (tree : before.Tree root)
    (within : before.Within old root) : before.Tree new := by
  rcases supplies with below | ⟨_, leaf⟩
  · exact tree.within (below.trans within)
  · exact tree_leaf leaf

theorem within_leaf (leaf : (before.shapeAt new).children = []) (within : before.Within id new) :
    id = new := by
  obtain ⟨path, leads⟩ := within.exists_follow?
  exact (follow?_leaf leaf leads).2

variable (grafted : Grafted before after root start slot old new) (tree : before.Tree root)
  (supplies : Supplies before root old new)
include grafted tree supplies

theorem untouched_new : Untouched before after new := by
  rcases supplies with below | ⟨outside, leaf⟩
  · exact (grafted.untouched_old tree).within below
  · intro inner within
    rw [within_leaf leaf within]
    apply grafted.beside
    rintro ⟨shorter, _, leads⟩
    exact outside (within_of_follow? leads)

/-- Nodes of the new part are reached through it only. -/
theorem apart (aside : ¬ start ++ [slot] <+: path) (leads : before.follow? root path = some id) :
    ¬ before.Within id new := by
  intro within
  rcases supplies with below | ⟨outside, leaf⟩
  · have inOld : before.Within id old := within.trans below
    obtain ⟨rest, leadsBelow⟩ := inOld.exists_follow?
    rw [← follow?_append_of_eq grafted.replaced] at leadsBelow
    exact aside ⟨rest, tree leadsBelow leads⟩
  · rw [within_leaf leaf within] at leads
    exact outside (within_of_follow? leads)

/-- Every path after the splice goes through the new part or leads where it led. -/
theorem follow?_cases (leads : after.follow? root path = some id) :
    (∃ rest, path = start ++ slot :: rest ∧ before.follow? new rest = some id) ∨
      ¬ start ++ [slot] <+: path ∧ before.follow? root path = some id := by
  by_cases goesThrough : start ++ [slot] <+: path
  · obtain ⟨rest, rfl⟩ := goesThrough
    rw [List.append_assoc, List.singleton_append, grafted.through,
      (grafted.untouched_new tree supplies).follow?_eq] at leads
    exact .inl ⟨rest, by simp, leads⟩
  · rw [grafted.aside path goesThrough] at leads
    exact .inr ⟨goesThrough, leads⟩

theorem within_cases (within : after.Within id root) :
    before.Within id root ∨ before.Within id new := by
  obtain ⟨path, leads⟩ := within.exists_follow?
  rcases grafted.follow?_cases tree supplies leads with ⟨rest, _, below⟩ | ⟨_, same⟩
  · exact .inr (within_of_follow? below)
  · exact .inl (within_of_follow? same)

/-- The expression is still a tree. -/
theorem tree_after : after.Tree root := by
  have newTree := supplies.tree tree (within_of_follow? grafted.replaced)
  intro first second id leadsFirst leadsSecond
  rcases grafted.follow?_cases tree supplies leadsFirst with
    ⟨restFirst, rfl, belowFirst⟩ | ⟨asideFirst, sameFirst⟩
  · rcases grafted.follow?_cases tree supplies leadsSecond with
      ⟨restSecond, rfl, belowSecond⟩ | ⟨asideSecond, sameSecond⟩
    · rw [newTree belowFirst belowSecond]
    · exact absurd (within_of_follow? belowFirst)
        (grafted.apart tree supplies asideSecond sameSecond)
  · rcases grafted.follow?_cases tree supplies leadsSecond with
      ⟨restSecond, rfl, belowSecond⟩ | ⟨asideSecond, sameSecond⟩
    · exact absurd (within_of_follow? belowSecond)
        (grafted.apart tree supplies asideFirst sameFirst)
    · exact tree sameFirst sameSecond

end Grafted

end Assay.Arena

namespace Assay.Rooted

variable {expr spliced : Rooted} {old new : ExprId}

/-- In a tree a splice follows the only path to the replaced node. -/
theorem splice?_grafted (acyclic : expr.arena.Acyclic) (allocated : expr.arena.Allocated expr.root)
    (tree : expr.arena.Tree expr.root) (isSpliced : expr.splice? old new = some spliced) :
    spliced.root = expr.root ∧ ∃ parent start slot,
      Arena.Respliced expr.arena spliced.arena parent old new ∧
      Arena.Grafted expr.arena spliced.arena expr.root start slot old new := by
  obtain ⟨sameRoot, trail, parent, search, isLast, along⟩ :=
    splice?_along acyclic allocated isSpliced
  obtain ⟨start, last, _, _, leads, sameLast, _, _, passed, _⟩ :=
    acyclic.pathTo?_trail allocated search
  rw [isLast] at sameLast
  cases sameLast
  obtain ⟨slot, isOldSlot, isNewSlot, leadsTo⟩ := along.follow?_cases
  have aside : ∀ path, ¬ start ++ [slot] <+: path →
      spliced.arena.follow? expr.root path = expr.arena.follow? expr.root path := by
    intro path notThrough
    rcases leadsTo expr.root path with same | ⟨other, rest, rfl, leadsOther, _⟩
    · exact same
    · rw [tree leadsOther leads] at notThrough
      exact absurd ⟨rest, by simp⟩ notThrough
  have leadsAfter : spliced.arena.follow? expr.root start = some parent := by
    rw [aside start, leads]
    intro longer
    have length := longer.length_le
    rw [List.length_append, List.length_singleton] at length
    omega
  refine ⟨sameRoot, parent, start, slot, along.toRespliced, ?_, ?_, aside, ?_, ?_⟩
  · exact Arena.follow?_concat_eq_some.mpr ⟨parent, leads, isOldSlot⟩
  · intro rest
    rw [Arena.follow?_append_of_eq leadsAfter, Arena.follow?_cons, isNewSlot, Option.bind_some]
  · intro id notAbove
    apply along.offTrail
    rw [passed]
    exact notAbove
  · intro id node isAbove
    exact along.onTrail ((passed id).mpr isAbove)

end Assay.Rooted
