import Assay.Proofs.Expr.Exhaustion
import Assay.Proofs.Expr.Occurrences

/-!
Contract: which branch of an expression is folded next.
-/

namespace Assay.Arena

variable {arena : Arena} {root branch : ExprId} {path first second : List Nat} {depth : Nat}

/-! ## Candidates -/

def isFoldable (arena : Arena) (id : ExprId) : Bool :=
  (arena.shapeAt id).isOperator && arena.isConst id

/-- The path leads to a constant operator, and passes no other on its way. -/
structure Candidate (arena : Arena) (root : ExprId) (path : List Nat) : Prop where
  foldable : ∃ id, arena.follow? root path = some id ∧ arena.isFoldable id = true
  topmost : ∀ shorter id, shorter <+: path → shorter ≠ path →
    arena.follow? root shorter = some id → arena.isFoldable id = false

/-- A constant operator is its own and only candidate. -/
theorem candidate_of_foldable (foldable : arena.isFoldable root = true) :
    arena.Candidate root path ↔ path = [] := by
  constructor
  · intro candidate
    by_contra longer
    have nothing := candidate.topmost [] root List.nil_prefix (Ne.symm longer) rfl
    simp [foldable] at nothing
  · rintro rfl
    refine ⟨⟨root, rfl, foldable⟩, fun shorter id isPrefix different => ?_⟩
    exact absurd (List.prefix_nil.mp isPrefix) different

/-- The candidates below any other node are those of its operands. -/
theorem candidate_of_not_foldable (notFoldable : arena.isFoldable root = false) :
    arena.Candidate root path ↔ ∃ place rest child, path = place :: rest ∧
      (arena.shapeAt root).children[place]? = some child ∧ arena.Candidate child rest := by
  constructor
  · intro candidate
    obtain ⟨id, found, foldable⟩ := candidate.foldable
    cases path with
    | nil =>
      cases found
      simp [notFoldable] at foldable
    | cons place rest =>
      obtain ⟨child, isChild, below⟩ := follow?_cons_eq_some.mp found
      refine ⟨place, rest, child, rfl, isChild, ⟨id, below, foldable⟩, ?_⟩
      intro shorter inner isPrefix different leads
      apply candidate.topmost (place :: shorter) inner
      · exact (List.prefix_cons_inj place).mpr isPrefix
      · simpa using different
      · exact follow?_cons_eq_some.mpr ⟨child, isChild, leads⟩
  · rintro ⟨place, rest, child, rfl, isChild, candidate⟩
    obtain ⟨id, found, foldable⟩ := candidate.foldable
    refine ⟨⟨id, follow?_cons_eq_some.mpr ⟨child, isChild, found⟩, foldable⟩, ?_⟩
    intro shorter inner isPrefix different leads
    rcases List.prefix_cons_iff.mp isPrefix with rfl | ⟨short, rfl, isShort⟩
    · cases leads
      exact notFoldable
    · obtain ⟨other, isOther, leadsBelow⟩ := follow?_cons_eq_some.mp leads
      rw [isChild] at isOther
      cases isOther
      apply candidate.topmost short inner isShort
      · simpa using different
      · exact leadsBelow

/-! ## The order of occurrences -/

/-- Occurrences higher up come first, and those at one depth from left to right. -/
def Precedes (first second : List Nat) : Prop :=
  first.length < second.length ∨
    first.length = second.length ∧ List.Lex (· < ·) first second

theorem Precedes.asymm (precedes : Precedes first second) : ¬ Precedes second first := by
  intro back
  rcases precedes with shorter | ⟨_, earlier⟩
  · rcases back with longer | ⟨same, _⟩ <;> omega
  · rcases back with longer | ⟨_, later⟩
    · omega
    · exact List.lex_asymm (fun less greater => Nat.lt_asymm less greater) earlier later

theorem Precedes.cons (precedes : Precedes first second) (place : Nat) :
    Precedes (place :: first) (place :: second) := by
  rcases precedes with shorter | ⟨same, earlier⟩
  · left
    simpa using shorter
  · right
    exact ⟨by simpa using same, .cons earlier⟩

theorem precedes_of_place_lt {place other : Nat} (notLonger : first.length ≤ second.length)
    (earlier : place < other) : Precedes (place :: first) (other :: second) := by
  rcases Nat.lt_or_eq_of_le notLonger with shorter | same
  · left
    simpa using shorter
  · right
    exact ⟨by simpa using same, .rel earlier⟩

structure Last (arena : Arena) (root : ExprId) (path : List Nat) (branch : ExprId) : Prop where
  candidate : arena.Candidate root path
  leads : arena.follow? root path = some branch
  latest : ∀ other, arena.Candidate root other → other ≠ path → Precedes other path

theorem Last.length_le {other : List Nat} (last : arena.Last root path branch)
    (candidate : arena.Candidate root other) : other.length ≤ path.length := by
  by_cases isLast : other = path
  · rw [isLast]
  · rcases last.latest other candidate isLast with shorter | ⟨same, _⟩ <;> omega

theorem Last.unique {other : List Nat} {otherBranch : ExprId}
    (last : arena.Last root path branch) (lastOther : arena.Last root other otherBranch) :
    branch = otherBranch := by
  by_cases same : other = path
  · subst same
    exact Option.some.inj (last.leads.symm.trans lastOther.leads)
  · have precedes := last.latest other lastOther.candidate same
    exact absurd (lastOther.latest path last.candidate (Ne.symm same)) precedes.asymm

/-! ## The search -/

section Latest

variable {earlier branches : List (Option (Nat × ExprId))} {newest : Option (Nat × ExprId)}
  {rival : Nat × ExprId} {place : Nat}

/-- Of the branches that were found, the one at `place` is the last of the deepest. -/
structure Latest (branches : List (Option (Nat × ExprId))) (place depth : Nat) (branch : ExprId) :
    Prop where
  found : branches[place]? = some (some (depth, branch))
  latest : ∀ (other : Nat) (rival : Nat × ExprId), branches[other]? = some (some rival) →
    rival.1 < depth ∨ rival.1 = depth ∧ other ≤ place

theorem getElem?_concat_eq_some {found : Option (Nat × ExprId)} :
    (earlier ++ [newest])[place]? = some found ↔
      earlier[place]? = some found ∨ place = earlier.length ∧ newest = found := by
  grind

theorem Latest.depth_le (best : Latest branches place depth branch)
    (member : some rival ∈ branches) : rival.1 ≤ depth := by
  obtain ⟨other, isRival⟩ := List.mem_iff_getElem?.mp member
  have notDeeper := best.latest other rival isRival
  omega

/-- A branch that is not as deep changes nothing. -/
theorem Latest.keep (best : Latest earlier place depth branch)
    (shallower : ∀ rival, newest = some rival → rival.1 < depth) :
    Latest (earlier ++ [newest]) place depth branch where
  found := getElem?_concat_eq_some.mpr (.inl best.found)
  latest := by
    intro other rival isRival
    rcases getElem?_concat_eq_some.mp isRival with older | ⟨_, same⟩
    · exact best.latest other rival older
    · exact .inl (shallower rival same)

/-- A branch takes the place of those before it that are no deeper. -/
theorem latest_newest (noDeeper : ∀ rival, some rival ∈ earlier → rival.1 ≤ depth) :
    Latest (earlier ++ [some (depth, branch)]) earlier.length depth branch where
  found := getElem?_concat_eq_some.mpr (.inr ⟨rfl, rfl⟩)
  latest := by
    intro other rival isRival
    rcases getElem?_concat_eq_some.mp isRival with older | ⟨rfl, same⟩
    · obtain ⟨before, _⟩ := List.getElem?_eq_some_iff.mp older
      have notDeeper := noDeeper rival (List.mem_of_getElem? older)
      omega
    · cases same
      exact .inr ⟨rfl, le_rfl⟩

/-- Of the branches found in the operands, the last of the deepest is kept. -/
theorem foldl_deeper_latest (chosen : branches.foldl deeper none = some (depth, branch)) :
    ∃ place, Latest branches place depth branch := by
  -- From the right: the newest branch is compared with the best of those before it.
  induction branches using List.reverseRecOn generalizing depth branch with
  | nil => cases chosen
  | append_singleton earlier newest ih =>
    rw [List.foldl_concat] at chosen
    rcases isBest : earlier.foldl deeper none with _ | ⟨bestDepth, bestBranch⟩
    · rw [isBest] at chosen
      have isNewest : newest = some (depth, branch) := chosen
      have nothing := (foldl_deeper_eq_none_iff.mp isBest).2
      rw [isNewest]
      exact ⟨_, latest_newest fun rival member => by cases nothing _ member⟩
    · obtain ⟨place, best⟩ := ih isBest
      rw [isBest] at chosen
      rcases newest with _ | ⟨newestDepth, newestBranch⟩
      · cases chosen
        exact ⟨place, best.keep fun rival same => by cases same⟩
      · simp only [deeper] at chosen
        split at chosen
        · next atLeast =>
          cases chosen
          refine ⟨_, latest_newest fun rival member => ?_⟩
          have notDeeper := best.depth_le member
          omega
        · next less =>
          cases chosen
          refine ⟨place, best.keep fun rival same => ?_⟩
          cases same
          exact Nat.lt_of_not_le less

end Latest

section

variable (acyclic : arena.Acyclic) (allocated : arena.Allocated root)
include acyclic allocated

/-- The search in one node: a constant operator is found at once, any other node passes on the
branch that is found in its operands. -/
theorem Acyclic.branchStep_eq :
    arena.fold none arena.branchStep root =
      if arena.isFoldable root then some (0, root)
      else ((arena.shapeAt root).children.map fun child =>
        (arena.fold none arena.branchStep child).map fun found =>
          (found.1 + 1, found.2)).foldl deeper none := by
  obtain ⟨node, isNode⟩ := exists_node? allocated
  rw [acyclic.fold_eq _ _ isNode, branchStep, Shape.children_map, List.map_map, isFoldable,
    shapeAt_of_node? isNode]
  rfl

theorem Acyclic.branch_none_iff :
    arena.fold none arena.branchStep root = none ↔ ∀ path, ¬ arena.Candidate root path := by
  refine acyclic.induction ?_ root allocated
  intro root node isNode operands
  rw [acyclic.branchStep_eq (allocated_of_node? isNode)]
  cases foldable : arena.isFoldable root with
  | true => simp [candidate_of_foldable foldable]
  | false =>
    rw [if_neg Bool.false_ne_true, foldl_deeper_eq_none_iff]
    constructor
    · rintro ⟨_, nothing⟩ path candidate
      obtain ⟨place, rest, child, rfl, isChild, candidate⟩ :=
        (candidate_of_not_foldable foldable).mp candidate
      have member := List.mem_of_getElem? isChild
      have none := nothing _ (List.mem_map_of_mem member)
      rw [shapeAt_of_node? isNode] at member
      exact (operands child member).mp (Option.map_eq_none_iff.mp none) rest candidate
    · intro nothing
      refine ⟨rfl, fun found member => ?_⟩
      obtain ⟨child, isChild, rfl⟩ := List.mem_map.mp member
      obtain ⟨place, isPlace⟩ := List.mem_iff_getElem?.mp isChild
      rw [shapeAt_of_node? isNode] at isChild
      rw [Option.map_eq_none_iff, operands child isChild]
      intro rest candidate
      exact nothing (place :: rest) ((candidate_of_not_foldable foldable).mpr
        ⟨place, rest, child, rfl, isPlace, candidate⟩)

/-- What the search finds is the last candidate, at the depth that it counts. -/
theorem Acyclic.branch_last ⦃depth : Nat⦄ ⦃branch : ExprId⦄
    (found : arena.fold none arena.branchStep root = some (depth, branch)) :
    ∃ path, arena.Last root path branch ∧ path.length = depth := by
  revert depth branch
  refine acyclic.induction ?_ root allocated
  intro root node isNode operands depth branch found
  have isAllocated := allocated_of_node? isNode
  rw [acyclic.branchStep_eq isAllocated] at found
  cases foldable : arena.isFoldable root with
  | true =>
    rw [foldable, if_pos rfl] at found
    cases found
    refine ⟨[], ⟨(candidate_of_foldable foldable).mpr rfl, rfl, fun other candidate => ?_⟩, rfl⟩
    intro different
    exact absurd ((candidate_of_foldable foldable).mp candidate) different
  | false =>
    rw [foldable, if_neg Bool.false_ne_true] at found
    obtain ⟨place, best⟩ := foldl_deeper_latest found
    have isPlace := best.found
    rw [List.getElem?_map] at isPlace
    obtain ⟨child, isChild, isBest⟩ := Option.map_eq_some_iff.mp isPlace
    obtain ⟨⟨below, _⟩, foundBelow, same⟩ := Option.map_eq_some_iff.mp isBest
    cases same
    have isOperand : ∀ {place : Nat} {child : ExprId},
        (arena.shapeAt root).children[place]? = some child → child ∈ node.shape.children := by
      intro place child isChild
      rw [← shapeAt_of_node? isNode]
      exact List.mem_of_getElem? isChild
    obtain ⟨rest, last, length⟩ := operands child (isOperand isChild) foundBelow
    refine ⟨place :: rest, ⟨?_, ?_, ?_⟩, by simp [length]⟩
    · exact (candidate_of_not_foldable foldable).mpr
        ⟨place, rest, child, rfl, isChild, last.candidate⟩
    · exact follow?_cons_eq_some.mpr ⟨child, isChild, last.leads⟩
    · intro other candidate different
      obtain ⟨otherPlace, otherRest, otherChild, rfl, isOther, candidate⟩ :=
        (candidate_of_not_foldable foldable).mp candidate
      by_cases samePlace : otherPlace = place
      · -- In the same operand the order is that of the operand.
        subst samePlace
        rw [isChild] at isOther
        cases isOther
        exact (last.latest otherRest candidate (by simpa using different)).cons otherPlace
      · -- Another operand counts with its own last candidate, which is found there.
        have otherMember := isOperand isOther
        have otherAllocated := acyclic.allocated (operand_of_mem isNode otherMember)
        rcases foundOther : arena.fold none arena.branchStep otherChild with _ | ⟨otherDepth, chosen⟩
        · exact absurd candidate
            ((acyclic.branch_none_iff otherAllocated).mp foundOther otherRest)
        · obtain ⟨otherPath, otherLast, otherLength⟩ := operands otherChild otherMember foundOther
          have notLonger := otherLast.length_le candidate
          have notAfter := best.latest otherPlace (otherDepth + 1, chosen)
            (by rw [List.getElem?_map, isOther, Option.map_some, foundOther]; rfl)
          rcases notAfter with shallower | ⟨_, before⟩
          · left
            simp only [List.length_cons]
            omega
          · exact precedes_of_place_lt (by omega) (Nat.lt_of_le_of_ne before samePlace)

end

/-- The branch that is folded next is the last of the deepest constant operators that lie in no
larger one, by depth and then from left to right; there is none only if no constant operator is
left. A shared node counts once for each path to it. -/
theorem constBranch?_finds_last (acyclic : arena.Acyclic) (allocated : arena.Allocated root) :
    (arena.constBranch? root = none ↔ ∀ path, ¬ arena.Candidate root path) ∧
    ∀ branch, arena.constBranch? root = some branch ↔
      ∃ path, arena.Candidate root path ∧ arena.follow? root path = some branch ∧
        ∀ other, arena.Candidate root other → other ≠ path → Precedes other path := by
  constructor
  · rw [constBranch?, Option.map_eq_none_iff]
    exact acyclic.branch_none_iff allocated
  · intro branch
    constructor
    · intro chosen
      obtain ⟨⟨depth, _⟩, found, rfl⟩ := Option.map_eq_some_iff.mp chosen
      obtain ⟨path, last, _⟩ := acyclic.branch_last allocated found
      exact ⟨path, last.candidate, last.leads, last.latest⟩
    · rintro ⟨path, candidate, leads, latest⟩
      rcases found : arena.fold none arena.branchStep root with _ | ⟨depth, other⟩
      · exact absurd candidate ((acyclic.branch_none_iff allocated).mp found path)
      · obtain ⟨_, last, _⟩ := acyclic.branch_last allocated found
        have same := last.unique ⟨candidate, leads, latest⟩
        rw [constBranch?, found, ← same]
        rfl

/-- The list of `1 + 2` and `(a + (1 + 2)) + 2 * 3`, in which both sums `1 + 2` are one node. -/
def mixedDepths : Arena :=
  let node (shape : Shape ExprId) : Node := ⟨.builtin, .null, shape⟩
  ⟨#[node (.name "a"), node (.literal (.int 1)), node (.literal (.int 2)),
    node (.binary .add ⟨1⟩ ⟨2⟩), node (.binary .add ⟨0⟩ ⟨3⟩), node (.literal (.int 3)),
    node (.binary .mul ⟨2⟩ ⟨5⟩), node (.binary .add ⟨4⟩ ⟨6⟩), node (.list [⟨3⟩, ⟨7⟩])]⟩

/-- The sum is found where it lies deepest, although the product comes later. -/
theorem constBranch?_finds_last_mixedDepths :
    mixedDepths.Acyclic ∧ mixedDepths.Allocated ⟨8⟩ ∧ mixedDepths.Candidate ⟨8⟩ [1, 1] ∧
    mixedDepths.constBranch? ⟨8⟩ = some ⟨3⟩ ∧
    ∃ path, mixedDepths.Candidate ⟨8⟩ path ∧ mixedDepths.follow? ⟨8⟩ path = some ⟨3⟩ ∧
      Precedes [1, 1] path := by
  have acyclic : mixedDepths.Acyclic := .of_ordered (by decide)
  have allocated : mixedDepths.Allocated ⟨8⟩ := by decide
  have product : mixedDepths.Candidate ⟨8⟩ [1, 1] := by
    rw [candidate_of_not_foldable (by decide)]
    refine ⟨1, [1], ⟨7⟩, rfl, rfl, ?_⟩
    rw [candidate_of_not_foldable (by decide)]
    refine ⟨1, [], ⟨6⟩, rfl, rfl, ?_⟩
    rw [candidate_of_foldable (by decide)]
  have chosen : mixedDepths.constBranch? ⟨8⟩ = some ⟨3⟩ := by decide
  obtain ⟨path, candidate, leads, latest⟩ :=
    ((constBranch?_finds_last acyclic allocated).2 ⟨3⟩).mp chosen
  refine ⟨acyclic, allocated, product, chosen, path, candidate, leads, latest [1, 1] product ?_⟩
  rintro rfl
  cases leads

end Assay.Arena
