import Assay.Proofs.Expr.Tally

/-!
Contract: how far inlining gets.
-/

namespace Assay

namespace Arena

variable {arena before after : Arena} {id root target : ExprId} {node : Node}

/-! ## Paths to a node -/

def paths (arena : Arena) (target : ExprId) : ExprId → Nat :=
  arena.fold 0 fun id _ operands => (if id = target then 1 else 0) + operands.children.sum

theorem Acyclic.paths_eq (acyclic : arena.Acyclic) {shape : Shape ExprId}
    (found : arena.shape? id = some shape) :
    arena.paths target id =
      (if id = target then 1 else 0) + (shape.children.map (arena.paths target)).sum :=
  acyclic.tally_eq found

theorem Grows.paths_eq (grows : before.Grows after) (acyclic : before.Acyclic)
    (allocated : before.Allocated id) : after.paths target id = before.paths target id :=
  grows.fold_eq acyclic _ _ allocated

/-- There is a path to every node within. -/
theorem Acyclic.paths_pos (acyclic : arena.Acyclic) (allocated : arena.Allocated root)
    (within : arena.Within target root) : 0 < arena.paths target root := by
  obtain ⟨shape, found⟩ := allocated_iff_shape?.mp (within.allocated acyclic allocated)
  have oneself : arena.paths target target ≤ arena.paths target root := acyclic.tally_within within
  rw [acyclic.paths_eq found, if_pos rfl] at oneself
  omega

/-- Every path ends at a node within. -/
theorem Acyclic.within_of_paths (acyclic : arena.Acyclic) (allocated : arena.Allocated root)
    (positive : 0 < arena.paths target root) : arena.Within target root := by
  revert positive
  refine acyclic.induction ?_ root allocated
  intro root node isNode operands positive
  rw [acyclic.paths_eq (shape?_of_node? isNode)] at positive
  by_cases same : root = target
  · rw [same]
    exact .refl
  · rw [if_neg same, Nat.zero_add] at positive
    obtain ⟨count, member, countPositive⟩ : ∃ count ∈ node.shape.children.map (arena.paths target),
        0 < count := by
      by_contra none
      simp only [not_exists, not_and, Nat.not_lt, Nat.le_zero] at none
      rw [List.sum_eq_zero none] at positive
      omega
    obtain ⟨child, isChild, rfl⟩ := List.mem_map.mp member
    exact (operands child isChild countPositive).tail (operand_of_mem isNode isChild)

theorem Acyclic.paths_literal (acyclic : arena.Acyclic) {value : Literal}
    (literal : arena.shape? id = some (.literal value)) (different : target ≠ id) :
    arena.paths target id = 0 := by
  rw [acyclic.paths_eq literal, if_neg (Ne.symm different)]
  rfl

/-- The names in an expression, each as often as there are paths to it. -/
theorem Acyclic.count_names (acyclic : arena.Acyclic) (allocated : arena.Allocated root)
    {name : String} (isName : arena.shape? target = some (.name name)) :
    ((arena.names root).map Prod.fst).count target = arena.paths target root := by
  refine acyclic.induction ?_ root allocated
  intro root node isNode operands
  have found := shape?_of_node? isNode
  rw [names, acyclic.fold_eq _ _ isNode, acyclic.paths_eq found, Shape.children_map,
    List.map_append, List.count_append]
  congr 1
  · by_cases same : root = target
    · have isShape : node.shape = .name name := by
        rw [same, isName] at found
        exact (Option.some.inj found).symm
      simp [isShape, same]
    · rw [if_neg same]
      split
      · simp [same]
      · rfl
  · rw [List.map_flatten, List.count_flatten, List.map_map, List.map_map]
    congr 1
    exact List.map_congr_left operands

/-! ## Paths after a splice -/

namespace Respliced

variable {parent old new : ExprId} {value : Literal}

variable (respliced : Respliced before after parent old new)
include respliced

/-- No path is added. -/
theorem paths_le (acyclic : before.Acyclic) (acyclicAfter : after.Acyclic)
    (literal : before.shape? new = some (.literal value)) (different : target ≠ new)
    (allocated : before.Allocated id) : after.paths target id ≤ before.paths target id := by
  have nowhere := acyclic.paths_literal literal different
  have notMore : before.paths target new ≤ before.paths target old := by omega
  exact respliced.tally_le acyclic acyclicAfter notMore allocated

/-- Wherever the changed node is reached, a path to the replaced node is lost. -/
theorem paths_lt (acyclic : before.Acyclic) (acyclicAfter : after.Acyclic)
    (literal : before.shape? new = some (.literal value)) (different : old ≠ new)
    (within : before.Within parent id) : after.paths old id < before.paths old id := by
  have nowhere := acyclic.paths_literal literal different
  have oneself := acyclic.paths_pos (acyclic.allocated respliced.operand) .refl
  have less : before.paths old new < before.paths old old := by omega
  exact respliced.tally_lt acyclic acyclicAfter less within

/-- What is reached after a splice was reached before, but for the literal. -/
theorem within_cases (literal : before.shape? new = some (.literal value)) {top : ExprId}
    (within : after.Within id top) : id = new ∨ before.Within id top := by
  induction within with
  | refl => exact .inr .refl
  | tail _ operand ih =>
    rcases ih with isNew | below
    · exact .inl isNew
    · rcases respliced.operand_cases operand with older | ⟨rfl, rfl⟩
      · exact .inr (below.tail older)
      · rcases Relation.ReflTransGen.cases_tail below with same | ⟨child, _, impossible⟩
        · exact .inl same.symm
        · obtain ⟨shape, found, member⟩ := operand_iff_shape?.mp impossible
          rw [literal] at found
          cases found
          cases member

theorem shape?_name {name : String} (isName : after.shape? id = some (.name name)) :
    before.shape? id = some (.name name) := by
  rw [← respliced.elsewhere, isName]
  rintro rfl
  obtain ⟨_, replaced, earlier, later, _, foundAfter, _, childrenAfter⟩ := respliced.children_parent
  rw [isName] at foundAfter
  cases foundAfter
  simp [Shape.children] at childrenAfter

theorem scalar {env : Environment} (literal : before.shape? new = some (.literal value))
    (scalar : before.Scalar env root) : after.Scalar env root := by
  intro inner within
  rcases respliced.within_cases literal within with rfl | older
  · exact ⟨_, respliced.shape?_leaf literal rfl, .inl rfl⟩
  · obtain ⟨shape, found, form⟩ := scalar older
    by_cases isParent : inner = parent
    · obtain ⟨other, replaced, foundParent, foundAfter, isReplaced⟩ := respliced.exists_shapes
      rw [isParent, foundParent] at found
      cases found
      refine ⟨replaced, isParent ▸ foundAfter, .inl ?_⟩
      rcases form with closed | ⟨name, _, rfl, _⟩
      · exact Shape.isClosed_replaceFirst? isReplaced closed
      · cases isReplaced
    · rw [← respliced.elsewhere isParent] at found
      exact ⟨shape, found, form⟩

end Respliced

theorem Grows.scalar (grows : before.Grows after) {env : Environment}
    (scalar : before.Scalar env root) : after.Scalar env root := by
  intro inner within
  rw [Within, grows.operand_eq] at within
  obtain ⟨shape, found, form⟩ := scalar within
  obtain ⟨node, isNode, rfl⟩ := shape?_eq_some_iff.mp found
  exact ⟨node.shape, shape?_of_node? (grows.keeps isNode), form⟩

end Arena

namespace Rooted

variable {expr next : Rooted} {session : Session} {scope : ScopeId} {id : ExprId} {name : String}

/-! ## One name -/

/-- What inlining the name at `id` does to the names of an expression. -/
structure Progress (session : Session) (scope : ScopeId) (id : ExprId) (expr next : Rooted) :
    Prop where
  /-- No name is added. -/
  names : ∀ ⦃other name⦄, next.arena.shape? other = some (.name name) →
    expr.arena.shape? other = some (.name name)
  /-- No path to a name is added. -/
  paths_le : ∀ ⦃other name⦄, expr.arena.shape? other = some (.name name) →
    next.arena.paths other next.root ≤ expr.arena.paths other expr.root
  /-- If the value of the name is known, a path to it is lost as long as there is one. -/
  paths_lt : ∀ ⦃name value⦄, expr.arena.shape? id = some (.name name) →
    session.literals scope name = some value →
    next.arena.paths id next.root = 0 ∨
      next.arena.paths id next.root < expr.arena.paths id expr.root
  /-- Scalar expressions stay scalar. -/
  scalar : ∀ ⦃env⦄, expr.arena.Scalar env expr.root → next.arena.Scalar env next.root

theorem shape?_withLiteral (expr : Rooted) (id : ExprId) (value : Literal) (ty : Ty) :
    (expr.withLiteral id value ty).shape? ⟨expr.arena.size⟩ = some (.literal value) :=
  Arena.shape?_of_node? (expr.literal_withLiteral id value ty)

theorem name_withLiteral {other : ExprId} {value : Literal} {ty : Ty}
    (isName : (expr.withLiteral id value ty).shape? other = some (.name name)) :
    expr.arena.shape? other = some (.name name) := by
  obtain ⟨node, isNode, form⟩ := Arena.shape?_eq_some_iff.mp isName
  rw [node?_withLiteral] at isNode
  split at isNode
  · cases isNode
    cases form
  · exact Arena.shape?_eq_some_iff.mpr ⟨node, isNode, form⟩

theorem ne_literal {other : ExprId} {shape : Shape ExprId}
    (found : expr.arena.shape? other = some shape) : other ≠ ⟨expr.arena.size⟩ := by
  rintro rfl
  have allocated := Arena.allocated_iff_shape?.mpr ⟨shape, found⟩
  exact Nat.lt_irrefl _ allocated

theorem Progress.unknown (isName : expr.arena.shape? id = some (.name name))
    (missing : ∀ ty value, session.value? scope name ≠ some ⟨ty, some value⟩) :
    Progress session scope id expr expr where
  names := fun _ _ same => same
  paths_le := fun _ _ _ => le_rfl
  paths_lt := by
    intro spelling value isSpelling known
    rw [isName] at isSpelling
    cases isSpelling
    obtain ⟨⟨ty, found⟩, isValue, rfl⟩ := Option.bind_eq_some_iff.mp known
    exact absurd isValue (missing ty value)
  scalar := fun _ scalar => scalar

/-- A root that is replaced leaves a single literal. -/
theorem Progress.root (acyclic : expr.arena.Acyclic) (value : Literal) (ty : Ty) :
    Progress session scope id expr ⟨expr.withLiteral id value ty, ⟨expr.arena.size⟩⟩ := by
  have literal := expr.shape?_withLiteral id value ty
  have acyclicAfter := (expr.grows_withLiteral id value ty).acyclic acyclic
  have none : ∀ {other shape}, expr.arena.shape? other = some shape →
      (expr.withLiteral id value ty).paths other ⟨expr.arena.size⟩ = 0 := by
    intro other shape found
    exact acyclicAfter.paths_literal literal (ne_literal found)
  exact {
    names := fun _ _ isName => name_withLiteral isName
    paths_le := fun _ _ found => by simp [none found]
    paths_lt := fun _ _ found _ => .inl (none found)
    scalar := fun _ _ => .of_operands literal (.inl rfl) (by simp [Shape.children]) }

variable (acyclic : expr.arena.Acyclic) (allocated : expr.arena.Allocated expr.root)
include acyclic allocated

theorem Progress.spliced (isName : expr.arena.shape? id = some (.name name)) {value : Literal}
    {ty : Ty} {spliced : Rooted} (acyclicAfter : spliced.arena.Acyclic)
    (isSpliced : Rooted.splice? { expr with arena := expr.withLiteral id value ty } id
      ⟨expr.arena.size⟩ = some spliced) : Progress session scope id expr spliced := by
  have literal := expr.shape?_withLiteral id value ty
  have grows := expr.grows_withLiteral id value ty
  have grownAcyclic := grows.acyclic acyclic
  have rootAllocated := grows.allocated allocated
  obtain ⟨sameRoot, parent, within, respliced⟩ :=
    splice?_eq_some grownAcyclic rootAllocated isSpliced
  refine ⟨fun _ _ isName => name_withLiteral (respliced.shape?_name isName), ?_, ?_, ?_⟩
  · intro other spelling found
    rw [sameRoot, ← grows.paths_eq acyclic allocated]
    exact respliced.paths_le grownAcyclic acyclicAfter literal (ne_literal found) rootAllocated
  · intro _ _ _ _
    rw [sameRoot, ← grows.paths_eq acyclic allocated]
    exact .inr (respliced.paths_lt grownAcyclic acyclicAfter literal (ne_literal isName) within)
  · intro env scalar
    rw [sameRoot]
    exact respliced.scalar literal (grows.scalar scalar)

theorem Progress.detached {value : Literal} {ty : Ty} (notRoot : id ≠ expr.root)
    (refused : Rooted.splice? { expr with arena := expr.withLiteral id value ty } id
      ⟨expr.arena.size⟩ = none) :
    Progress session scope id expr { expr with arena := expr.withLiteral id value ty } := by
  have grows := expr.grows_withLiteral id value ty
  have grownAcyclic := grows.acyclic acyclic
  have rootAllocated := grows.allocated allocated
  refine ⟨fun _ _ isName => name_withLiteral isName, ?_, ?_, fun _ scalar => grows.scalar scalar⟩
  · intro other spelling found
    exact (grows.paths_eq acyclic allocated).le
  · intro _ _ _ _
    left
    by_contra positive
    have within := grownAcyclic.within_of_paths rootAllocated (Nat.pos_of_ne_zero positive)
    rcases within.below_or_eq with same | below
    · exact notRoot same
    · exact not_below_of_splice? grownAcyclic rootAllocated refused below

theorem inlineName_progress (isName : expr.arena.shape? id = some (.name name)) :
    Progress session scope id expr (inlineName session scope expr id name).2 := by
  have inlined := inlineName_inlines (agrees_literals session scope) acyclic allocated isName
  generalize isOutcome : inlineName session scope expr id name = outcome at inlined ⊢
  have inlining := isOutcome ▸ inlineName_inlining session scope expr id name
  cases inlining with
  | unknown missing => exact .unknown isName missing
  | root _ _ => exact .root acyclic _ _
  | spliced _ isSpliced => exact .spliced acyclic allocated isName inlined.arena.acyclic isSpliced
  | detached _ notRoot refused => exact .detached acyclic allocated notRoot refused

/-! ## All names -/

/-- Inlining the names that are listed, each path to a known name being listed: no name whose value
is known is left. -/
theorem inlineListed_complete {found : List (ExprId × String)}
    (areNames : ∀ id name, (id, name) ∈ found → expr.arena.shape? id = some (.name name))
    (listed : ∀ id name value, expr.arena.shape? id = some (.name name) →
      session.literals scope name = some value →
      expr.arena.paths id expr.root ≤ (found.map Prod.fst).count id) (count : Nat) :
    let last := (found.foldl (fun (count, current) (id, name) =>
      let (replaced, next) := inlineName session scope current id name
      (count + replaced.toNat, next)) (count, expr)).2
    (∀ id name value, last.arena.Within id last.root → last.arena.shape? id = some (.name name) →
      session.literals scope name ≠ some value) ∧
    ∀ env, expr.arena.Scalar env expr.root → last.arena.Scalar env last.root := by
  induction found generalizing expr count with
  | nil =>
    refine ⟨fun id name value within isName known => ?_, fun _ scalar => scalar⟩
    have positive := acyclic.paths_pos allocated within
    have none := listed id name value isName known
    simp only [List.map_nil, List.count_nil] at none
    omega
  | cons head rest ih =>
    obtain ⟨id, name⟩ := head
    have isName := areNames id name List.mem_cons_self
    have step := inlineName_inlines (agrees_literals session scope) acyclic allocated isName
    have progress : Progress session scope id expr _ :=
      inlineName_progress acyclic allocated isName
    rw [List.foldl_cons]
    have later := ih step.arena.acyclic step.root_allocated
      (fun other spelling member =>
        step.leaf (areNames other spelling (List.mem_cons_of_mem _ member)) rfl)
      (fun other spelling value isSpelling known => ?_)
      (count + (inlineName session scope expr id name).1.toNat)
    · exact ⟨later.1, fun env scalar => later.2 env (progress.scalar scalar)⟩
    · have wasName := progress.names isSpelling
      have before := listed other spelling value wasName known
      have notMore := progress.paths_le wasName
      rw [List.map_cons, List.count_cons] at before
      by_cases same : id = other
      · subst same
        rcases progress.paths_lt wasName known with none | fewer
        · omega
        · simp only [beq_self_eq_true, if_true] at before
          omega
      · have different : (id == other) = false := beq_false_of_ne same
        simp only [different, Bool.false_eq_true, if_false] at before
        omega

theorem inlineNames_complete :
    let last := (inlineNames session scope expr).2
    (∀ id name value, last.arena.Within id last.root → last.arena.shape? id = some (.name name) →
      session.literals scope name ≠ some value) ∧
    ∀ env, expr.arena.Scalar env expr.root → last.arena.Scalar env last.root := by
  apply inlineListed_complete acyclic allocated
  · intro id name member
    exact (acyclic.names_sound allocated member).2
  · intro id name value isName known
    rw [acyclic.count_names allocated isName]

end Rooted

end Assay
