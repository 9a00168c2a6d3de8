import Assay.Proofs.Expr.Solving
import Assay.Proofs.Expr.Trails

/-!
Contract: folding an expression changes the meaning of no node.
-/

namespace Assay

namespace Arena

variable {arena before middle after : Arena} {id root parent old new : ExprId} {node : Node}
  {env : Environment}

/-! ## Arenas that keep meanings -/

/-- Every node of `before` is a node of `after` and means there what it meant. -/
structure KeepsMeaning (env : Environment) (before after : Arena) : Prop where
  acyclic : after.Acyclic
  allocated : ∀ {id}, before.Allocated id → after.Allocated id
  meaning : ∀ {id}, before.Allocated id → after.eval env id = before.eval env id

namespace KeepsMeaning

theorem refl (acyclic : arena.Acyclic) : KeepsMeaning env arena arena :=
  ⟨acyclic, fun allocated => allocated, fun _ => rfl⟩

theorem trans (first : KeepsMeaning env before middle) (second : KeepsMeaning env middle after) :
    KeepsMeaning env before after where
  acyclic := second.acyclic
  allocated := fun allocated => second.allocated (first.allocated allocated)
  meaning := fun allocated => by
    rw [second.meaning (first.allocated allocated), first.meaning allocated]

end KeepsMeaning

theorem Grows.keepsMeaning (grows : before.Grows after) (acyclic : before.Acyclic) :
    KeepsMeaning env before after :=
  ⟨grows.acyclic acyclic, grows.allocated, grows.eval_eq acyclic⟩

theorem rank_eq_zero (leaf : ∀ child, ¬ arena.Operand child id) : arena.rank id = 0 := by
  classical
  rw [rank, Finset.card_eq_zero, Finset.filter_eq_empty_iff]
  intro index _ below
  obtain ⟨child, _, operand⟩ := Relation.TransGen.tail'_iff.mp below
  exact leaf child operand

theorem rank_literal {value : Literal} (literal : arena.shapeAt id = .literal value) :
    arena.rank id = 0 := by
  apply rank_eq_zero
  rintro child ⟨node, found, member⟩
  rw [shapeAt_of_node? found] at literal
  simp [literal, Shape.children] at member

/-- Splicing a node, or a literal, that stands for `old` into its place. -/
theorem Respliced.keepsMeaning (respliced : Respliced before after parent old new)
    (acyclic : before.Acyclic) (allocated : before.Allocated new)
    (origin : new = old ∨ before.Below new old ∨ ∃ value, before.shapeAt new = .literal value)
    (same : before.eval env new = before.eval env old) : KeepsMeaning env before after := by
  have oldLower := acyclic.rank_lt respliced.operand
  have lower : before.rank new < before.rank parent := by
    rcases origin with rfl | below | ⟨value, literal⟩
    · exact oldLower
    · exact (acyclic.rank_lt_of_below below).trans oldLower
    · rw [rank_literal literal]
      omega
  have acyclicAfter := respliced.acyclic acyclic allocated lower
  exact {
    acyclic := acyclicAfter
    allocated := respliced.allocated_iff.mpr
    meaning := respliced.eval_eq acyclic acyclicAfter same }

/-! ## The branch that is folded next -/

theorem foldl_deeper_eq_some {branches : List (Option (Nat × ExprId))}
    {best : Option (Nat × ExprId)} {result : Nat × ExprId}
    (chosen : branches.foldl deeper best = some result) :
    best = some result ∨ some result ∈ branches := by
  induction branches generalizing best with
  | nil => exact .inl chosen
  | cons found branches ih =>
    rw [List.foldl_cons] at chosen
    rcases ih chosen with isBest | later
    · unfold deeper at isBest
      split at isBest
      · split at isBest
        · exact .inr (by simp [isBest])
        · exact .inl isBest
      · exact .inl isBest
      · exact .inr (by simp [isBest])
    · exact .inr (by simp [later])

/-- The branch lies in the expression, and it is a constant operator. -/
theorem Acyclic.constBranch?_sound (acyclic : arena.Acyclic) (allocated : arena.Allocated root)
    {branch : ExprId} (chosen : arena.constBranch? root = some branch) :
    arena.Within branch root ∧ (arena.shapeAt branch).isOperator = true ∧
      arena.isConst branch = true := by
  obtain ⟨⟨depth, found⟩, isFound, rfl⟩ := Option.map_eq_some_iff.mp chosen
  clear chosen
  revert depth found
  refine acyclic.induction ?_ root allocated
  intro root node isNode operands depth found isFound
  rw [acyclic.fold_eq _ _ isNode, branchStep] at isFound
  split at isFound
  · next isBranch =>
    cases isFound
    rw [shapeAt_of_node? isNode]
    exact ⟨.refl, by simpa using isBranch⟩
  · rcases foldl_deeper_eq_some isFound with isNone | member
    · cases isNone
    · rw [Shape.children_map, List.map_map, List.mem_map] at member
      obtain ⟨child, isChild, isBest⟩ := member
      obtain ⟨⟨childDepth, branch⟩, isBelow, same⟩ := Option.map_eq_some_iff.mp isBest
      cases same
      have operand := operand_of_mem isNode isChild
      obtain ⟨within, isConstant⟩ := operands child isChild childDepth _ isBelow
      exact ⟨within.tail operand, isConstant⟩

/-! ## The names in an expression -/

/-- The search for names finds name nodes of the expression. -/
theorem Acyclic.names_sound (acyclic : arena.Acyclic) (allocated : arena.Allocated root)
    ⦃id : ExprId⦄ ⦃name : String⦄ (member : (id, name) ∈ arena.names root) :
    arena.Within id root ∧ arena.shape? id = some (.name name) := by
  revert id name
  refine acyclic.induction ?_ root allocated
  intro root node isNode operands id name member
  rw [names, acyclic.fold_eq _ _ isNode, Shape.children_map] at member
  rcases List.mem_append.mp member with own | below
  · split at own
    · next isName =>
      obtain ⟨rfl, rfl⟩ := Prod.mk.inj (List.mem_singleton.mp own)
      exact ⟨.refl, shape?_eq_some_iff.mpr ⟨node, isNode, isName⟩⟩
    · cases own
  · obtain ⟨found, isFound, member⟩ := List.mem_flatten.mp below
    obtain ⟨child, isChild, rfl⟩ := List.mem_map.mp isFound
    obtain ⟨within, isName⟩ := operands child isChild member
    exact ⟨within.tail (operand_of_mem isNode isChild), isName⟩

/-- A splice leaves nodes without operands as they are. -/
theorem Respliced.shape?_leaf (respliced : Respliced before after parent old new)
    {shape : Shape ExprId} (found : before.shape? id = some shape) (leaf : shape.children = []) :
    after.shape? id = some shape := by
  rw [respliced.elsewhere, found]
  rintro rfl
  obtain ⟨parentShape, isShape, member⟩ := operand_iff_shape?.mp respliced.operand
  rw [found] at isShape
  cases isShape
  simp [leaf] at member

end Arena

def Session.literals (session : Session) (scope : ScopeId) : Environment := fun name =>
  (session.value? scope name).bind NamedValue.value

namespace Rooted

variable {expr next : Rooted} {env : Environment} {grown : Arena} {branch id : ExprId}
  {session : Session} {scope : ScopeId} {name : String}

/-! ## Rounds of folding -/

/-- What folding an expression leaves behind: every meaning is kept, and a root that is returned
means what the expression meant. -/
structure KeepsMeaning (env : Environment) (expr : Rooted)
    (outcome : Except FoldStop ExprId × Rooted) : Prop where
  arena : Arena.KeepsMeaning env expr.arena outcome.2.arena
  result : ∀ {folded}, outcome.1 = .ok folded →
    outcome.2.arena.Allocated folded ∧
      outcome.2.arena.eval env folded = expr.arena.eval env expr.root

/-- One round of folding: what it chose, what became of the choice, and the outcome it leads to. -/
inductive Round (rounds : Nat) (expr : Rooted) : Except FoldStop ExprId × Rooted → Prop
  | nothingLeft (chosen : expr.arena.constBranch? expr.root = none) :
      Round rounds expr (.ok expr.root, expr)
  | stops {branch : ExprId} {stop : FoldStop} {grown : Arena}
      (chosen : expr.arena.constBranch? expr.root = some branch)
      (solved : expr.arena.solve branch = (.error stop, grown)) :
      Round rounds expr (.error stop, { expr with arena := grown })
  | whole {folded : ExprId} {grown : Arena}
      (chosen : expr.arena.constBranch? expr.root = some expr.root)
      (solved : expr.arena.solve expr.root = (.ok folded, grown)) :
      Round rounds expr (.ok folded, ⟨grown, folded⟩)
  | part {branch folded : ExprId} {grown : Arena} {spliced : Rooted}
      (chosen : expr.arena.constBranch? expr.root = some branch)
      (solved : expr.arena.solve branch = (.ok folded, grown))
      (isSpliced : Rooted.splice? { expr with arena := grown } branch folded = some spliced)
      (moved : folded ≠ branch) :
      Round rounds expr (simplifyWithin rounds spliced)
  | detached {branch folded : ExprId} {grown : Arena}
      (chosen : expr.arena.constBranch? expr.root = some branch)
      (solved : expr.arena.solve branch = (.ok folded, grown)) (notRoot : branch ≠ expr.root)
      (refused : Rooted.exchange? { expr with arena := grown } branch folded = none) :
      Round rounds expr (.ok expr.root, { expr with arena := grown })

theorem exchange?_eq_some_iff {old new : ExprId} :
    expr.exchange? old new = some next ↔ new ≠ old ∧ expr.splice? old new = some next := by
  unfold exchange?
  split
  · next same => simp [same]
  · next moved => simp [moved]

theorem simplifyWithin_round (rounds : Nat) (expr : Rooted) :
    Round rounds expr (simplifyWithin (rounds + 1) expr) := by
  cases chosen : expr.arena.constBranch? expr.root with
  | none =>
    simp only [simplifyWithin, chosen]
    exact .nothingLeft chosen
  | some branch =>
    rcases solved : expr.arena.solve branch with ⟨stop | folded, grown⟩
    · simp only [simplifyWithin, chosen, solved]
      exact .stops chosen solved
    · by_cases isRoot : branch = expr.root
      · subst isRoot
        simp only [simplifyWithin, chosen, solved, if_pos]
        exact .whole chosen solved
      · cases exchanged : Rooted.exchange? { expr with arena := grown } branch folded with
        | some spliced =>
          obtain ⟨moved, isSpliced⟩ := exchange?_eq_some_iff.mp exchanged
          simp only [simplifyWithin, chosen, solved, if_neg isRoot, exchanged]
          exact .part chosen solved isSpliced moved
        | none =>
          simp only [simplifyWithin, chosen, solved, if_neg isRoot, exchanged]
          exact .detached chosen solved isRoot exchanged

/-- A round that folds a branch keeps every meaning, and the folded node stands for the branch. -/
theorem branch_keepsMeaning (env : Environment) (acyclic : expr.arena.Acyclic)
    (allocated : expr.arena.Allocated expr.root) {result : Except FoldStop ExprId}
    (chosen : expr.arena.constBranch? expr.root = some branch)
    (solved : expr.arena.solve branch = (result, grown)) :
    Arena.KeepsMeaning env expr.arena grown ∧ expr.arena.Allocated branch ∧
      expr.arena.Grows grown ∧ Arena.Outcome expr.arena grown branch result := by
  have within := (acyclic.constBranch?_sound allocated chosen).1
  have isBranch := within.allocated acyclic allocated
  have outcome := acyclic.solve_outcome isBranch
  rw [solved] at outcome
  exact ⟨outcome.1.keepsMeaning acyclic, isBranch, outcome⟩

theorem part_keepsMeaning (env : Environment) (acyclic : expr.arena.Acyclic)
    (allocated : expr.arena.Allocated expr.root) {folded : ExprId} {spliced : Rooted}
    (chosen : expr.arena.constBranch? expr.root = some branch)
    (solved : expr.arena.solve branch = (.ok folded, grown))
    (isSpliced : Rooted.splice? { expr with arena := grown } branch folded = some spliced) :
    Arena.KeepsMeaning env expr.arena spliced.arena ∧ spliced.root = expr.root := by
  obtain ⟨kept, isBranch, grows, meets⟩ :=
    branch_keepsMeaning env acyclic allocated chosen solved
  have stands : Arena.StandsFor expr.arena grown branch folded := meets
  obtain ⟨sameRoot, parent, _, respliced⟩ :=
    splice?_eq_some kept.acyclic (kept.allocated allocated) isSpliced
  have origin := stands.origin
  rw [← grows.below_iff] at origin
  have same : grown.eval env folded = grown.eval env branch := by
    rw [stands.meaning env, kept.meaning isBranch]
  exact ⟨kept.trans (respliced.keepsMeaning kept.acyclic stands.allocated origin same), sameRoot⟩

theorem keepsMeaning_root (kept : Arena.KeepsMeaning env expr.arena grown)
    (allocated : expr.arena.Allocated expr.root) :
    KeepsMeaning env expr (.ok expr.root, { expr with arena := grown }) := by
  refine ⟨kept, ?_⟩
  rintro _ ⟨⟩
  exact ⟨kept.allocated allocated, kept.meaning allocated⟩

theorem simplifyWithin_keepsMeaning (rounds : Nat) (acyclic : expr.arena.Acyclic)
    (allocated : expr.arena.Allocated expr.root) :
    KeepsMeaning env expr (simplifyWithin rounds expr) := by
  induction rounds generalizing expr with
  | zero => exact keepsMeaning_root (.refl acyclic) allocated
  | succ rounds ih =>
    generalize isOutcome : simplifyWithin (rounds + 1) expr = outcome
    have round := isOutcome ▸ simplifyWithin_round rounds expr
    cases round with
    | nothingLeft _ => exact keepsMeaning_root (.refl acyclic) allocated
    | stops chosen solved =>
      obtain ⟨kept, _⟩ := branch_keepsMeaning env acyclic allocated chosen solved
      exact ⟨kept, fun isOk => by cases isOk⟩
    | whole chosen solved =>
      obtain ⟨kept, _, _, stands⟩ :=
        branch_keepsMeaning env acyclic allocated chosen solved
      refine ⟨kept, ?_⟩
      rintro _ ⟨⟩
      exact ⟨stands.allocated, stands.meaning env⟩
    | part chosen solved isSpliced =>
      obtain ⟨kept, sameRoot⟩ :=
        part_keepsMeaning env acyclic allocated chosen solved isSpliced
      have rootKept := kept.allocated allocated
      rw [← sameRoot] at rootKept
      have later := ih kept.acyclic rootKept
      refine ⟨kept.trans later.arena, fun isOk => ?_⟩
      obtain ⟨isAllocated, same⟩ := later.result isOk
      exact ⟨isAllocated, by rw [same, sameRoot, kept.meaning allocated]⟩
    | detached chosen solved _ _ =>
      exact keepsMeaning_root (branch_keepsMeaning env acyclic allocated chosen solved).1
        allocated

/-! ## Inlined names -/

/-- Names whose value a scope knows stand for it. -/
def Agrees (session : Session) (scope : ScopeId) (env : Environment) : Prop :=
  ∀ name value, session.literals scope name = some value → env name = some value

structure Inlines (env : Environment) (expr next : Rooted) : Prop where
  arena : Arena.KeepsMeaning env expr.arena next.arena
  root_allocated : next.arena.Allocated next.root
  root_meaning : next.arena.eval env next.root = expr.arena.eval env expr.root
  /-- Nodes without operands stay as they are. -/
  leaf : ∀ {id shape}, expr.arena.shape? id = some shape → shape.children = [] →
    next.arena.shape? id = some shape

namespace Inlines

theorem refl (acyclic : expr.arena.Acyclic) (allocated : expr.arena.Allocated expr.root) :
    Inlines env expr expr :=
  ⟨.refl acyclic, allocated, rfl, fun found _ => found⟩

theorem trans {last : Rooted} (first : Inlines env expr next) (second : Inlines env next last) :
    Inlines env expr last where
  arena := first.arena.trans second.arena
  root_allocated := second.root_allocated
  root_meaning := second.root_meaning.trans first.root_meaning
  leaf := fun found isLeaf => second.leaf (first.leaf found isLeaf) isLeaf

end Inlines

def withLiteral (expr : Rooted) (id : ExprId) (value : Literal) (ty : Ty) : Arena :=
  ((Arena.addLiteral value (expr.arena.locAt id)).run expr.arena).2.setType ⟨expr.arena.size⟩ ty

theorem node?_withLiteral (expr : Rooted) (id other : ExprId) (value : Literal) (ty : Ty) :
    (expr.withLiteral id value ty).node? other =
      if other.index = expr.arena.size then some ⟨expr.arena.locAt id, ty, .literal value⟩
      else expr.arena.node? other := by
  rw [withLiteral, Arena.node?_setType, Arena.addLiteral, Arena.node?_alloc]
  obtain ⟨index⟩ := other
  by_cases isNew : index = expr.arena.size
  · simp [isNew]
  · simp [isNew, Ne.symm isNew]

theorem literal_withLiteral (expr : Rooted) (id : ExprId) (value : Literal) (ty : Ty) :
    (expr.withLiteral id value ty).node? ⟨expr.arena.size⟩ =
      some ⟨expr.arena.locAt id, ty, .literal value⟩ := by
  rw [node?_withLiteral, if_pos rfl]

theorem grows_withLiteral (expr : Rooted) (id : ExprId) (value : Literal) (ty : Ty) :
    expr.arena.Grows (expr.withLiteral id value ty) where
  keeps := by
    intro other node found
    rw [node?_withLiteral, if_neg (Nat.ne_of_lt (Arena.allocated_of_node? found))]
    exact found
  fresh := by
    intro other node found
    rw [node?_withLiteral] at found
    split at found
    · cases found
      exact .inr ⟨value, rfl⟩
    · exact .inl found

/-- What can become of one name, its literal being the newest node. -/
inductive Inlining (session : Session) (scope : ScopeId) (expr : Rooted) (id : ExprId)
    (name : String) : Bool × Rooted → Prop
  | unknown (missing : ∀ ty value, session.value? scope name ≠ some ⟨ty, some value⟩) :
      Inlining session scope expr id name (false, expr)
  | root {ty : Ty} {value : Literal} (known : session.value? scope name = some ⟨ty, some value⟩)
      (isRoot : id = expr.root) :
      Inlining session scope expr id name
        (true, ⟨expr.withLiteral id value ty, ⟨expr.arena.size⟩⟩)
  | spliced {ty : Ty} {value : Literal} {spliced : Rooted}
      (known : session.value? scope name = some ⟨ty, some value⟩)
      (isSpliced : Rooted.splice? { expr with arena := expr.withLiteral id value ty } id
        ⟨expr.arena.size⟩ = some spliced) :
      Inlining session scope expr id name (true, spliced)
  | detached {ty : Ty} {value : Literal}
      (known : session.value? scope name = some ⟨ty, some value⟩) (notRoot : id ≠ expr.root)
      (refused : Rooted.splice? { expr with arena := expr.withLiteral id value ty } id
        ⟨expr.arena.size⟩ = none) :
      Inlining session scope expr id name
        (false, { expr with arena := expr.withLiteral id value ty })

theorem inlineName_inlining (session : Session) (scope : ScopeId) (expr : Rooted) (id : ExprId)
    (name : String) :
    Inlining session scope expr id name (inlineName session scope expr id name) := by
  rcases known : session.value? scope name with _ | ⟨ty, _ | value⟩
  · simp only [inlineName, known]
    exact .unknown (by simp [known])
  · simp only [inlineName, known]
    exact .unknown (by simp [known])
  · by_cases isRoot : id = expr.root
    · simp only [inlineName, known, if_pos isRoot]
      exact .root known isRoot
    · simp only [inlineName, known, if_neg isRoot]
      split
      next literal grown added =>
      obtain ⟨rfl, rfl⟩ := Prod.mk.inj added
      split
      · next isSpliced => exact .spliced known isSpliced
      · next isSpliced => exact .detached known isRoot isSpliced

/-- What inlining one name keeps, inlining all names keeps. -/
theorem inlineNames_keeps {motive : Rooted → Prop}
    (step : ∀ {expr} id name, motive expr → motive (inlineName session scope expr id name).2)
    (holds : motive expr) : motive (inlineNames session scope expr).2 := by
  rw [inlineNames]
  generalize expr.arena.names expr.root = found
  generalize 0 = count
  induction found generalizing expr count with
  | nil => exact holds
  | cons head rest ih =>
    rw [List.foldl_cons]
    exact ih (step head.1 head.2 holds) _

/-- The literal of a name means, in an environment that agrees, what the name meant. -/
theorem literal_meaning (agrees : Agrees session scope env) (acyclic : expr.arena.Acyclic)
    (isName : expr.arena.shape? id = some (.name name)) {ty : Ty} {value : Literal}
    (known : session.value? scope name = some ⟨ty, some value⟩) :
    (expr.withLiteral id value ty).eval env ⟨expr.arena.size⟩ = expr.arena.eval env id := by
  have bound := agrees name value (by simp [Session.literals, known])
  rw [Arena.eval_literal (expr.literal_withLiteral id value ty) rfl, acyclic.eval_of_shape? isName]
  simp [Shape.map, Value.ofShape, Value.ofName, bound]

theorem inlineName_inlines {session : Session} {scope : ScopeId}
    (agrees : Agrees session scope env) (acyclic : expr.arena.Acyclic)
    (allocated : expr.arena.Allocated expr.root) {id : ExprId} {name : String}
    (isName : expr.arena.shape? id = some (.name name)) :
    Inlines env expr (inlineName session scope expr id name).2 := by
  -- Allocating the literal alone.
  have grown : ∀ ty value,
      Inlines env expr { expr with arena := expr.withLiteral id value ty } := by
    intro ty value
    have grows := expr.grows_withLiteral id value ty
    have kept : Arena.KeepsMeaning env expr.arena _ := grows.keepsMeaning acyclic
    refine ⟨kept, kept.allocated allocated, kept.meaning allocated, fun found _ => ?_⟩
    obtain ⟨node, isNode, rfl⟩ := Arena.shape?_eq_some_iff.mp found
    exact Arena.shape?_of_node? (grows.keeps isNode)
  have isLiteral := fun ty value => expr.literal_withLiteral id value ty
  generalize isOutcome : inlineName session scope expr id name = outcome
  have inlining := isOutcome ▸ inlineName_inlining session scope expr id name
  cases inlining with
  | unknown _ => exact .refl acyclic allocated
  | @root ty value known isRoot =>
    have step := grown ty value
    refine ⟨step.arena, Arena.allocated_of_node? (isLiteral ty value), ?_, step.leaf⟩
    rw [literal_meaning agrees acyclic isName known, isRoot]
  | @spliced ty value spliced known isSpliced =>
    have step := grown ty value
    obtain ⟨sameRoot, parent, _, respliced⟩ :=
      splice?_eq_some step.arena.acyclic step.root_allocated isSpliced
    have moved : Arena.KeepsMeaning env (expr.withLiteral id value ty) spliced.arena := by
      refine respliced.keepsMeaning step.arena.acyclic
        (Arena.allocated_of_node? (isLiteral ty value))
        (.inr (.inr ⟨value, Arena.shapeAt_of_node? (isLiteral ty value)⟩)) ?_
      have idAllocated := Arena.allocated_iff_shape?.mpr ⟨_, isName⟩
      rw [literal_meaning agrees acyclic isName known]
      exact (step.arena.meaning idAllocated).symm
    refine step.trans ⟨moved, ?_, ?_, fun found isLeaf => respliced.shape?_leaf found isLeaf⟩
    · rw [sameRoot]
      exact moved.allocated step.root_allocated
    · rw [sameRoot]
      exact moved.meaning step.root_allocated
  | @detached ty value _ _ _ => exact grown ty value

theorem agrees_literals (session : Session) (scope : ScopeId) :
    Agrees session scope (session.literals scope) :=
  fun _ _ known => known

/-- What inlining one name relates, inlining all names relates: the nodes that are still to be looked
at stay names. -/
theorem inlineNames_relates {related : Rooted → Rooted → Prop} (acyclic : expr.arena.Acyclic)
    (allocated : expr.arena.Allocated expr.root)
    (refl : ∀ {expr}, expr.arena.Acyclic → expr.arena.Allocated expr.root → related expr expr)
    (trans : ∀ {first second third}, related first second → related second third →
      related first third)
    (each : ∀ {expr id name}, expr.arena.Acyclic → expr.arena.Allocated expr.root →
      expr.arena.shape? id = some (.name name) →
      related expr (inlineName session scope expr id name).2) :
    related expr (inlineNames session scope expr).2 := by
  have areNames : ∀ id name, (id, name) ∈ expr.arena.names expr.root →
      expr.arena.shape? id = some (.name name) :=
    fun _ _ member => (acyclic.names_sound allocated member).2
  rw [inlineNames]
  generalize expr.arena.names expr.root = found at areNames
  generalize 0 = count
  induction found generalizing expr count with
  | nil => exact refl acyclic allocated
  | cons head rest ih =>
    obtain ⟨id, name⟩ := head
    have isName := areNames id name List.mem_cons_self
    have step := inlineName_inlines (agrees_literals session scope) acyclic allocated isName
    rw [List.foldl_cons]
    refine trans (each acyclic allocated isName) (ih step.arena.acyclic step.root_allocated ?_ _)
    intro other spelling member
    exact step.leaf (areNames other spelling (List.mem_cons_of_mem _ member)) rfl

theorem inlineNames_inlines (agrees : Agrees session scope env) (acyclic : expr.arena.Acyclic)
    (allocated : expr.arena.Allocated expr.root) :
    Inlines env expr (inlineNames session scope expr).2 :=
  inlineNames_relates acyclic allocated .refl .trans fun acyclic allocated =>
    inlineName_inlines agrees acyclic allocated

end Rooted

/-! ## Folding preserves meaning -/

/-- Folding an expression without a cycle, of any sharing. Its value is put into new nodes only, and
means the same; a stop is the one that evaluation meets when nothing but literals and operators lies
below. Rounds of folding and the inlining of names rewrite nodes in place, and yet every earlier
node means the same after them. -/
theorem Arena.folding_preserves_meaning {arena : Arena} (acyclic : arena.Acyclic) {root : ExprId}
    (allocated : arena.Allocated root) (env : Environment) :
    ((∀ id node, arena.node? id = some node → (arena.solve root).2.node? id = some node) ∧
      (∀ folded, (arena.solve root).1 = .ok folded →
        (arena.solve root).2.eval env folded = arena.eval env root) ∧
      (∀ stop, (arena.solve root).1 = .error stop →
        (∀ inner, arena.Below inner root → (arena.shapeAt inner).isClosed = true) →
        arena.eval env root = .error stop)) ∧
    ((∀ id, arena.Allocated id →
        (Rooted.simplify ⟨arena, root⟩).2.arena.eval env id = arena.eval env id) ∧
      (∀ folded, (Rooted.simplify ⟨arena, root⟩).1 = .ok folded →
        (Rooted.simplify ⟨arena, root⟩).2.arena.eval env folded = arena.eval env root)) ∧
    (∀ session scope, Rooted.Agrees session scope env →
      (∀ id, arena.Allocated id →
        (Rooted.inlineNames session scope ⟨arena, root⟩).2.arena.eval env id =
          arena.eval env id) ∧
      (Rooted.inlineNames session scope ⟨arena, root⟩).2.arena.eval env
          (Rooted.inlineNames session scope ⟨arena, root⟩).2.root =
        arena.eval env root) := by
  refine ⟨?_, ?_, ?_⟩
  · obtain ⟨grows, outcome⟩ := acyclic.solve_outcome allocated
    refine ⟨fun _ _ => grows.keeps, fun folded isOk => ?_, fun stop isError closed => ?_⟩
    · rw [isOk] at outcome
      exact outcome.meaning env
    · rw [isError] at outcome
      exact outcome closed env
  · have kept : Rooted.KeepsMeaning env ⟨arena, root⟩ _ :=
      Rooted.simplifyWithin_keepsMeaning (arena.operatorCount root) acyclic allocated
    exact ⟨fun _ => kept.arena.meaning, fun _ isOk => (kept.result isOk).2⟩
  · intro session scope agrees
    have inlines : Rooted.Inlines env ⟨arena, root⟩ _ :=
      Rooted.inlineNames_inlines agrees acyclic allocated
    exact ⟨fun _ => inlines.arena.meaning, inlines.root_meaning⟩

def sharedSquare : Arena :=
  let node (shape : Shape ExprId) : Node := ⟨.builtin, .null, shape⟩
  ⟨#[node (.name "n"), node (.literal (.int 1)), node (.binary .add ⟨0⟩ ⟨1⟩),
    node (.binary .mul ⟨2⟩ ⟨2⟩)]⟩

def fourSession : Session :=
  { Session.ofTarget {} with
    modules := #[{
      own := ⟨0⟩
      name := "m"
      constantTable := [("n", .declare "n" (.ofKind .uint8 .builtin) (.value (.int 4)))]
      constantOrder := ["n"] }] }

theorem folding_preserves_sharedSquare :
    sharedSquare.Acyclic ∧ sharedSquare.Allocated ⟨3⟩ ∧
    Rooted.Agrees fourSession (.module ⟨0⟩) (fourSession.literals (.module ⟨0⟩)) ∧
    (let inlined := (Rooted.inlineNames fourSession (.module ⟨0⟩) ⟨sharedSquare, ⟨3⟩⟩).2
     inlined.arena.eval (fourSession.literals (.module ⟨0⟩)) inlined.root =
       .ok (.literal (.int 25))) := by
  have acyclic : sharedSquare.Acyclic := by
    apply Arena.Acyclic.of_index
    rintro child ⟨index⟩ ⟨node, found, member⟩
    match index with
    | 0 | 1 =>
        cases found
        cases member
    | 2 =>
        cases found
        rcases List.mem_pair.mp member with rfl | rfl <;> decide
    | 3 =>
        cases found
        rcases List.mem_pair.mp member with rfl | rfl <;> decide
    | _ + 4 => cases found
  have agrees : Rooted.Agrees fourSession (.module ⟨0⟩) (fourSession.literals (.module ⟨0⟩)) :=
    fun _ _ known => known
  have isRoot : sharedSquare.Allocated ⟨3⟩ := by decide
  refine ⟨acyclic, isRoot, agrees, ?_⟩
  have preserved := (Arena.folding_preserves_meaning acyclic isRoot
    (fourSession.literals (.module ⟨0⟩))).2.2 fourSession (.module ⟨0⟩) agrees
  exact preserved.2.trans rfl

end Assay
