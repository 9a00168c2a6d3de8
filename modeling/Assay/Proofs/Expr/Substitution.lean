import Assay.Proofs.Expr.Inlining

/-!
Contract: inlining as a substitution, path by path.
-/

namespace Assay.Rooted

variable {expr next last : Rooted} {session : Session} {scope : ScopeId} {id : ExprId}
  {path : List Nat}

/-! ## Substitutions -/

/-- The path leads to a name in `expr`, and in `next` to a literal with the value and the type that
the scope finds for it, at the same place of the text. -/
def Replaced (session : Session) (scope : ScopeId) (expr next : Rooted) (path : List Nat) : Prop :=
  ∃ id loc nodeTy name ty value literal,
    expr.arena.follow? expr.root path = some id ∧
    expr.arena.node? id = some ⟨loc, nodeTy, .name name⟩ ∧
    session.value? scope name = some ⟨ty, some value⟩ ∧
    next.arena.follow? next.root path = some literal ∧
    next.arena.node? literal = some ⟨loc, ty, .literal value⟩

structure Substitutes (session : Session) (scope : ScopeId) (expr next : Rooted) : Prop where
  /-- Nodes without operands stay as they are, in or out of the expression. -/
  leaf : ∀ {id node}, expr.arena.node? id = some node → node.shape.children = [] →
    next.arena.node? id = some node
  /-- No node becomes a name. -/
  name : ∀ {id loc ty name}, next.arena.node? id = some ⟨loc, ty, .name name⟩ →
    expr.arena.node? id = some ⟨loc, ty, .name name⟩
  paths : ∀ path, next.arena.follow? next.root path = expr.arena.follow? expr.root path ∨
    Replaced session scope expr next path

namespace Substitutes

theorem refl (expr : Rooted) : Substitutes session scope expr expr :=
  ⟨fun found _ => found, fun found => found, fun _ => .inl rfl⟩

/-- What has been replaced by the first substitution is no name for the second one. -/
theorem trans (first : Substitutes session scope expr next)
    (second : Substitutes session scope next last) : Substitutes session scope expr last where
  leaf := fun found isLeaf => second.leaf (first.leaf found isLeaf) isLeaf
  name := fun found => first.name (second.name found)
  paths := by
    intro path
    rcases second.paths path with same | later
    · rcases first.paths path with kept | earlier
      · exact .inl (same.trans kept)
      · obtain ⟨id, loc, nodeTy, name, ty, value, literal, leads, isName, known, moved, isLiteral⟩ :=
          earlier
        exact .inr ⟨id, loc, nodeTy, name, ty, value, literal, leads, isName, known,
          same.trans moved, second.leaf isLiteral rfl⟩
    · obtain ⟨id, loc, nodeTy, name, ty, value, literal, leads, isName, rest⟩ := later
      rcases first.paths path with kept | earlier
      · exact .inr ⟨id, loc, nodeTy, name, ty, value, literal, kept.symm.trans leads,
          first.name isName, rest⟩
      · obtain ⟨_, _, _, _, _, _, replaced, _, _, _, moved, isLiteral⟩ := earlier
        rw [moved] at leads
        cases leads
        rw [isName] at isLiteral
        cases isLiteral

end Substitutes

/-! ## One name -/

section

variable (acyclic : expr.arena.Acyclic) (allocated : expr.arena.Allocated expr.root)
include acyclic allocated

/-- The literal of a name, allocated and not yet in its place. -/
theorem substitutes_withLiteral (id : ExprId) (value : Literal) (ty : Ty) :
    Substitutes session scope expr { expr with arena := expr.withLiteral id value ty } where
  leaf := fun found _ => (expr.grows_withLiteral id value ty).keeps found
  name := by
    intro other loc otherTy name found
    rcases (expr.grows_withLiteral id value ty).fresh found with older | ⟨literal, isLiteral⟩
    · exact older
    · cases isLiteral
  paths := fun path => .inl ((expr.grows_withLiteral id value ty).follow?_eq acyclic allocated path)

/-- A name that is the whole expression has no path but the empty one. -/
theorem substitutes_root {loc : Location} {nodeTy ty : Ty} {name : String} {value : Literal}
    (isName : expr.arena.node? expr.root = some ⟨loc, nodeTy, .name name⟩)
    (known : session.value? scope name = some ⟨ty, some value⟩) :
    Substitutes session scope expr
      ⟨expr.withLiteral expr.root value ty, ⟨expr.arena.size⟩⟩ := by
  have grown : Substitutes session scope expr _ :=
    substitutes_withLiteral acyclic allocated expr.root value ty
  refine ⟨grown.leaf, grown.name, fun path => ?_⟩
  have isLiteral := expr.literal_withLiteral expr.root value ty
  rw [Arena.locAt, Arena.nodeAt_of_node? isName] at isLiteral
  cases path with
  | nil => exact .inr ⟨_, loc, nodeTy, name, ty, value, _, rfl, isName, known, rfl, isLiteral⟩
  | cons place rest =>
    left
    rw [Arena.follow?_cons, Arena.follow?_cons, Arena.shapeAt_of_node? isName,
      Arena.shapeAt_of_node? isLiteral]
    rfl

theorem substitutes_splice {loc : Location} {nodeTy ty : Ty} {name : String} {value : Literal}
    {spliced : Rooted} (isName : expr.arena.node? id = some ⟨loc, nodeTy, .name name⟩)
    (known : session.value? scope name = some ⟨ty, some value⟩)
    (isSpliced : Rooted.splice? { expr with arena := expr.withLiteral id value ty } id
      ⟨expr.arena.size⟩ = some spliced) : Substitutes session scope expr spliced := by
  have grown : Substitutes session scope expr _ :=
    substitutes_withLiteral acyclic allocated id value ty
  have grows := expr.grows_withLiteral id value ty
  obtain ⟨sameRoot, trail, parent, _, _, along⟩ :=
    splice?_along (grows.acyclic acyclic) (grows.allocated allocated) isSpliced
  have isLiteral := expr.literal_withLiteral id value ty
  rw [Arena.locAt, Arena.nodeAt_of_node? isName] at isLiteral
  have stillName := grows.keeps isName
  have stillLiteral := along.node?_leaf isLiteral rfl
  refine grown.trans ⟨fun found isLeaf => along.node?_leaf found isLeaf, ?_, fun path => ?_⟩
  · intro other otherLoc otherTy otherName found
    have wasName := along.shape?_name (Arena.shape?_of_node? found)
    obtain ⟨node, isNode, form⟩ := Arena.shape?_eq_some_iff.mp wasName
    rw [← found, along.node?_leaf isNode (by rw [form]; rfl)]
    exact isNode
  · rw [sameRoot]
    have oldLeaf : ((expr.withLiteral id value ty).shapeAt id).children = [] := by
      rw [Arena.shapeAt_of_node? stillName]
      rfl
    have newLeaf : (spliced.arena.shapeAt ⟨expr.arena.size⟩).children = [] := by
      rw [Arena.shapeAt_of_node? stillLiteral]
      rfl
    rcases along.follow?_leaf oldLeaf newLeaf expr.root path with same | ⟨leads, moved⟩
    · exact .inl same
    · right
      refine ⟨id, loc, nodeTy, name, ty, value, _, leads, stillName, known, ?_, stillLiteral⟩
      rw [sameRoot]
      exact moved

theorem inlineName_substitutes {name : String} (isName : expr.arena.shape? id = some (.name name)) :
    Substitutes session scope expr (inlineName session scope expr id name).2 := by
  obtain ⟨⟨loc, nodeTy, shape⟩, isNode, rfl⟩ := Arena.shape?_eq_some_iff.mp isName
  generalize isOutcome : inlineName session scope expr id name = outcome
  have inlining := isOutcome ▸ inlineName_inlining session scope expr id name
  cases inlining with
  | unknown _ => exact .refl expr
  | root known isRoot =>
    subst isRoot
    exact substitutes_root acyclic allocated isNode known
  | spliced known isSpliced => exact substitutes_splice acyclic allocated isNode known isSpliced
  | detached _ _ _ => exact substitutes_withLiteral acyclic allocated id _ _

end

/-! ## All names -/

/-- Inlining leaves no name behind whose value the scope knows as a literal, however often nodes are
shared. Each path to such a name leads to a literal of that value and type at the same place of the
text, each path to another name leads to that very node as it was, and no other path leads to
another node than before. -/
theorem inlineNames_replaces_known_names (acyclic : expr.arena.Acyclic)
    (allocated : expr.arena.Allocated expr.root) (session : Session) (scope : ScopeId) :
    let last := (inlineNames session scope expr).2
    (∀ id name, last.arena.Within id last.root → last.arena.shape? id = some (.name name) →
      session.literals scope name = none) ∧
    (∀ path id name, expr.arena.follow? expr.root path = some id →
      expr.arena.shape? id = some (.name name) → session.literals scope name = none →
      last.arena.follow? last.root path = some id ∧
        last.arena.node? id = expr.arena.node? id) ∧
    (∀ path id loc nodeTy name ty value, expr.arena.follow? expr.root path = some id →
      expr.arena.node? id = some ⟨loc, nodeTy, .name name⟩ →
      session.value? scope name = some ⟨ty, some value⟩ →
      ∃ literal, last.arena.follow? last.root path = some literal ∧
        last.arena.node? literal = some ⟨loc, ty, .literal value⟩) ∧
    (∀ path, (∀ id name, expr.arena.follow? expr.root path = some id →
        expr.arena.shape? id ≠ some (.name name)) →
      last.arena.follow? last.root path = expr.arena.follow? expr.root path) := by
  intro last
  have substitutes : Substitutes session scope expr last :=
    inlineNames_relates acyclic allocated (fun _ _ => .refl _) .trans fun acyclic allocated =>
      inlineName_substitutes acyclic allocated
  have complete : ∀ id name value, last.arena.Within id last.root →
      last.arena.shape? id = some (.name name) → session.literals scope name ≠ some value :=
    (inlineNames_complete acyclic allocated).1
  refine ⟨?_, ?_, ?_, ?_⟩
  · intro id name within isName
    cases isKnown : session.literals scope name with
    | none => rfl
    | some value => exact absurd isKnown (complete id name value within isName)
  · intro path id name leads isName unknown
    obtain ⟨node, isNode, form⟩ := Arena.shape?_eq_some_iff.mp isName
    refine ⟨?_, ?_⟩
    · rcases substitutes.paths path with same | replaced
      · rw [same, leads]
      · obtain ⟨other, _, _, spelling, ty, value, _, leadsTo, isOther, known, _⟩ := replaced
        rw [leads] at leadsTo
        cases leadsTo
        rw [isNode] at isOther
        cases isOther
        cases form
        simp [Session.literals, known] at unknown
    · rw [isNode]
      exact substitutes.leaf isNode (by rw [form]; rfl)
  · intro path id loc nodeTy name ty value leads isName known
    rcases substitutes.paths path with same | replaced
    · -- The name would still be within the expression.
      have stillName := substitutes.leaf isName rfl
      rw [leads] at same
      have isKnown : session.literals scope name = some value := by
        simp [Session.literals, known]
      exact absurd isKnown (complete id name value (Arena.within_of_follow? same)
        (Arena.shape?_eq_some_iff.mpr ⟨_, stillName, rfl⟩))
    · obtain ⟨other, _, _, spelling, otherTy, otherValue, literal, leadsTo, isOther, isKnown, moved,
        isLiteral⟩ := replaced
      rw [leads] at leadsTo
      cases leadsTo
      rw [isName] at isOther
      cases isOther
      rw [known] at isKnown
      cases isKnown
      exact ⟨literal, moved, isLiteral⟩
  · intro path noName
    rcases substitutes.paths path with same | replaced
    · exact same
    · obtain ⟨id, _, _, name, _, _, _, leads, isName, _⟩ := replaced
      exact absurd (Arena.shape?_eq_some_iff.mpr ⟨_, isName, rfl⟩) (noName id name leads)

def sharedDifference : Arena :=
  let node (shape : Shape ExprId) : Node := ⟨.builtin, .null, shape⟩
  ⟨#[node (.name "n"), node (.name "m"), node (.binary .add ⟨0⟩ ⟨1⟩), node (.binary .mul ⟨2⟩ ⟨0⟩),
    node (.binary .sub ⟨3⟩ ⟨2⟩)]⟩

theorem inlineNames_replaces_known_names_sharedDifference :
    sharedDifference.Acyclic ∧ sharedDifference.Allocated ⟨4⟩ ∧
    let last := (inlineNames fourSession (.module ⟨0⟩) ⟨sharedDifference, ⟨4⟩⟩).2
    (last.arena.follow? last.root [0, 0, 1] = some ⟨1⟩ ∧
      last.arena.node? ⟨1⟩ = sharedDifference.node? ⟨1⟩) ∧
    (∃ literal, last.arena.follow? last.root [0, 1] = some literal ∧
      last.arena.node? literal =
        some ⟨.builtin, { Ty.ofKind .uint8 .builtin with isConst := true, readOnly := true },
          .literal (.int 4)⟩) ∧
    last.arena.follow? last.root [0, 0] = some ⟨2⟩ := by
  have acyclic : sharedDifference.Acyclic := Arena.Acyclic.of_ordered (by decide)
  have isRoot : sharedDifference.Allocated ⟨4⟩ := by decide
  obtain ⟨_, unknownKept, knownReplaced, othersKept⟩ :=
    @inlineNames_replaces_known_names ⟨sharedDifference, ⟨4⟩⟩ acyclic isRoot fourSession (.module ⟨0⟩)
  refine ⟨acyclic, isRoot, unknownKept [0, 0, 1] ⟨1⟩ "m" rfl rfl rfl,
    knownReplaced [0, 1] ⟨0⟩ _ _ "n" _ _ rfl rfl rfl, ?_⟩
  rw [othersKept [0, 0]]
  · rfl
  · rintro id name ⟨⟩ ⟨⟩

end Assay.Rooted
