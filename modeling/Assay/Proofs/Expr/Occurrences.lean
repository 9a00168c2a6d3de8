import Assay.Proofs.Expr.Acyclic
import Mathlib.Data.List.Basic

/-!
Contract: occurrences of nodes in an expression.
-/

namespace Assay.Arena

variable {arena before after : Arena} {id root child parent : ExprId} {path rest : List Nat}

/-! ## Following a path -/

/-- The node that is reached from `root` when each place of `path` picks an operand in turn. -/
def follow? (arena : Arena) : ExprId → List Nat → Option ExprId
  | root, [] => some root
  | root, place :: rest =>
      (arena.shapeAt root).children[place]?.bind fun child => arena.follow? child rest

@[simp] theorem follow?_nil (arena : Arena) (root : ExprId) : arena.follow? root [] = some root :=
  rfl

theorem follow?_cons (arena : Arena) (root : ExprId) (place : Nat) (rest : List Nat) :
    arena.follow? root (place :: rest) =
      (arena.shapeAt root).children[place]?.bind fun child => arena.follow? child rest :=
  rfl

theorem follow?_cons_eq_some {place : Nat} :
    arena.follow? root (place :: rest) = some id ↔
      ∃ child, (arena.shapeAt root).children[place]? = some child ∧
        arena.follow? child rest = some id :=
  Option.bind_eq_some_iff

theorem follow?_append (arena : Arena) (root : ExprId) (path rest : List Nat) :
    arena.follow? root (path ++ rest) =
      (arena.follow? root path).bind fun middle => arena.follow? middle rest := by
  induction path generalizing root with
  | nil => rfl
  | cons place path ih =>
    rw [List.cons_append, follow?_cons, follow?_cons, Option.bind_assoc]
    simp only [ih]

theorem follow?_append_of_eq {middle : ExprId} (found : arena.follow? root path = some middle) :
    arena.follow? root (path ++ rest) = arena.follow? middle rest := by
  rw [follow?_append, found, Option.bind_some]

/-- The last place of a path picks an operand of the node before it. -/
theorem follow?_concat_eq_some {place : Nat} :
    arena.follow? root (path ++ [place]) = some id ↔
      ∃ parent, arena.follow? root path = some parent ∧
        (arena.shapeAt parent).children[place]? = some id := by
  rw [follow?_append, Option.bind_eq_some_iff]
  simp [follow?_cons]

/-! ## Paths and operands -/

theorem operand_iff_mem_shapeAt :
    arena.Operand child parent ↔ child ∈ (arena.shapeAt parent).children := by
  by_cases allocated : arena.Allocated parent
  · rw [operand_iff_shape?, shape?_of_allocated allocated]
    simp
  · have blank : arena.shapeAt parent = default := by
      simp [shapeAt, nodeAt, node?_eq_none allocated]
      rfl
    constructor
    · intro operand
      exact absurd operand.parent_allocated allocated
    · intro member
      rw [blank] at member
      cases member

theorem exists_place : arena.Operand child parent ↔
    ∃ place : Nat, (arena.shapeAt parent).children[place]? = some child := by
  rw [operand_iff_mem_shapeAt, List.mem_iff_getElem?]

/-- Every path leads to a node within. -/
theorem within_of_follow? (found : arena.follow? root path = some id) : arena.Within id root := by
  induction path generalizing root with
  | nil =>
    cases found
    exact .refl
  | cons place rest ih =>
    obtain ⟨child, isChild, below⟩ := follow?_cons_eq_some.mp found
    exact (ih below).tail (exists_place.mpr ⟨place, isChild⟩)

/-- A path leads to every node within. -/
theorem Within.exists_follow? (within : arena.Within id root) :
    ∃ path, arena.follow? root path = some id := by
  induction within with
  | refl => exact ⟨[], rfl⟩
  | tail _ operand ih =>
    obtain ⟨path, below⟩ := ih
    obtain ⟨place, isChild⟩ := exists_place.mp operand
    exact ⟨place :: path, follow?_cons_eq_some.mpr ⟨_, isChild, below⟩⟩

theorem within_iff_follow? :
    arena.Within id root ↔ ∃ path, arena.follow? root path = some id :=
  ⟨Within.exists_follow?, fun ⟨_, found⟩ => within_of_follow? found⟩

theorem follow?_leaf (leaf : (arena.shapeAt root).children = [])
    (found : arena.follow? root path = some id) : path = [] ∧ id = root := by
  cases path with
  | nil =>
    cases found
    exact ⟨rfl, rfl⟩
  | cons place rest =>
    obtain ⟨child, isChild, _⟩ := follow?_cons_eq_some.mp found
    simp [leaf] at isChild

/-- Where all operands are the same, so are the paths. -/
theorem follow?_congr (same : ∀ ⦃id⦄, before.Within id root →
      (after.shapeAt id).children = (before.shapeAt id).children) (path : List Nat) :
    after.follow? root path = before.follow? root path := by
  induction path generalizing root with
  | nil => rfl
  | cons place rest ih =>
    rw [follow?_cons, follow?_cons, same .refl]
    cases isChild : (before.shapeAt root).children[place]? with
    | none => rfl
    | some child =>
      have operand : before.Operand child root := exists_place.mpr ⟨place, isChild⟩
      exact ih fun _ below => same (below.trans (.single operand))

/-- Growth leaves the paths from every earlier node as they are. -/
theorem Grows.follow?_eq (grows : before.Grows after) (acyclic : before.Acyclic)
    (allocated : before.Allocated root) (path : List Nat) :
    after.follow? root path = before.follow? root path :=
  follow?_congr (fun _ below => by rw [grows.shapeAt_eq (below.allocated acyclic allocated)])
    path

end Assay.Arena
