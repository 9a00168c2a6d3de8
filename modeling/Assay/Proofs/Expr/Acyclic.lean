import Assay.Expr.View
import Mathlib.Data.Finset.Card
import Mathlib.Data.Finset.Range
import Mathlib.Logic.Relation

/-!
Contract: arenas in which no node lies below itself.
-/

namespace Assay

namespace Arena

variable {arena : Arena} {id child parent top : ExprId} {node : Node} {shape : Shape ExprId}

def Operand (arena : Arena) (child parent : ExprId) : Prop :=
  ∃ node, arena.node? parent = some node ∧ child ∈ node.shape.children

def Below (arena : Arena) (id top : ExprId) : Prop :=
  Relation.TransGen arena.Operand id top

def Within (arena : Arena) (id top : ExprId) : Prop :=
  Relation.ReflTransGen arena.Operand id top

def Allocated (arena : Arena) (id : ExprId) : Prop :=
  id.index < arena.size

instance : Decidable (arena.Allocated id) :=
  inferInstanceAs (Decidable (id.index < arena.size))

/-- Operands are nodes of the arena, and no node lies below itself. -/
structure Acyclic (arena : Arena) : Prop where
  allocated : ∀ {child parent}, arena.Operand child parent → arena.Allocated child
  irreflexive : ∀ id, ¬ arena.Below id id

/-! ## Allocated nodes -/

theorem allocated_of_node? (found : arena.node? id = some node) : arena.Allocated id :=
  (Array.getElem?_eq_some_iff.mp found).choose

theorem exists_node? (allocated : arena.Allocated id) : ∃ node, arena.node? id = some node :=
  ⟨arena.nodes[id.index], Array.getElem?_eq_getElem allocated⟩

theorem node?_eq_none (unallocated : ¬ arena.Allocated id) : arena.node? id = none :=
  Array.getElem?_eq_none (Nat.le_of_not_lt unallocated)

theorem nodeAt_of_node? (found : arena.node? id = some node) : arena.nodeAt id = node := by
  simp [nodeAt, found]

theorem shapeAt_of_node? (found : arena.node? id = some node) :
    arena.shapeAt id = node.shape := by
  simp [shapeAt, nodeAt_of_node? found]

theorem operand_of_mem (found : arena.node? parent = some node)
    (member : child ∈ node.shape.children) : arena.Operand child parent :=
  ⟨node, found, member⟩

theorem operand_iff (found : arena.node? parent = some node) :
    arena.Operand child parent ↔ child ∈ node.shape.children := by
  constructor
  · rintro ⟨other, foundOther, member⟩
    rw [found] at foundOther
    cases foundOther
    exact member
  · exact operand_of_mem found

theorem Operand.parent_allocated (operand : arena.Operand child parent) :
    arena.Allocated parent := by
  obtain ⟨_, found, _⟩ := operand
  exact allocated_of_node? found

theorem Operand.below (operand : arena.Operand child parent) : arena.Below child parent :=
  .single operand

theorem Within.below_or_eq (within : arena.Within id top) : id = top ∨ arena.Below id top := by
  rcases Relation.reflTransGen_iff_eq_or_transGen.mp within with same | below
  · exact .inl same.symm
  · exact .inr below

theorem Below.within (below : arena.Below id top) : arena.Within id top :=
  Relation.TransGen.to_reflTransGen below

theorem node?_setType (arena : Arena) (id other : ExprId) (ty : Ty) :
    (arena.setType id ty).node? other =
      if id = other then (arena.node? other).map fun node => { node with ty := ty }
      else arena.node? other :=
  node?_modifyNode arena id other _

/-! ## Forms of nodes -/

def shape? (arena : Arena) (id : ExprId) : Option (Shape ExprId) :=
  (arena.node? id).map Node.shape

theorem shape?_modifyNode (arena : Arena) (id other : ExprId) {f : Node → Node}
    (keeps : ∀ node, (f node).shape = node.shape) :
    (arena.modifyNode id f).shape? other = arena.shape? other := by
  rw [shape?, node?_modifyNode, shape?]
  split
  · simp [Function.comp_def, keeps]
  · rfl

@[simp] theorem shape?_setType (arena : Arena) (id other : ExprId) (ty : Ty) :
    (arena.setType id ty).shape? other = arena.shape? other :=
  shape?_modifyNode arena id other fun _ => rfl

@[simp] theorem shape?_forgetType (arena : Arena) (id other : ExprId) :
    (arena.forgetType id).shape? other = arena.shape? other := by
  apply shape?_modifyNode arena id other
  intro node
  split <;> rfl

@[simp] theorem shape?_forgetTypes (arena : Arena) (path : List ExprId) (other : ExprId) :
    (path.foldl forgetType arena).shape? other = arena.shape? other := by
  induction path generalizing arena with
  | nil => rfl
  | cons id path ih => rw [List.foldl_cons, ih, shape?_forgetType]

theorem shape?_setShape (arena : Arena) (id other : ExprId) (shape : Shape ExprId) :
    (arena.setShape id shape).shape? other =
      if id = other then (arena.shape? other).map fun _ => shape else arena.shape? other := by
  rw [shape?, setShape, node?_modifyNode, shape?]
  split <;> simp [Function.comp_def]

theorem shape?_eq_some_iff :
    arena.shape? id = some shape ↔ ∃ node, arena.node? id = some node ∧ node.shape = shape :=
  Option.map_eq_some_iff

theorem shape?_of_node? (found : arena.node? id = some node) :
    arena.shape? id = some node.shape :=
  shape?_eq_some_iff.mpr ⟨node, found, rfl⟩

theorem shape_of_node? (found : arena.shape? id = some shape) (isNode : arena.node? id = some node) :
    node.shape = shape := by
  rw [shape?, isNode] at found
  exact Option.some.inj found

theorem allocated_iff_shape? : arena.Allocated id ↔ ∃ shape, arena.shape? id = some shape := by
  constructor
  · intro allocated
    obtain ⟨node, found⟩ := exists_node? allocated
    exact ⟨node.shape, shape?_of_node? found⟩
  · rintro ⟨shape, found⟩
    obtain ⟨node, isNode, _⟩ := shape?_eq_some_iff.mp found
    exact allocated_of_node? isNode

theorem shape?_of_allocated (allocated : arena.Allocated id) :
    arena.shape? id = some (arena.shapeAt id) := by
  obtain ⟨node, found⟩ := exists_node? allocated
  rw [shape?, found, shapeAt_of_node? found]
  rfl

theorem shapeAt_of_shape? (found : arena.shape? id = some shape) : arena.shapeAt id = shape := by
  obtain ⟨node, isNode, rfl⟩ := shape?_eq_some_iff.mp found
  exact shapeAt_of_node? isNode

theorem operand_iff_shape? :
    arena.Operand child parent ↔
      ∃ shape, arena.shape? parent = some shape ∧ child ∈ shape.children := by
  constructor
  · rintro ⟨node, found, member⟩
    exact ⟨node.shape, shape?_of_node? found, member⟩
  · rintro ⟨shape, found, member⟩
    obtain ⟨node, isNode, rfl⟩ := shape?_eq_some_iff.mp found
    exact operand_of_mem isNode member

/-! ## Rank -/

open Classical in
noncomputable def rank (arena : Arena) (id : ExprId) : Nat :=
  ((Finset.range arena.size).filter fun index => arena.Below ⟨index⟩ id).card

namespace Acyclic

variable (acyclic : arena.Acyclic) {top : ExprId}

include acyclic

theorem allocated_of_below (below : arena.Below id top) : arena.Allocated id := by
  obtain ⟨_, operand, _⟩ := Relation.TransGen.head'_iff.mp below
  exact acyclic.allocated operand

theorem rank_lt_of_below (below : arena.Below id top) : arena.rank id < arena.rank top := by
  classical
  apply Finset.card_lt_card
  rw [Finset.ssubset_iff_of_subset]
  · -- The node itself lies below `top` but not below itself.
    refine ⟨id.index, ?_, ?_⟩
    · exact Finset.mem_filter.mpr
        ⟨Finset.mem_range.mpr (acyclic.allocated_of_below below), below⟩
    · simp [acyclic.irreflexive id]
  · intro index member
    simp only [Finset.mem_filter] at member ⊢
    exact ⟨member.1, Relation.TransGen.trans member.2 below⟩

theorem rank_lt (operand : arena.Operand child parent) : arena.rank child < arena.rank parent :=
  acyclic.rank_lt_of_below operand.below

theorem rank_lt_size (allocated : arena.Allocated id) : arena.rank id < arena.size := by
  classical
  have proper : ((Finset.range arena.size).filter fun index => arena.Below ⟨index⟩ id) ⊂
      Finset.range arena.size := by
    rw [Finset.ssubset_iff_of_subset (Finset.filter_subset _ _)]
    exact ⟨id.index, Finset.mem_range.mpr allocated, by simp [acyclic.irreflexive id]⟩
  simpa [rank] using Finset.card_lt_card proper

/-- What holds of a node once it holds of its operands holds of every node. -/
@[elab_as_elim]
theorem induction {motive : ExprId → Prop}
    (step : ∀ id node, arena.node? id = some node →
      (∀ child ∈ node.shape.children, motive child) → motive id)
    (id : ExprId) (allocated : arena.Allocated id) : motive id := by
  induction rankOf : arena.rank id using Nat.strong_induction_on generalizing id with
  | _ bound ih =>
    obtain ⟨node, found⟩ := exists_node? allocated
    refine step id node found fun child member => ?_
    have operand := operand_of_mem found member
    exact ih _ (rankOf ▸ acyclic.rank_lt operand) child
      (acyclic.allocated operand) rfl

end Acyclic

theorem Within.allocated (within : arena.Within id top) (acyclic : arena.Acyclic)
    (allocated : arena.Allocated top) : arena.Allocated id := by
  rcases within.below_or_eq with rfl | below
  · exact allocated
  · exact acyclic.allocated_of_below below

/-- A number that falls along every operand rules cycles out. -/
theorem Acyclic.of_rank (height : ExprId → Nat)
    (allocated : ∀ {child parent}, arena.Operand child parent → arena.Allocated child)
    (falls : ∀ {child parent}, arena.Operand child parent → height child < height parent) :
    arena.Acyclic where
  allocated := allocated
  irreflexive := by
    have descends : ∀ {id top}, arena.Below id top → height id < height top := by
      intro id top below
      induction below with
      | single operand => exact falls operand
      | tail _ operand ih => exact ih.trans (falls operand)
    intro id below
    exact Nat.lt_irrefl _ (descends below)

/-- Nodes that are allocated after their operands form no cycle. -/
theorem Acyclic.of_index
    (falls : ∀ {child parent}, arena.Operand child parent → child.index < parent.index) :
    arena.Acyclic := by
  refine .of_rank ExprId.index (fun operand => ?_) falls
  have earlier := falls operand
  have allocated := operand.parent_allocated
  unfold Allocated at allocated ⊢
  omega

/-- As `Acyclic.of_index`, in a form that can be decided. -/
theorem Acyclic.of_ordered
    (ordered : ∀ index < arena.size, ∀ child ∈ (arena.shapeAt ⟨index⟩).children,
      child.index < index) : arena.Acyclic := by
  apply Acyclic.of_index
  rintro child ⟨index⟩ ⟨node, found, member⟩
  rw [← shapeAt_of_node? found] at member
  exact ordered index (allocated_of_node? found) child member

/-! ## Evaluation as a recursion -/

section Fold

variable {α : Type} (stop : α) (value : ExprId → Node → Shape α → α)

theorem foldWithin_of_node? (found : arena.node? id = some node) (depth : Nat) :
    arena.foldWithin stop value (depth + 1) id =
      value id node (node.shape.map (arena.foldWithin stop value depth)) := by
  simp [foldWithin, found]

/-- Room beyond the rank of a node changes nothing. -/
theorem Acyclic.foldWithin_eq (acyclic : arena.Acyclic) {first second : Nat}
    (firstRoom : arena.rank id < first) (secondRoom : arena.rank id < second) :
    arena.foldWithin stop value first id = arena.foldWithin stop value second id := by
  induction first generalizing second id with
  | zero => omega
  | succ first ih =>
    obtain ⟨second, rfl⟩ : ∃ room, second = room + 1 := ⟨second - 1, by omega⟩
    cases found : arena.node? id with
    | none => simp [foldWithin, found]
    | some node =>
      rw [foldWithin_of_node? stop value found, foldWithin_of_node? stop value found]
      congr 1
      apply Shape.map_congr
      intro child member
      have smaller := acyclic.rank_lt (operand_of_mem found member)
      exact ih (by omega) (by omega)

/-- The value of a node is computed from the values of its operands. -/
theorem Acyclic.fold_eq (acyclic : arena.Acyclic) (found : arena.node? id = some node) :
    arena.fold stop value id = value id node (node.shape.map (arena.fold stop value)) := by
  have room := acyclic.rank_lt_size (allocated_of_node? found)
  obtain ⟨depth, sizeEq⟩ : ∃ depth, arena.size = depth + 1 := ⟨arena.size - 1, by omega⟩
  unfold fold
  rw [sizeEq, foldWithin_of_node? stop value found]
  congr 1
  apply Shape.map_congr
  intro child member
  have smaller := acyclic.rank_lt (operand_of_mem found member)
  exact acyclic.foldWithin_eq stop value (by omega) (by omega)

end Fold

/-- A node that is kept, with all below it, folds as before. -/
theorem Acyclic.fold_kept {before after : Arena} (acyclic : before.Acyclic)
    (acyclicAfter : after.Acyclic)
    (keeps : ∀ {id node}, before.node? id = some node → after.node? id = some node) {α : Type}
    (stop : α) (value : ExprId → Node → Shape α → α) (allocated : before.Allocated id) :
    after.fold stop value id = before.fold stop value id := by
  refine acyclic.induction ?_ id allocated
  intro id node found operands
  rw [acyclic.fold_eq stop value found, acyclicAfter.fold_eq stop value (keeps found)]
  congr 1
  exact Shape.map_congr operands

/-! ## Extension -/

/-- Every node of `before` is a node of `after`, and what `after` has beyond them comes after its
operands. -/
structure Extends (before after : Arena) : Prop where
  keeps : ∀ {id node}, before.node? id = some node → after.node? id = some node
  later : ∀ {child parent}, after.Operand child parent →
    before.Allocated parent ∨ child.index < parent.index

namespace Extends

variable {before middle after : Arena}

theorem refl (arena : Arena) : arena.Extends arena :=
  ⟨fun found => found, fun operand => .inl operand.parent_allocated⟩

theorem allocated (extension : before.Extends after) (allocated : before.Allocated id) :
    after.Allocated id := by
  obtain ⟨_, found⟩ := exists_node? allocated
  exact allocated_of_node? (extension.keeps found)

theorem size_le (extension : before.Extends after) : before.size ≤ after.size := by
  by_contra shorter
  have last : before.Allocated ⟨after.size⟩ := Nat.not_le.mp shorter
  exact Nat.lt_irrefl _ (extension.allocated last)

/-- The operands of an old node are the old ones. -/
theorem operand (extension : before.Extends after) (allocated : before.Allocated parent)
    (operand : after.Operand child parent) : before.Operand child parent := by
  obtain ⟨node, found⟩ := exists_node? allocated
  exact (operand_iff found).mpr ((operand_iff (extension.keeps found)).mp operand)

theorem trans (first : before.Extends middle) (second : middle.Extends after) :
    before.Extends after where
  keeps := fun found => second.keeps (first.keeps found)
  later := by
    intro child parent operand
    rcases second.later operand with allocated | earlier
    · exact first.later (second.operand allocated operand)
    · exact .inr earlier

theorem shape?_eq (extension : before.Extends after) {shape : Shape ExprId}
    (found : before.shape? id = some shape) : after.shape? id = some shape := by
  obtain ⟨node, isNode, rfl⟩ := shape?_eq_some_iff.mp found
  exact shape?_of_node? (extension.keeps isNode)

/-- Old nodes rank as before, and new ones by their place behind all old ones. -/
theorem acyclic (extension : before.Extends after) (acyclic : before.Acyclic) : after.Acyclic := by
  classical
  apply Acyclic.of_rank fun id =>
    if before.Allocated id then before.rank id else before.size + id.index
  · intro child parent operand
    rcases extension.later operand with allocated | earlier
    · exact extension.allocated (acyclic.allocated (extension.operand allocated operand))
    · have parentAllocated := operand.parent_allocated
      unfold Allocated at parentAllocated ⊢
      omega
  · intro child parent operand
    by_cases old : before.Allocated parent
    · have oldOperand := extension.operand old operand
      rw [if_pos old, if_pos (acyclic.allocated oldOperand)]
      exact acyclic.rank_lt oldOperand
    · have earlier := (extension.later operand).resolve_left old
      rw [if_neg old]
      split
      · next allocated =>
        have ranked := acyclic.rank_lt_size allocated
        omega
      · omega

theorem fold_eq (extension : before.Extends after) (acyclic : before.Acyclic) {α : Type} (stop : α)
    (value : ExprId → Node → Shape α → α) (allocated : before.Allocated id) :
    after.fold stop value id = before.fold stop value id :=
  acyclic.fold_kept (extension.acyclic acyclic) extension.keeps stop value allocated

end Extends

/-- A node whose operands are allocated extends the arena. -/
theorem extends_alloc (arena : Arena)
    (operands : ∀ child ∈ node.shape.children, arena.Allocated child) :
    arena.Extends ((alloc node).run arena).2 where
  keeps := by
    intro id other found
    rw [node?_alloc, if_neg (Nat.ne_of_lt (allocated_of_node? found))]
    exact found
  later := by
    rintro child parent ⟨other, found, member⟩
    rw [node?_alloc] at found
    split at found
    · next isNew =>
      cases found
      have allocated := operands child member
      unfold Allocated at allocated
      exact .inr (by omega)
    · exact .inl (allocated_of_node? found)

/-! ## Growth by literals -/

/-- Every node of `before` is a node of `after`, and what `after` has beyond them are literals. -/
structure Grows (before after : Arena) : Prop where
  keeps : ∀ {id node}, before.node? id = some node → after.node? id = some node
  fresh : ∀ {id node}, after.node? id = some node →
    before.node? id = some node ∨ ∃ value, node.shape = .literal value

namespace Grows

variable {before middle after : Arena}

theorem refl (arena : Arena) : arena.Grows arena :=
  ⟨fun found => found, fun found => .inl found⟩

theorem trans (first : before.Grows middle) (second : middle.Grows after) :
    before.Grows after where
  keeps := fun found => second.keeps (first.keeps found)
  fresh := by
    intro id node found
    rcases second.fresh found with older | literal
    · exact first.fresh older
    · exact .inr literal

variable (grows : before.Grows after)
include grows

theorem allocated (allocated : before.Allocated id) : after.Allocated id := by
  obtain ⟨_, found⟩ := exists_node? allocated
  exact allocated_of_node? (grows.keeps found)

/-- Literals have no operands, so growth adds none. -/
theorem operand_iff : after.Operand child parent ↔ before.Operand child parent := by
  constructor
  · rintro ⟨node, found, member⟩
    rcases grows.fresh found with older | ⟨value, literal⟩
    · exact operand_of_mem older member
    · simp [literal, Shape.children] at member
  · rintro ⟨node, found, member⟩
    exact operand_of_mem (grows.keeps found) member

theorem operand_eq : after.Operand = before.Operand := by
  funext child parent
  exact propext grows.operand_iff

theorem below_iff {top : ExprId} : after.Below id top ↔ before.Below id top := by
  rw [Below, Below, grows.operand_eq]

theorem acyclic (acyclic : before.Acyclic) : after.Acyclic where
  allocated := fun operand => grows.allocated (acyclic.allocated (grows.operand_iff.mp operand))
  irreflexive := fun id below => acyclic.irreflexive id (grows.below_iff.mp below)

theorem shapeAt_eq (allocated : before.Allocated id) : after.shapeAt id = before.shapeAt id := by
  obtain ⟨node, found⟩ := exists_node? allocated
  rw [shapeAt_of_node? found, shapeAt_of_node? (grows.keeps found)]

theorem extension : before.Extends after where
  keeps := grows.keeps
  later := fun operand => .inl (grows.operand_iff.mp operand).parent_allocated

theorem fold_eq (acyclic : before.Acyclic) {α : Type} (stop : α)
    (value : ExprId → Node → Shape α → α) (allocated : before.Allocated id) :
    after.fold stop value id = before.fold stop value id :=
  grows.extension.fold_eq acyclic stop value allocated

end Grows

theorem grows_alloc (arena : Arena) {value : Literal} (literal : node.shape = .literal value) :
    arena.Grows ((alloc node).run arena).2 where
  keeps := by
    intro id other found
    rw [node?_alloc, if_neg (Nat.ne_of_lt (allocated_of_node? found))]
    exact found
  fresh := by
    intro id other found
    rw [node?_alloc] at found
    split at found
    · cases found
      exact .inr ⟨value, literal⟩
    · exact .inl found

theorem grows_addLiteral (arena : Arena) (value : Literal) (loc : Location) :
    arena.Grows ((addLiteral value loc).run arena).2 :=
  grows_alloc arena rfl

@[simp] theorem node?_addLiteral (arena : Arena) (value : Literal) (loc : Location) :
    ((addLiteral value loc).run arena).2.node? ⟨arena.size⟩ =
      some ⟨loc, value.naturalType loc, .literal value⟩ := by
  rw [addLiteral, node?_alloc, if_pos rfl]

end Arena

end Assay
