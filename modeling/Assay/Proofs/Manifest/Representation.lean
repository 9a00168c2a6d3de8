import Assay.Manifest.Lower
import Assay.Proofs.Expr.Forests
import Assay.Proofs.Expr.Typing
import Assay.Proofs.Scope.Handles

/-!
Contract: the arena nodes that stand for an expression of a manifest.
-/

namespace Assay

/-! ## Forms -/

/-- The same form over the same operands. Constructors may differ in their target, which becomes
known later than its operands. -/
def Shape.SameForm {α : Type} (left right : Shape α) : Prop :=
  left = right ∨
    ∃ earlier later child, left = .construct earlier child ∧ right = .construct later child

def Arena.KeepsForms (before after : Arena) : Prop :=
  ∀ ⦃id shape⦄, before.shape? id = some shape →
    ∃ other, after.shape? id = some other ∧ shape.SameForm other

namespace Arena.KeepsForms

variable {before middle after : Arena} {id : ExprId} {shape : Shape ExprId}

theorem refl (arena : Arena) : arena.KeepsForms arena :=
  fun _ shape found => ⟨shape, found, .inl rfl⟩

theorem trans (first : before.KeepsForms middle) (second : middle.KeepsForms after) :
    before.KeepsForms after := by
  intro id shape found
  obtain ⟨between, foundBetween, same⟩ := first found
  obtain ⟨last, foundLast, sameLast⟩ := second foundBetween
  refine ⟨last, foundLast, ?_⟩
  rcases same with rfl | ⟨earlier, later, child, rfl, rfl⟩
  · exact sameLast
  · rcases sameLast with rfl | ⟨_, latest, _, same, rfl⟩
    · exact .inr ⟨earlier, later, child, rfl, rfl⟩
    · cases same
      exact .inr ⟨earlier, latest, child, rfl, rfl⟩

/-- All forms but constructors are kept as they are. -/
theorem shape?_eq (keeps : before.KeepsForms after) (found : before.shape? id = some shape)
    (notConstruct : ∀ target child, shape ≠ .construct target child) :
    after.shape? id = some shape := by
  obtain ⟨other, foundAfter, rfl | ⟨target, _, child, same, _⟩⟩ := keeps found
  · exact foundAfter
  · exact absurd same (notConstruct target child)

theorem construct (keeps : before.KeepsForms after) {target : Ty} {child : ExprId}
    (found : before.shape? id = some (.construct target child)) :
    ∃ later, after.shape? id = some (.construct later child) := by
  obtain ⟨other, foundAfter, rfl | ⟨_, later, _, same, rfl⟩⟩ := keeps found
  · exact ⟨target, foundAfter⟩
  · cases same
    exact ⟨later, foundAfter⟩

end Arena.KeepsForms

theorem Arena.Extends.keepsForms {before after : Arena} (extension : before.Extends after) :
    before.KeepsForms after :=
  fun _ shape found => ⟨shape, extension.shape?_eq found, .inl rfl⟩

/-- Forms are kept, and so are the targets that were written at `later?`. -/
structure Arena.Carries (before after : Arena) (place? later? : Option Location) : Prop where
  forms : before.KeepsForms after
  targets : ∀ loc ∈ later?, loc ∈ place? ∧ before.Extends after

theorem Arena.KeepsForms.carries {before after : Arena} (keeps : before.KeepsForms after)
    {place? : Option Location} : before.Carries after place? none :=
  ⟨keeps, nofun⟩

theorem Arena.Extends.carries {before after : Arena} (extension : before.Extends after)
    {place? : Option Location} : before.Carries after place? place? :=
  ⟨extension.keepsForms, fun _ member => ⟨member, extension⟩⟩

namespace Manifest.Expr

/-! ## Representation -/

mutual

/-- The node `id` stands for an expression. If it is written at a place, so are the targets of its
constructors. -/
def Represents (place? : Option Location) (arena : Arena) : Expr → ExprId → Prop
  | .int value, id => arena.shape? id = some (.literal (.int value.toInt))
  | .real value, id => arena.shape? id = some (.literal (.real value))
  | .text value, id => arena.shape? id = some (.literal (.text value))
  | .bool value, id => arena.shape? id = some (.literal (.bool value))
  | .name spelling, id => arena.shape? id = some (.name spelling)
  | .group inner, id =>
      ∃ child, arena.shape? id = some (.unary .group child) ∧ Represents place? arena inner child
  | .ref inner, id =>
      ∃ child, arena.shape? id = some (.unary .ref child) ∧ Represents place? arena inner child
  | .list values, id =>
      ∃ elements, arena.shape? id = some (.list elements) ∧
        RepresentsAll place? arena values elements
  | .chain first rest, id =>
      ∃ start, Represents place? arena first start ∧ RepresentsRest place? arena rest start id
  | .construct type values, id =>
      ∃ target arguments elements, arena.shape? id = some (.construct target arguments) ∧
        (∀ loc ∈ place?, target = .ofName type loc) ∧
        arena.shape? arguments = some (.list elements) ∧ RepresentsAll place? arena values elements
  | .index source subscript, id =>
      ∃ sourceId subscriptId, arena.shape? id = some (.index sourceId subscriptId) ∧
        Represents place? arena source sourceId ∧ Represents place? arena subscript subscriptId

def RepresentsAll (place? : Option Location) (arena : Arena) : List Expr → List ExprId → Prop
  | [], ids => ids = []
  | value :: rest, ids =>
      ∃ first others, ids = first :: others ∧ Represents place? arena value first ∧
        RepresentsAll place? arena rest others

/-- The node `root` stands for a chain that goes on from `left`. -/
def RepresentsRest (place? : Option Location) (arena : Arena) :
    List (String × Expr) → ExprId → ExprId → Prop
  | [], left, root => root = left
  | (symbol, operand) :: rest, left, root =>
      ∃ op right node, BinOp.ofSymbol? symbol = some op ∧ Represents place? arena operand right ∧
        arena.shape? node = some (.binary op left right) ∧
        RepresentsRest place? arena rest node root

end

variable {place? later? : Option Location} {arena before after : Arena} {rest : List (String × Expr)}
  {links : List (BinOp × ExprId)}

mutual

theorem Represents.keep (carries : before.Carries after place? later?) :
    ∀ {expr : Expr} {id : ExprId}, Represents place? before expr id → Represents later? after expr id
  | .int _, _, found | .real _, _, found | .text _, _, found | .bool _, _, found
  | .name _, _, found => carries.forms.shape?_eq found (by simp)
  | .group _, _, ⟨child, found, inner⟩ | .ref _, _, ⟨child, found, inner⟩ =>
    ⟨child, carries.forms.shape?_eq found (by simp), inner.keep carries⟩
  | .list _, _, ⟨elements, found, all⟩ =>
    ⟨elements, carries.forms.shape?_eq found (by simp), all.keep carries⟩
  | .chain _ _, _, ⟨start, first, rest⟩ => ⟨start, first.keep carries, rest.keep carries⟩
  | .construct _ _, _, ⟨_, arguments, elements, found, written, foundList, all⟩ => by
    obtain ⟨later, foundLater⟩ := carries.forms.construct found
    refine ⟨later, arguments, elements, foundLater, fun loc member => ?_,
      carries.forms.shape?_eq foundList (by simp), all.keep carries⟩
    obtain ⟨given, extension⟩ := carries.targets loc member
    cases (extension.shape?_eq found).symm.trans foundLater
    exact written loc given
  | .index _ _, _, ⟨source, subscript, found, first, second⟩ =>
    ⟨source, subscript, carries.forms.shape?_eq found (by simp), first.keep carries,
      second.keep carries⟩

theorem RepresentsAll.keep (carries : before.Carries after place? later?) :
    ∀ {values : List Expr} {ids : List ExprId},
      RepresentsAll place? before values ids → RepresentsAll later? after values ids
  | [], _, isNil => isNil
  | _ :: _, _, ⟨first, others, split, represents, rest⟩ =>
    ⟨first, others, split, represents.keep carries, rest.keep carries⟩

theorem RepresentsRest.keep (carries : before.Carries after place? later?) :
    ∀ {rest : List (String × Expr)} {left root : ExprId},
      RepresentsRest place? before rest left root → RepresentsRest later? after rest left root
  | [], _, _, same => same
  | (_, _) :: _, _, _, ⟨op, right, node, known, represents, found, others⟩ =>
    ⟨op, right, node, known, represents.keep carries, carries.forms.shape?_eq found (by simp),
      others.keep carries⟩

end

mutual

theorem Represents.allocated : ∀ {expr : Expr} {id : ExprId},
    Represents place? arena expr id → arena.Allocated id
  | .int _, _, found | .real _, _, found | .text _, _, found | .bool _, _, found
  | .name _, _, found => Arena.allocated_iff_shape?.mpr ⟨_, found⟩
  | .group _, _, ⟨_, found, _⟩ | .ref _, _, ⟨_, found, _⟩ | .list _, _, ⟨_, found, _⟩ =>
    Arena.allocated_iff_shape?.mpr ⟨_, found⟩
  | .chain _ _, _, ⟨_, first, rest⟩ => rest.allocated first.allocated
  | .construct _ _, _, ⟨_, _, _, found, _⟩ => Arena.allocated_iff_shape?.mpr ⟨_, found⟩
  | .index _ _, _, ⟨_, _, found, _⟩ => Arena.allocated_iff_shape?.mpr ⟨_, found⟩

theorem RepresentsRest.allocated : ∀ {rest : List (String × Expr)} {left root : ExprId},
    RepresentsRest place? arena rest left root → arena.Allocated left → arena.Allocated root
  | [], _, _, same, allocated => same ▸ allocated
  | (_, _) :: _, _, _, ⟨_, _, _, _, _, found, others⟩, _ =>
    others.allocated (Arena.allocated_iff_shape?.mpr ⟨_, found⟩)

end

def RepresentsLinks (place? : Option Location) (arena : Arena) :
    List (String × Expr) → List (BinOp × ExprId) → Prop
  | [], links => links = []
  | (symbol, operand) :: rest, links =>
      ∃ op right others, links = (op, right) :: others ∧ BinOp.ofSymbol? symbol = some op ∧
        Represents place? arena operand right ∧ RepresentsLinks place? arena rest others

theorem RepresentsLinks.keep (carries : before.Carries after place? later?)
    (represents : RepresentsLinks place? before rest links) :
    RepresentsLinks later? after rest links := by
  induction rest generalizing links with
  | nil => exact represents
  | cons head rest ih =>
    obtain ⟨op, right, others, split, known, operand, tail⟩ := represents
    exact ⟨op, right, others, split, known, operand.keep carries, ih tail⟩

end Manifest.Expr

/-! ## Allocation -/

/-- A node as it is allocated. It fits, only literals and names have a type, and no type refers to a
definition. -/
structure Node.Written (node : Node) : Prop where
  fits : node.Fits
  plain : node.shape.isAtom = true ∨ node.ty.isNull = true
  handles : ∀ ty ∈ node.ty :: node.shape.types, ty.handles = []

theorem Node.Written.natural {value : Literal} (inRange : value.InRange) (loc : Location) :
    Node.Written ⟨loc, value.naturalType loc, .literal value⟩ :=
  ⟨.natural inRange loc, .inl rfl, by simp [Shape.types]⟩

/-- All types are written by their names. -/
theorem Node.Written.unknown {shape : Shape ExprId} {loc : Location}
    (notLiteral : ∀ value, shape ≠ .literal value)
    (types : ∀ ty ∈ shape.types, ∃ name, ty = .ofName name loc) :
    Node.Written ⟨loc, .null, shape⟩ := by
  refine ⟨.unknown notLiteral ?_ loc, .inr rfl, List.forall_mem_cons.mpr ⟨Ty.handles_null, ?_⟩⟩
  · rintro target child rfl
    obtain ⟨name, rfl⟩ := types target (by simp [Shape.types])
    exact Ty.canonical_ofName name loc
  · intro ty member
    obtain ⟨name, rfl⟩ := types ty member
    exact Ty.handles_ofName name loc

namespace Manifest.Expr

/-- What allocating nodes leaves behind: an extended arena, whose new nodes are as they are written,
and a result that satisfies `good`. -/
structure Yields {α : Type} (good : Arena → α → Prop) (before : Arena)
    (outcome : Except String α × Arena) : Prop where
  extension : before.Extends outcome.2
  revises : Arena.Revises Node.Written before outcome.2
  result : ∀ {value}, outcome.1 = .ok value → good outcome.2 value

namespace Yields

variable {α β : Type} {good : Arena → α → Prop} {next : Arena → β → Prop} {arena : Arena}
  {outcome : Except String α × Arena} {start : Nat} {others : List ExprId}

/-- What holds of each node, and of each one as it is allocated. -/
theorem nodewise {property : Node → Prop} (yields : Yields good arena outcome)
    (holds : arena.Nodewise property) (new : ∀ {node}, node.Written → property node) :
    outcome.2.Nodewise property :=
  (yields.revises.mono fun _ => new).nodewise holds

theorem typed (yields : Yields good arena outcome) (typed : arena.Typed) : outcome.2.Typed :=
  yields.nodewise typed Node.Written.fits

theorem pure {value : α} (isGood : good arena value) :
    Yields good arena ((Pure.pure value : Lowering α).run.run arena) := by
  refine ⟨.refl arena, .refl, ?_⟩
  rintro _ ⟨⟩
  exact isGood

theorem bind {first : Lowering α} {rest : α → Lowering β}
    (yields : Yields good arena (first.run.run arena))
    (later : ∀ {value middle}, arena.Extends middle → good middle value →
      Yields next middle ((rest value).run.run middle)) :
    Yields next arena ((first >>= rest).run.run arena) := by
  rw [Stopping.run_bind]
  generalize first.run.run arena = outcome at yields ⊢
  rcases outcome with ⟨symbol | value, middle⟩
  · exact ⟨yields.extension, yields.revises, fun isOk => by cases isOk⟩
  · have after := later yields.extension (yields.result rfl)
    exact ⟨yields.extension.trans after.extension, yields.revises.trans after.revises, after.result⟩

/-- The last step of an allocation, with the arena it started from at hand. -/
theorem strengthen {good' : Arena → α → Prop} (yields : Yields good arena outcome)
    (implies : ∀ {after value}, arena.Extends after → good after value → good' after value) :
    Yields good' arena outcome :=
  ⟨yields.extension, yields.revises, fun isOk => implies yields.extension (yields.result isOk)⟩

/-- A new node takes the place of the trees under it. -/
theorem alloc {node : Node} (written : node.Written)
    (forest : arena.Forest start (node.shape.children ++ others)) (begins : start ≤ arena.size) :
    Yields (fun after id => after.Forest start (id :: others) ∧ after.shape? id = some node.shape)
      arena ((liftM (Arena.alloc node) : Lowering ExprId).run.run arena) := by
  have operands : ∀ child ∈ node.shape.children, arena.Allocated child := fun child member =>
    (forest.planted child (List.mem_append_left _ member)).allocated .refl
  have extension := Arena.extends_alloc arena operands
  have nodes := Arena.node?_alloc arena node
  rw [Stopping.run_lift]
  refine ⟨extension, .single (.add operands written), ?_⟩
  rintro _ ⟨⟩
  have isNode := (nodes ⟨arena.size⟩).trans (if_pos rfl)
  exact ⟨forest.add begins extension isNode written.plain, Arena.shape?_of_node? isNode⟩

theorem addLiteral {value : Literal} (inRange : value.InRange) (loc : Location) :
    Yields (fun after id => after.Forest arena.size [id] ∧ after.shape? id = some (.literal value))
      arena ((liftM (Arena.addLiteral value loc) : Lowering ExprId).run.run arena) :=
  alloc (.natural inRange loc) (.nil arena _) le_rfl

theorem add (shape : Shape ExprId) (forest : arena.Forest start (shape.children ++ others))
    (begins : start ≤ arena.size) {loc : Location} (notLiteral : ∀ value, shape ≠ .literal value)
    (types : ∀ ty ∈ shape.types, ∃ name, ty = .ofName name loc) :
    Yields (fun after id => after.Forest start (id :: others) ∧ after.shape? id = some shape)
      arena ((liftM (Arena.add shape loc) : Lowering ExprId).run.run arena) :=
  alloc (.unknown notLiteral types) forest begins

end Yields

theorem operator_yields (symbol : String) (arena : Arena) :
    Yields (fun _ op => BinOp.ofSymbol? symbol = some op) arena
      ((operator symbol).run.run arena) := by
  unfold operator
  split
  · next op known => exact .pure known
  · exact ⟨.refl arena, .refl, fun isOk => by cases isOk⟩

/-- The operators of a chain are allocated from the left, each over the one before it. -/
theorem addChain_yields {left : ExprId} {start : Nat}
    (forest : arena.Forest start (left :: links.map Prod.snd)) (begins : start ≤ arena.size)
    (represents : RepresentsLinks place? arena rest links) :
    Yields (fun after root => after.Forest start [root] ∧
        RepresentsRest place? after rest left root) arena
      ((liftM (Arena.addChain left links) : Lowering ExprId).run.run arena) := by
  induction rest generalizing links left arena with
  | nil =>
    cases represents
    exact .pure ⟨forest, rfl⟩
  | cons head rest ih =>
    obtain ⟨op, right, others, rfl, known, operand, tail⟩ := represents
    -- The state computation and its lifting run alike, so the chain can be taken apart as a
    -- lowering.
    change Yields _ arena (((do
      let node ← (liftM (Arena.add (.binary op left right) (arena.locAt left)) :
        Lowering ExprId)
      liftM (Arena.addChain node others)) : Lowering ExprId).run.run arena)
    refine (Yields.add (.binary op left right) forest begins (by simp) (by simp [Shape.types])).bind
      fun {node middle} extension added => ?_
    refine (ih added.1 (begins.trans extension.size_le) (tail.keep extension.carries)).strengthen
      fun {after root} later built => ?_
    exact ⟨built.1, op, right, node, known, (operand.keep extension.carries).keep later.carries,
      later.shape?_eq added.2, built.2⟩

mutual

/-- Allocating an expression adds a tree of new nodes, the last of which stands for it. -/
theorem lower_yields (loc : Location) : ∀ (expr : Expr) (arena : Arena),
    Yields (fun after id => after.Forest arena.size [id] ∧ Represents (some loc) after expr id) arena
      ((lower loc expr).run.run arena)
  | .int value, arena => by
    rw [lower]
    exact .addLiteral (Literal.inRange_word value) loc
  | .real _, arena | .text _, arena | .bool _, arena => by
    rw [lower]
    exact .addLiteral (by trivial) loc
  | .name spelling, arena => by
    rw [lower]
    exact .add (.name spelling) (.nil arena _) le_rfl (by simp) (by simp [Shape.types])
  | .group inner, arena | .ref inner, arena => by
    rw [lower]
    refine (lower_yields loc inner arena).bind fun {child middle} extension built => ?_
    refine (Yields.add (.unary _ child) built.1 extension.size_le (by simp)
      (by simp [Shape.types])).strengthen fun later added => ?_
    exact ⟨added.1, child, added.2, built.2.keep later.carries⟩
  | .list values, arena => by
    rw [lower]
    refine (lowerAll_yields loc values arena).bind fun {elements middle} extension built => ?_
    obtain ⟨forest, represents⟩ := built
    rw [← List.append_nil elements] at forest
    refine (Yields.add (.list elements) forest extension.size_le (by simp)
      (by simp [Shape.types])).strengthen fun later added => ?_
    exact ⟨added.1, elements, added.2, represents.keep later.carries⟩
  | .chain first rest, arena => by
    rw [lower]
    refine (lower_yields loc first arena).bind fun {start middle} extension built => ?_
    refine (lowerRest_yields loc rest middle).bind fun {links last} later operands => ?_
    refine (addChain_yields (built.1.append extension.size_le later operands.1)
      (extension.trans later).size_le operands.2).strengthen fun latest chain => ?_
    exact ⟨chain.1, start, (built.2.keep later.carries).keep latest.carries, chain.2⟩
  | .construct type values, arena => by
    rw [lower]
    refine (lowerAll_yields loc values arena).bind fun {elements middle} extension built => ?_
    obtain ⟨forest, represents⟩ := built
    rw [← List.append_nil elements] at forest
    refine (Yields.add (.list elements) forest extension.size_le (by simp)
      (by simp [Shape.types])).bind fun {arguments last} later listed => ?_
    refine (Yields.add (.construct (.ofName type loc) arguments) listed.1
      (extension.trans later).size_le (by simp) ?_).strengthen fun latest added => ?_
    · simpa [Shape.types] using ⟨type, rfl⟩
    · refine ⟨added.1, _, arguments, elements, added.2, ?_, latest.shape?_eq listed.2,
        (represents.keep later.carries).keep latest.carries⟩
      rintro _ ⟨⟩
      rfl
  | .index source subscript, arena => by
    rw [lower]
    refine (lower_yields loc source arena).bind fun {sourceId middle} extension first => ?_
    refine (lower_yields loc subscript middle).bind fun {subscriptId last} later second => ?_
    refine (Yields.add (.index sourceId subscriptId) (first.1.append extension.size_le later second.1)
      (extension.trans later).size_le (by simp) (by simp [Shape.types])).strengthen
        fun latest added => ?_
    exact ⟨added.1, sourceId, subscriptId, added.2,
      (first.2.keep later.carries).keep latest.carries, second.2.keep latest.carries⟩

theorem lowerAll_yields (loc : Location) : ∀ (values : List Expr) (arena : Arena),
    Yields (fun after ids => after.Forest arena.size ids ∧ RepresentsAll (some loc) after values ids)
      arena ((lowerAll loc values).run.run arena)
  | [], arena => by
    rw [lowerAll]
    exact .pure ⟨.nil arena _, rfl⟩
  | value :: rest, arena => by
    rw [lowerAll]
    refine (lower_yields loc value arena).bind fun {first middle} extension built => ?_
    refine (lowerAll_yields loc rest middle).bind fun {others last} later tail => ?_
    exact .pure ⟨built.1.append extension.size_le later tail.1, first, others, rfl,
      built.2.keep later.carries, tail.2⟩

theorem lowerRest_yields (loc : Location) : ∀ (rest : List (String × Expr)) (arena : Arena),
    Yields (fun after links => after.Forest arena.size (links.map Prod.snd) ∧
        RepresentsLinks (some loc) after rest links) arena ((lowerRest loc rest).run.run arena)
  | [], arena => by
    rw [lowerRest]
    exact .pure ⟨.nil arena _, rfl⟩
  | (symbol, operand) :: rest, arena => by
    rw [lowerRest]
    refine (operator_yields symbol arena).bind fun {op begun} opening known => ?_
    refine (lower_yields loc operand begun).bind fun {right middle} extension built => ?_
    refine (lowerRest_yields loc rest middle).bind fun {others last} later tail => ?_
    exact .pure ⟨(built.1.mono opening.size_le).append (opening.trans extension).size_le later tail.1,
      op, right, others, rfl, known, built.2.keep later.carries, tail.2⟩

end

/-- What is left of an allocation that came to its end. -/
theorem yields_of_lower {loc : Location} {expr : Expr} {outcome : Except String ExprId × Arena}
    (lowered : (lower loc expr).run.run before = outcome) :
    Yields (fun after id => after.Forest before.size [id] ∧ Represents (some loc) after expr id)
      before outcome :=
  lowered ▸ lower_yields loc expr before

end Manifest.Expr

end Assay
