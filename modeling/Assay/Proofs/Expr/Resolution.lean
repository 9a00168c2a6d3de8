import Assay.Expr.Resolve
import Assay.Proofs.Manifest.Denotation
import Assay.Proofs.Scope.Naming

/-!
Contract: what resolving an expression changes.
-/

namespace Assay

theorem Shape.SameForm.children_eq {α : Type} {left right : Shape α} (same : left.SameForm right) :
    left.children = right.children := by
  rcases same with rfl | ⟨_, _, _, rfl, rfl⟩ <;> rfl

namespace Arena

variable {arena before middle after base current : Arena} {id : ExprId} {node : Node}
  {resolve : ExprId → Arena → Resolution} {target : Ty} {ids : List ExprId} {depth : Nat}
  {shape : Shape ExprId}
variable {session : Session} {scope : ScopeId}

/-! ## Arenas of the same forms -/

structure SameForms (before after : Arena) : Prop where
  keeps : before.KeepsForms after
  size_eq : after.size = before.size

namespace SameForms

theorem refl (arena : Arena) : arena.SameForms arena :=
  ⟨.refl arena, rfl⟩

theorem trans (first : before.SameForms middle) (second : middle.SameForms after) :
    before.SameForms after :=
  ⟨first.keeps.trans second.keeps, second.size_eq.trans first.size_eq⟩

variable (same : before.SameForms after)
include same

theorem allocated_iff : after.Allocated id ↔ before.Allocated id := by
  rw [Allocated, Allocated, same.size_eq]

theorem operand_iff {child parent : ExprId} :
    after.Operand child parent ↔ before.Operand child parent := by
  constructor
  · intro operand
    have allocated := same.allocated_iff.mp operand.parent_allocated
    obtain ⟨shape, found⟩ := allocated_iff_shape?.mp allocated
    obtain ⟨other, foundAfter, form⟩ := same.keeps found
    obtain ⟨last, foundLast, member⟩ := operand_iff_shape?.mp operand
    rw [foundAfter] at foundLast
    cases foundLast
    exact operand_iff_shape?.mpr ⟨shape, found, form.children_eq ▸ member⟩
  · intro operand
    obtain ⟨shape, found, member⟩ := operand_iff_shape?.mp operand
    obtain ⟨other, foundAfter, form⟩ := same.keeps found
    exact operand_iff_shape?.mpr ⟨other, foundAfter, form.children_eq ▸ member⟩

theorem operand_eq : after.Operand = before.Operand := by
  funext child parent
  exact propext same.operand_iff

theorem acyclic (acyclic : before.Acyclic) : after.Acyclic where
  allocated := fun operand =>
    same.allocated_iff.mpr (acyclic.allocated (same.operand_iff.mp operand))
  irreflexive := fun id below => by
    rw [Below, same.operand_eq] at below
    exact acyclic.irreflexive id below

theorem within_iff {top : ExprId} : after.Within id top ↔ before.Within id top := by
  rw [Within, Within, same.operand_eq]

end SameForms

/-- Changing a type changes no form. -/
theorem sameForms_setType (arena : Arena) (id : ExprId) (ty : Ty) :
    arena.SameForms (arena.setType id ty) :=
  ⟨fun _ shape found => ⟨shape, by rw [shape?_setType, found], .inl rfl⟩, size_modifyNode _ _ _⟩

theorem node?_setTarget (arena : Arena) (id other : ExprId) (target : Ty) (child : ExprId) :
    (arena.setTarget id target child).node? other =
      if id = other then
        (arena.node? other).map fun node =>
          { node with ty := target, shape := .construct target child }
      else arena.node? other := by
  rw [setTarget, node?_setType, setShape, node?_modifyNode]
  split
  · rw [Option.map_map]
    rfl
  · rfl

/-- A constructor stays one whatever it constructs. -/
theorem sameForms_setTarget {target earlier : Ty} {child : ExprId}
    (found : arena.shape? id = some (.construct earlier child)) :
    arena.SameForms (arena.setTarget id target child) := by
  refine ⟨fun other shape foundOther => ?_, (size_modifyNode _ _ _).trans (size_modifyNode _ _ _)⟩
  rw [setTarget, shape?_setType, shape?_setShape]
  by_cases same : id = other
  · rw [← same, found] at foundOther ⊢
    cases foundOther
    exact ⟨.construct target child, by rw [if_pos rfl]; rfl, .inr ⟨earlier, target, child, rfl, rfl⟩⟩
  · exact ⟨shape, by rw [if_neg same, foundOther], .inl rfl⟩

/-! ## Resolution -/

/-- A name has the type of its value, and a constructor that of its target, which is a struct. -/
structure Bound (session : Session) (scope : ScopeId) (node : Node) : Prop where
  name : ∀ ⦃name⦄, node.shape = .name name →
    ∃ value, session.value? scope name = some value ∧ node.ty = value.ty
  construct : ∀ ⦃target child⦄, node.shape = .construct target child →
    target.isStruct = true ∧ node.ty = target

namespace Bound

theorem of_name {name : String} {value : NamedValue} (isName : node.shape = .name name)
    (known : session.value? scope name = some value) :
    Bound session scope { node with ty := value.ty } := by
  refine ⟨fun other isOther => ?_, fun target child isConstruct => ?_⟩
  · cases isName.symm.trans isOther
    exact ⟨value, known, rfl⟩
  · cases isName.symm.trans isConstruct

theorem of_construct (isStruct : target.isStruct = true) (child : ExprId) :
    Bound session scope { node with ty := target, shape := .construct target child } := by
  refine ⟨by simp, fun other inner form => ?_⟩
  cases form
  exact ⟨isStruct, rfl⟩

/-- There is nothing to bind in other forms. -/
theorem of_derived (notName : ∀ name, node.shape ≠ .name name)
    (notConstruct : ∀ target child, node.shape ≠ .construct target child) :
    Bound session scope node :=
  ⟨fun name isName => absurd isName (notName name),
    fun target child isConstruct => absurd isConstruct (notConstruct target child)⟩

end Bound

/-- What resolving leaves behind: the same forms in the same places, and nodes that were not touched
or are bound. -/
structure Resolves (session : Session) (scope : ScopeId) (before after : Arena) : Prop where
  forms : before.SameForms after
  locs : ∀ id, after.locAt id = before.locAt id
  bound : ∀ {id node}, after.node? id = some node →
    before.node? id = some node ∨ Bound session scope node

namespace Resolves

theorem refl (arena : Arena) : Resolves session scope arena arena :=
  ⟨.refl arena, fun _ => rfl, fun found => .inl found⟩

theorem trans (first : Resolves session scope before middle)
    (second : Resolves session scope middle after) : Resolves session scope before after where
  forms := first.forms.trans second.forms
  locs := fun id => (second.locs id).trans (first.locs id)
  bound := by
    intro id node found
    rcases second.bound found with older | known
    · exact first.bound older
    · exact .inr known

theorem of_node? {f : Node → Node} (forms : before.SameForms after)
    (changed : ∀ other, after.node? other =
      if id = other then (before.node? other).map f else before.node? other)
    (locs : ∀ node, (f node).loc = node.loc)
    (bound : ∀ node, before.node? id = some node → Bound session scope (f node)) :
    Resolves session scope before after := by
  refine ⟨forms, fun other => ?_, fun {other node} found => ?_⟩
  · rw [locAt, nodeAt, changed, locAt, nodeAt]
    split
    · cases before.node? other with
      | none => rfl
      | some node => exact locs node
    · rfl
  · rw [changed] at found
    split at found
    · next same =>
      obtain ⟨old, isOld, rfl⟩ := Option.map_eq_some_iff.mp found
      exact .inr (bound old (same ▸ isOld))
    · exact .inl found

theorem setType {ty : Ty}
    (bound : ∀ node, arena.node? id = some node → Bound session scope { node with ty := ty }) :
    Resolves session scope arena (arena.setType id ty) :=
  of_node? (sameForms_setType arena id ty) (fun _ => node?_setType _ _ _ _) (fun _ => rfl) bound

theorem setTarget {target earlier : Ty} {child : ExprId}
    (found : arena.shape? id = some (.construct earlier child)) (isStruct : target.isStruct = true) :
    Resolves session scope arena (arena.setTarget id target child) :=
  of_node? (sameForms_setTarget found) (fun _ => node?_setTarget _ _ _ _ _) (fun _ => rfl)
    fun _ _ => .of_construct isStruct child

theorem rememberType (found : arena.shape? id = some shape) (notName : ∀ name, shape ≠ .name name)
    (notConstruct : ∀ target child, shape ≠ .construct target child) :
    Resolves session scope arena (arena.rememberType id) := by
  rw [Arena.rememberType]
  split
  · exact .refl arena
  · refine setType fun node isNode => ?_
    have isShape := shape_of_node? found isNode
    exact .of_derived (isShape ▸ notName) (isShape ▸ notConstruct)

end Resolves

theorem resolveTarget_eq_ok {loc : Location} {found : Ty}
    (resolved : resolveTarget session scope loc target = .ok found) :
    session.resolveType scope target (.error loc (.undefinedConstructorType target.name)) =
      .ok found ∧ found.isStruct = true := by
  obtain ⟨struct, isResolved, checked⟩ := bind_eq_ok.mp resolved
  split at checked <;> cases checked
  next isStruct => exact ⟨isResolved, isStruct⟩

theorem resolveEach_resolves
    (each : ∀ id arena, Resolves session scope arena (resolve id arena).arena) (ids : List ExprId)
    (arena : Arena) : Resolves session scope arena (resolveEach resolve ids arena).arena := by
  induction ids generalizing arena with
  | nil => exact .refl arena
  | cons id ids ih =>
    exact (each id arena).trans (ih (resolve id arena).arena)

/-- Whether it succeeds or not, resolution keeps forms. -/
theorem resolveWithin_resolves (depth : Nat) (id : ExprId) (arena : Arena) :
    Resolves session scope arena (resolveWithin session scope depth id arena).arena := by
  induction depth generalizing id arena with
  | zero => exact .refl arena
  | succ depth ih =>
    rw [resolveWithin]
    split
    · exact .refl arena
    · next node isNode =>
      have isShape := shape?_of_node? isNode
      split
      · exact .refl arena
      · next name isName =>
        rw [isName] at isShape
        split
        · next value known =>
          exact .setType fun _ isOther => .of_name (shape_of_node? isShape isOther) known
        · exact .refl arena
      · next target child isConstruct =>
        rw [isConstruct] at isShape
        have inner := ih child arena
        dsimp only
        split
        · split
          · exact inner
          · next resolved =>
            obtain ⟨later, foundLater⟩ := inner.forms.keeps.construct isShape
            exact inner.trans
              (.setTarget foundLater (resolveTarget_eq_ok resolved).2)
        · exact inner
      · next notName notConstruct =>
        have operands : Resolves session scope arena _ :=
          resolveEach_resolves ih node.shape.children arena
        dsimp only
        split
        · have foundLater := operands.forms.keeps.shape?_eq isShape notConstruct
          exact operands.trans (.rememberType foundLater notName notConstruct)
        · exact operands

theorem resolve_resolves (arena : Arena) (session : Session) (scope : ScopeId) (id : ExprId) :
    Resolves session scope arena (arena.resolve session scope id).arena :=
  resolveWithin_resolves arena.size id arena

/-! ## Types and targets -/

theorem Typed.setTarget (typed : arena.Typed) (canonical : target.Canonical) (child : ExprId) :
    (arena.setTarget id target child).Typed := by
  have shaped : (arena.setShape id (.construct target child)).Typed := by
    refine typed.setShape (by simp) ?_
    rintro _ _ _ ⟨⟩
    exact canonical
  refine shaped.setType fun value isLiteral => ?_
  rw [shape?_setShape, if_pos rfl] at isLiteral
  obtain ⟨shape, _, form⟩ := Option.map_eq_some_iff.mp isLiteral
  cases form

theorem Typed.rememberType (typed : arena.Typed)
    (notLiteral : ∀ value, arena.shape? id ≠ some (.literal value)) :
    (arena.rememberType id).Typed := by
  rw [Arena.rememberType]
  split
  · exact typed
  · exact typed.setType notLiteral

theorem resolveEach_keeps {motive : Arena → Prop}
    (each : ∀ id {arena : Arena}, motive arena → motive (resolve id arena).arena)
    (ids : List ExprId) (holds : motive arena) : motive (resolveEach resolve ids arena).arena := by
  induction ids generalizing arena with
  | nil => exact holds
  | cons id ids ih => exact ih (each id holds)

/-- Whether it succeeds or not, resolution leaves every node fitting. -/
theorem resolveWithin_typed (registered : session.Registered) (depth : Nat) (id : ExprId)
    {arena : Arena} (typed : arena.Typed) :
    (resolveWithin session scope depth id arena).arena.Typed := by
  induction depth generalizing id arena with
  | zero => exact typed
  | succ depth ih =>
    rw [resolveWithin]
    split
    · exact typed
    · next node isNode =>
      have isShape := shape?_of_node? isNode
      split
      · exact typed
      · next name isName =>
        split
        · exact typed.setType (by simp [isShape, isName])
        · exact typed
      · next target child isConstruct =>
        have inner := ih child typed
        dsimp only
        split
        · split
          · exact inner
          · next resolved =>
            have canonical := (typed isNode).target target child isConstruct
            exact inner.setTarget (registered.resolveType_canonical canonical
              (resolveTarget_eq_ok resolved).1) _
        · exact inner
      · next notLiteral _ notConstruct =>
        have operands := resolveEach_keeps ih node.shape.children typed
        have forms : Resolves session scope arena _ :=
          resolveEach_resolves (resolveWithin_resolves depth) node.shape.children arena
        dsimp only
        split
        · refine operands.rememberType fun value isLiteral => ?_
          rw [forms.forms.keeps.shape?_eq isShape notConstruct] at isLiteral
          exact notLiteral value (Option.some.inj isLiteral)
        · exact operands

/-! ## Names and targets after a success -/

def AllBound (session : Session) (scope : ScopeId) (arena : Arena) (root : ExprId) : Prop :=
  ∀ ⦃inner node⦄, arena.Within inner root → arena.node? inner = some node →
    Bound session scope node

/-- Every name within `root` has the type of the value it stands for. -/
def NamesKnown (session : Session) (scope : ScopeId) (arena : Arena) (root : ExprId) : Prop :=
  ∀ ⦃inner name⦄, arena.Within inner root → arena.shape? inner = some (.name name) →
    ∃ node value, arena.node? inner = some node ∧ session.value? scope name = some value ∧
      node.ty = value.ty

namespace AllBound

theorem of_operands (found : arena.shape? id = some shape)
    (own : ∀ node, arena.node? id = some node → Bound session scope node)
    (operands : ∀ child ∈ shape.children, AllBound session scope arena child) :
    AllBound session scope arena id := by
  intro inner node within isNode
  rcases Relation.ReflTransGen.cases_tail within with rfl | ⟨child, below, operand⟩
  · exact own node isNode
  · obtain ⟨other, foundOther, member⟩ := operand_iff_shape?.mp operand
    rw [found] at foundOther
    cases foundOther
    exact operands child member below isNode

theorem resolves (known : AllBound session scope before id)
    (resolves : Resolves session scope before after) : AllBound session scope after id := by
  intro inner node within isNode
  rcases resolves.bound isNode with older | bound
  · exact known (resolves.forms.within_iff.mp within) older
  · exact bound

theorem names (known : AllBound session scope arena id) : NamesKnown session scope arena id := by
  intro inner name within isName
  obtain ⟨node, isNode, nodeName⟩ := shape?_eq_some_iff.mp isName
  obtain ⟨value, isValue, sameType⟩ := (known within isNode).name nodeName
  exact ⟨node, value, isNode, isValue, sameType⟩

end AllBound

theorem resolveEach_bound {resolve : ExprId → Arena → Resolution}
    (each : ∀ id arena, Resolves session scope arena (resolve id arena).arena)
    (known : ∀ id arena, (resolve id arena).ok = true →
      AllBound session scope (resolve id arena).arena id)
    {ids : List ExprId} {arena : Arena} (ok : (resolveEach resolve ids arena).ok = true) :
    ∀ id ∈ ids, AllBound session scope (resolveEach resolve ids arena).arena id := by
  induction ids generalizing arena with
  | nil => simp
  | cons first ids ih =>
    obtain ⟨firstOk, othersOk⟩ := Bool.and_eq_true_iff.mp ok
    intro id member
    rcases List.mem_cons.mp member with rfl | later
    · exact (known _ _ firstOk).resolves (resolveEach_resolves each ids _)
    · exact ih othersOk id later

/-- A successful resolution, by the form of the node. -/
inductive Success (session : Session) (scope : ScopeId) (depth : Nat) (id : ExprId)
    (arena : Arena) : Resolution → Prop
  | literal {value : Literal} (isShape : arena.shape? id = some (.literal value)) :
      Success session scope depth id arena ⟨arena, [], true⟩
  | name {name : String} {value : NamedValue} (isShape : arena.shape? id = some (.name name))
      (known : session.value? scope name = some value) :
      Success session scope depth id arena ⟨arena.setType id value.ty, [], true⟩
  | construct {target found : Ty} {child : ExprId} {loc : Location} {inner : Resolution}
      (isShape : arena.shape? id = some (.construct target child))
      (isInner : resolveWithin session scope depth child arena = inner) (innerOk : inner.ok = true)
      (resolved : resolveTarget session scope loc target = .ok found) :
      Success session scope depth id arena
        ⟨inner.arena.setTarget id found child, inner.entries, true⟩
  | operands {shape : Shape ExprId} {operands : Resolution} (isShape : arena.shape? id = some shape)
      (notName : ∀ name, shape ≠ .name name)
      (notConstruct : ∀ target child, shape ≠ .construct target child)
      (areOperands :
        resolveEach (resolveWithin session scope depth) shape.children arena = operands)
      (operandsOk : operands.ok = true) :
      Success session scope depth id arena
        { operands with arena := operands.arena.rememberType id }

theorem resolveWithin_success (ok : (resolveWithin session scope (depth + 1) id arena).ok = true) :
    Success session scope depth id arena (resolveWithin session scope (depth + 1) id arena) := by
  rw [resolveWithin] at ok ⊢
  split at ok
  · cases ok
  · next node isNode =>
    have isShape := shape?_of_node? isNode
    split at ok
    · next value isLiteral => exact .literal (isLiteral ▸ isShape)
    · next name isName =>
      split at ok
      · next value known => exact .name (isName ▸ isShape) known
      · cases ok
    · next target child isConstruct =>
      dsimp only at ok ⊢
      split at ok
      · next innerOk =>
        split at ok
        · cases ok
        · next found resolved =>
          rw [if_pos innerOk]
          exact .construct (isConstruct ▸ isShape) rfl innerOk resolved
      · next notOk => exact absurd ok notOk
    · next notName notConstruct =>
      dsimp only at ok ⊢
      split at ok
      · next operandsOk =>
        rw [if_pos operandsOk]
        exact .operands isShape notName notConstruct rfl operandsOk
      · next notOk => exact absurd ok notOk

theorem resolveWithin_bound (ok : (resolveWithin session scope depth id arena).ok = true) :
    AllBound session scope (resolveWithin session scope depth id arena).arena id := by
  induction depth generalizing id arena with
  | zero => cases ok
  | succ depth ih =>
    have success := resolveWithin_success ok
    generalize resolveWithin session scope (depth + 1) id arena = result at success ⊢
    cases success with
    | literal isShape =>
      refine .of_operands isShape (fun node isNode => ?_) (by simp [Shape.children])
      exact .of_derived (by simp [shape_of_node? isShape isNode])
        (by simp [shape_of_node? isShape isNode])
    | name isShape known =>
      refine .of_operands ((shape?_setType ..).trans isShape) (fun node isNode => ?_)
        (by simp [Shape.children])
      rw [node?_setType, if_pos rfl] at isNode
      obtain ⟨old, isOld, rfl⟩ := Option.map_eq_some_iff.mp isNode
      exact .of_name (shape_of_node? isShape isOld) known
    | @construct _ found child _ _ isShape isInner innerOk resolved =>
      subst isInner
      obtain ⟨_, isStruct⟩ := resolveTarget_eq_ok resolved
      have inner : Resolves session scope arena _ := resolveWithin_resolves depth child arena
      obtain ⟨later, foundLater⟩ := inner.forms.keeps.construct isShape
      have step : Resolves session scope _ (Arena.setTarget _ id found child) :=
        .setTarget foundLater isStruct
      obtain ⟨last, foundLast⟩ := step.forms.keeps.construct foundLater
      have childBound := (ih innerOk).resolves step
      refine .of_operands foundLast (fun node isNode => ?_)
        (by simpa [Shape.children] using childBound)
      rw [node?_setTarget, if_pos rfl] at isNode
      obtain ⟨old, _, rfl⟩ := Option.map_eq_some_iff.mp isNode
      exact .of_construct isStruct child
    | @operands shape _ isShape notName notConstruct areOperands operandsOk =>
      subst areOperands
      have operands : Resolves session scope arena _ :=
        resolveEach_resolves (resolveWithin_resolves depth) shape.children arena
      have foundLater := operands.forms.keeps.shape?_eq isShape notConstruct
      have step : Resolves session scope _ _ := .rememberType foundLater notName notConstruct
      have foundLast := step.forms.keeps.shape?_eq foundLater notConstruct
      have bound := resolveEach_bound (resolveWithin_resolves depth) (fun _ _ => ih) operandsOk
      refine .of_operands foundLast (fun node isNode => ?_) fun child member =>
        (bound child member).resolves step
      have isLast := shape_of_node? foundLast isNode
      exact .of_derived (isLast ▸ notName) (isLast ▸ notConstruct)

theorem resolveWithin_names (ok : (resolveWithin session scope depth id arena).ok = true) :
    NamesKnown session scope (resolveWithin session scope depth id arena).arena id :=
  (resolveWithin_bound ok).names

/-! ## Scalar expressions -/

variable {env : Environment} {root : ExprId}

theorem isOperator_ne (operator : shape.isOperator = true) :
    (∀ value, shape ≠ .literal value) ∧ (∀ name, shape ≠ .name name) ∧
      ∀ target child, shape ≠ .construct target child := by
  cases shape <;> simp_all [Shape.isOperator]

theorem resolveWithin_ok_operator (found : arena.shape? id = some shape)
    (operator : shape.isOperator = true) (depth : Nat) :
    (resolveWithin session scope (depth + 1) id arena).ok =
      (resolveEach (resolveWithin session scope depth) shape.children arena).ok := by
  obtain ⟨node, isNode, rfl⟩ := shape?_eq_some_iff.mp found
  obtain ⟨notLiteral, notName, notConstruct⟩ := isOperator_ne operator
  rw [resolveWithin, isNode]
  dsimp only
  split
  · next value isLiteral => exact absurd isLiteral (notLiteral value)
  · next name isName => exact absurd isName (notName name)
  · next target child isConstruct => exact absurd isConstruct (notConstruct target child)
  · split <;> rfl

theorem resolveEach_ok (each : ∀ id arena, Resolves session scope arena (resolve id arena).arena)
    (succeeds : ∀ id ∈ ids, ∀ current, base.SameForms current → (resolve id current).ok = true)
    (forms : base.SameForms current) : (resolveEach resolve ids current).ok = true := by
  induction ids generalizing current with
  | nil => rfl
  | cons first ids ih =>
    apply Bool.and_eq_true_iff.mpr
    refine ⟨succeeds first (by simp) current forms, ?_⟩
    exact ih (fun id member => succeeds id (by simp [member]))
      (forms.trans (each first current).forms)

/-- A scalar expression resolves where all its names are bound, within its rank. -/
theorem resolveWithin_scalar (acyclic : base.Acyclic) (allocated : base.Allocated root)
    (scalar : base.Scalar (session.literals scope) root) {current : Arena}
    (forms : base.SameForms current) {depth : Nat}
    (deep : base.rank root < depth) :
    (resolveWithin session scope depth root current).ok = true := by
  revert scalar current depth
  refine acyclic.induction ?_ root allocated
  intro root node isNode operands scalar current forms depth deep
  obtain ⟨depth, rfl⟩ : ∃ smaller, depth = smaller + 1 := ⟨depth - 1, by omega⟩
  have isShape := shape?_of_node? isNode
  rcases scalar.cases isShape with ⟨value, isLiteral⟩ | ⟨name, value, isName, bound⟩ | operator
  · rw [isLiteral] at isShape
    have now := forms.keeps.shape?_eq isShape (by simp)
    obtain ⟨current, isCurrent, isForm⟩ := shape?_eq_some_iff.mp now
    simp only [resolveWithin, isCurrent, isForm]
  · rw [isName] at isShape
    have now := forms.keeps.shape?_eq isShape (by simp)
    obtain ⟨current, isCurrent, isForm⟩ := shape?_eq_some_iff.mp now
    obtain ⟨named, known, _⟩ := Option.bind_eq_some_iff.mp bound
    simp only [resolveWithin, isCurrent, isForm, known]
  · have now := forms.keeps.shape?_eq isShape (isOperator_ne operator).2.2
    rw [resolveWithin_ok_operator now operator]
    refine resolveEach_ok (resolveWithin_resolves depth)
      (fun child member current forms => ?_) forms
    have operand := operand_of_mem isNode member
    have ranked := acyclic.rank_lt operand
    exact operands child member (scalar.within (.single operand)) forms (by omega)

end Arena

end Assay
