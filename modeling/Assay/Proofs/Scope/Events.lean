import Assay.Proofs.Scope.Growth
import Assay.Proofs.Scope.Handles
import Mathlib.Logic.Relation

/-!
Contract: the changes that a session goes through, one by one.

Owns:
- the twelve changes that registration, binding and folding are made of, each with what has to hold
  before it and which definitions it has to be allowed to change;
- what no change takes back;
- a definition that may not be changed stays as it is.
-/

namespace Assay

/-! ## Changes in place -/

/-- No function or block owns the struct. -/
def Struct.Free (struct : Struct) : Prop :=
  ∀ scope, struct.owner = some scope → ∃ id, scope = .module id

theorem Struct.free_of_unowned {struct : Struct} (unowned : struct.owner = none) : struct.Free :=
  fun _ owner => by rw [unowned] at owner; cases owner

/-- The owner of a struct is set once. -/
theorem Struct.or_owner {struct : Struct} {scope : ScopeId} (owner : struct.owner = some scope)
    (other : Option ScopeId) : { struct with owner := struct.owner.or other } = struct := by
  cases struct
  simp_all

/-- Members may be added or get types, and the struct may be sealed or marked as bound. -/
structure Struct.Edited (bounds : Bounds) (before after : Struct) : Prop where
  name : after.name = before.name
  owner : after.owner = before.owner
  isSealed : before.isSealed = true → after.isSealed = true
  isBound : before.isBound = true → after.isBound = true
  counted : (before.isSealed = true → 2 ≤ before.members.length) →
    after.isSealed = true → 2 ≤ after.members.length
  members : ∀ member ∈ after.members, member ∈ before.members ∨ bounds.Covers member.ty.handles

/-- Imports, constants and globals may be added. The types of constants and globals are never
unresolved. -/
structure Module.Edited (bounds : Bounds) (before after : Module) : Prop where
  name : after.name = before.name
  structs : after.structs = before.structs
  objects : after.objects = before.objects
  funcs : after.funcs = before.funcs
  imports : ∀ entry ∈ after.imports,
    entry ∈ before.imports ∨ bounds.holds (.module entry.2) = true
  constants : ∀ constant ∈ after.constants, constant ∈ before.constants ∨
    constant.ty.isUnresolved = false ∧ bounds.Covers constant.handles
  globals : ∀ global ∈ after.globals, global ∈ before.globals ∨
    global.ty.isUnresolved = false ∧ bounds.Covers global.handles

namespace Session

/-- The module lists a struct, and owns it if nothing did before. -/
abbrev takeStruct (session : Session) (module : ModuleId) (id : StructId) : Session :=
  (session.setModule module
      { session.moduleAt module with
        structs := (session.moduleAt module).structs ++
          [((session.structAt id).name, id)] }).modifyStruct id fun struct =>
    { struct with owner := struct.owner.or (some (.module module)) }

abbrev takeObject (session : Session) (module : ModuleId) (id : ObjectId) : Session :=
  (session.setModule module
      { session.moduleAt module with
        objects := (session.moduleAt module).objects ++
          [((session.objectAt id).name, id)] }).modifyObject id fun object =>
    { object with owner := some module }

abbrev takeFunc (session : Session) (module : ModuleId) (id : FuncId) : Session :=
  (session.setModule module
      { session.moduleAt module with
        funcs := (session.moduleAt module).funcs ++
          [((session.funcAt id).name, id)] }).modifyFunc id fun func =>
    { func with parent := some (.module module) }

/-- One change to a session whose expressions lie in an arena of `exprs` nodes. Only definitions
that `may` allows are changed in place. -/
inductive Event (may : Handle → Prop) (exprs : Nat) (session : Session) : Session → Prop where
  | declareModule (name : String) (loc : Location) :
      Event may exprs session
        { session with
          modules := session.modules.push
            { own := ⟨session.modules.size⟩, name := name, loc := loc } }
  | allocStruct (name : String) (loc : Location) (packed : Bool) :
      Event may exprs session
        { session with
          structs := session.structs.push { name := name, loc := loc, packed := packed } }
  | allocFunc (name : String) (loc : Location) :
      Event may exprs session
        { session with
          structs := (session.structs.push { name := inboundName name, loc := loc }).push
            { name := outboundName name, loc := loc }
          funcs := session.funcs.push
            { own := ⟨session.funcs.size⟩
              name := name
              loc := loc
              inbound := ⟨session.structs.size⟩
              outbound := ⟨session.structs.size + 1⟩ } }
  | allocBlock (name : String) (loc : Location) :
      Event may exprs session
        { session with
          structs := session.structs.push
            { name := name, loc := loc, owner := some (.block ⟨session.blocks.size⟩) }
          blocks := session.blocks.push
            { own := ⟨session.blocks.size⟩
              name := name
              loc := loc
              vars := ⟨session.structs.size⟩ } }
  | allocObject (name : String) (loc : Location) :
      Event may exprs session
        { session with objects := session.objects.push { name := name, loc := loc } }
  | editModule (id : ModuleId) (module : Module)
      (held : id.index < session.modules.size) (allowed : may (.module id))
      (edited : (session.moduleAt id).Edited (session.bounds exprs) module) :
      Event may exprs session (session.setModule id module)
  | editStruct (id : StructId) (struct : Struct)
      (held : id.index < session.structs.size) (allowed : may (.struct id))
      (edited : (session.structAt id).Edited (session.bounds exprs) struct) :
      Event may exprs session (session.setStruct id struct)
  | takeStruct (module : ModuleId) (id : StructId)
      (heldModule : module.index < session.modules.size) (held : id.index < session.structs.size)
      (allowed : may (.module module))
      (allowedStruct : (session.structAt id).owner = none → may (.struct id))
      (free : (session.structAt id).Free) :
      Event may exprs session (session.takeStruct module id)
  | takeObject (module : ModuleId) (id : ObjectId)
      (heldModule : module.index < session.modules.size) (held : id.index < session.objects.size)
      (allowed : may (.module module)) (allowedObject : may (.object id)) :
      Event may exprs session (session.takeObject module id)
  | takeFunc (module : ModuleId) (id : FuncId)
      (heldModule : module.index < session.modules.size) (held : id.index < session.funcs.size)
      (allowed : may (.module module)) (allowedFunc : may (.func id)) :
      Event may exprs session (session.takeFunc module id)
  | attach (func : FuncId) (role : BlockRole) (block : BlockId)
      (heldFunc : func.index < session.funcs.size) (held : block.index < session.blocks.size)
      (allowed : may (.func func)) (allowedBlock : may (.block block))
      (detached : (session.blockAt block).parent = none)
      (vars : (session.structAt (session.blockAt block).vars).owner = some (.block block)) :
      Event may exprs session (session.attachBlock func role block)
  | setInit (block : BlockId) (name : String) (expr : ExprId)
      (held : block.index < session.blocks.size) (allowed : may (.block block))
      (heldExpr : expr.index < exprs) :
      Event may exprs session (session.modifyBlock block fun state => state.setInit name expr)

abbrev Evolves (may : Handle → Prop) (exprs : Nat) : Session → Session → Prop :=
  Relation.ReflTransGen (Event may exprs)

/-! ## Reading after a change -/

theorem getD_push {α : Type} [Inhabited α] {items : Array α} {place : Nat}
    (held : place < items.size) (item : α) :
    ((items.push item)[place]?).getD default = (items[place]?).getD default := by
  rw [Array.getElem?_push_lt held, Array.getElem?_eq_getElem held]

theorem getD_push_cases {α : Type} [Inhabited α] (items : Array α) (item : α) (place : Nat) :
    ((items.push item)[place]?).getD default = (items[place]?).getD default ∨
      ((items.push item)[place]?).getD default = item := by
  rw [Array.getElem?_push]
  split
  · exact .inr rfl
  · exact .inl rfl

theorem getD_push_push {α : Type} [Inhabited α] (items : Array α) (first second : α) :
    (((items.push first).push second)[items.size]?).getD default = first := by
  rw [getD_push (by rw [Array.size_push]; omega), Array.getElem?_push_size]
  rfl

section

variable (session : Session)
include session

theorem funcAt_modifyFunc (id other : FuncId) (change : Func → Func) :
    (session.modifyFunc id change).funcAt other =
      if id = other ∧ id.index < session.funcs.size then change (session.funcAt other)
      else session.funcAt other := by
  cases id
  cases other
  simp only [FuncId.mk.injEq]
  exact getD_modify session.funcs _ _ change

theorem blockAt_modifyBlock (id other : BlockId) (change : Block → Block) :
    (session.modifyBlock id change).blockAt other =
      if id = other ∧ id.index < session.blocks.size then change (session.blockAt other)
      else session.blockAt other := by
  cases id
  cases other
  simp only [BlockId.mk.injEq]
  exact getD_modify session.blocks _ _ change

theorem objectAt_modifyObject (id other : ObjectId) (change : Object → Object) :
    (session.modifyObject id change).objectAt other =
      if id = other ∧ id.index < session.objects.size then change (session.objectAt other)
      else session.objectAt other := by
  cases id
  cases other
  simp only [ObjectId.mk.injEq]
  exact getD_modify session.objects _ _ change

@[simp] theorem bounds_modifyModule (id : ModuleId) (change : Module → Module) (exprs : Nat) :
    (session.modifyModule id change).bounds exprs = session.bounds exprs := by
  simp [bounds, modifyModule]

@[simp] theorem bounds_modifyStruct (id : StructId) (change : Struct → Struct) (exprs : Nat) :
    (session.modifyStruct id change).bounds exprs = session.bounds exprs := by
  simp [bounds, modifyStruct]

@[simp] theorem bounds_modifyFunc (id : FuncId) (change : Func → Func) (exprs : Nat) :
    (session.modifyFunc id change).bounds exprs = session.bounds exprs := by
  simp [bounds, modifyFunc]

@[simp] theorem bounds_modifyBlock (id : BlockId) (change : Block → Block) (exprs : Nat) :
    (session.modifyBlock id change).bounds exprs = session.bounds exprs := by
  simp [bounds, modifyBlock]

@[simp] theorem bounds_modifyObject (id : ObjectId) (change : Object → Object) (exprs : Nat) :
    (session.modifyObject id change).bounds exprs = session.bounds exprs := by
  simp [bounds, modifyObject]

end

/-! ## What may not be changed -/

/-- The same target and at least the same definitions. Those that may not be changed are the same in
both sessions. -/
structure Spares (may : Handle → Prop) (before after : Session) : Prop where
  target : after.target = before.target
  bounds : ∀ exprs, (before.bounds exprs).Le (after.bounds exprs)
  modules : ∀ id : ModuleId, id.index < before.modules.size → ¬ may (.module id) →
    after.moduleAt id = before.moduleAt id
  structs : ∀ id : StructId, id.index < before.structs.size → ¬ may (.struct id) →
    after.structAt id = before.structAt id
  funcs : ∀ id : FuncId, id.index < before.funcs.size → ¬ may (.func id) →
    after.funcAt id = before.funcAt id
  blocks : ∀ id : BlockId, id.index < before.blocks.size → ¬ may (.block id) →
    after.blockAt id = before.blockAt id
  objects : ∀ id : ObjectId, id.index < before.objects.size → ¬ may (.object id) →
    after.objectAt id = before.objectAt id

abbrev Extends : Session → Session → Prop :=
  Spares fun _ => False

variable {may : Handle → Prop} {exprs : Nat} {session before middle after : Session}

namespace Spares

variable (session)

theorem refl : session.Spares may session :=
  ⟨rfl, fun _ => .refl _, fun _ _ _ => rfl, fun _ _ _ => rfl, fun _ _ _ => rfl, fun _ _ _ => rfl,
    fun _ _ _ => rfl⟩

theorem trans (first : before.Spares may middle) (second : middle.Spares may after) :
    before.Spares may after where
  target := second.target.trans first.target
  bounds := fun exprs => (first.bounds exprs).trans (second.bounds exprs)
  modules := fun id held spared =>
    (second.modules id (Nat.lt_of_lt_of_le held (first.bounds 0).modules) spared).trans
      (first.modules id held spared)
  structs := fun id held spared =>
    (second.structs id (Nat.lt_of_lt_of_le held (first.bounds 0).structs) spared).trans
      (first.structs id held spared)
  funcs := fun id held spared =>
    (second.funcs id (Nat.lt_of_lt_of_le held (first.bounds 0).funcs) spared).trans
      (first.funcs id held spared)
  blocks := fun id held spared =>
    (second.blocks id (Nat.lt_of_lt_of_le held (first.bounds 0).blocks) spared).trans
      (first.blocks id held spared)
  objects := fun id held spared =>
    (second.objects id (Nat.lt_of_lt_of_le held (first.bounds 0).objects) spared).trans
      (first.objects id held spared)

theorem of_extends (grown : before.Extends after) : before.Spares may after where
  target := grown.target
  bounds := grown.bounds
  modules := fun id held _ => grown.modules id held False.elim
  structs := fun id held _ => grown.structs id held False.elim
  funcs := fun id held _ => grown.funcs id held False.elim
  blocks := fun id held _ => grown.blocks id held False.elim
  objects := fun id held _ => grown.objects id held False.elim

/-! Allocation -/

theorem pushModule (module : Module) :
    session.Spares may { session with modules := session.modules.push module } :=
  { refl session with
    bounds := fun exprs => by constructor <;> simp [Session.bounds]
    modules := fun _ held _ => getD_push held _ }

theorem pushStruct (struct : Struct) :
    session.Spares may { session with structs := session.structs.push struct } :=
  { refl session with
    bounds := fun exprs => by constructor <;> simp [Session.bounds]
    structs := fun _ held _ => getD_push held _ }

theorem pushFunc (func : Func) :
    session.Spares may { session with funcs := session.funcs.push func } :=
  { refl session with
    bounds := fun exprs => by constructor <;> simp [Session.bounds]
    funcs := fun _ held _ => getD_push held _ }

theorem pushBlock (block : Block) :
    session.Spares may { session with blocks := session.blocks.push block } :=
  { refl session with
    bounds := fun exprs => by constructor <;> simp [Session.bounds]
    blocks := fun _ held _ => getD_push held _ }

theorem pushObject (object : Object) :
    session.Spares may { session with objects := session.objects.push object } :=
  { refl session with
    bounds := fun exprs => by constructor <;> simp [Session.bounds]
    objects := fun _ held _ => getD_push held _ }

/-! Changes in place -/

theorem setModule {id : ModuleId} (allowed : may (.module id))
    (module : Module) : session.Spares may (session.setModule id module) :=
  { refl session with
    bounds := fun exprs => .of_eq (bounds_modifyModule session id _ exprs).symm
    modules := fun other _ spared => by
      rw [moduleAt_setModule, if_neg]
      exact fun same => spared (same.1 ▸ allowed) }

theorem modifyStruct {id : StructId} {change : Struct → Struct}
    (allowed : may (.struct id) ∨ change (session.structAt id) = session.structAt id) :
    session.Spares may (session.modifyStruct id change) :=
  { refl session with
    bounds := fun exprs => .of_eq (bounds_modifyStruct session id change exprs).symm
    structs := fun other _ spared => by
      rw [structAt_modifyStruct]
      split
      · next same => exact same.1 ▸ allowed.resolve_left (same.1 ▸ spared)
      · rfl }

theorem modifyFunc {id : FuncId} (allowed : may (.func id))
    (change : Func → Func) : session.Spares may (session.modifyFunc id change) :=
  { refl session with
    bounds := fun exprs => .of_eq (bounds_modifyFunc session id change exprs).symm
    funcs := fun other _ spared => by
      rw [funcAt_modifyFunc, if_neg]
      exact fun same => spared (same.1 ▸ allowed) }

theorem modifyBlock {id : BlockId} (allowed : may (.block id))
    (change : Block → Block) : session.Spares may (session.modifyBlock id change) :=
  { refl session with
    bounds := fun exprs => .of_eq (bounds_modifyBlock session id change exprs).symm
    blocks := fun other _ spared => by
      rw [blockAt_modifyBlock, if_neg]
      exact fun same => spared (same.1 ▸ allowed) }

theorem modifyObject {id : ObjectId} (allowed : may (.object id))
    (change : Object → Object) : session.Spares may (session.modifyObject id change) :=
  { refl session with
    bounds := fun exprs => .of_eq (bounds_modifyObject session id change exprs).symm
    objects := fun other _ spared => by
      rw [objectAt_modifyObject, if_neg]
      exact fun same => spared (same.1 ▸ allowed) }

end Spares

theorem Event.spares (event : Event may exprs before after) : before.Spares may after := by
  cases event with
  | declareModule name loc => exact .pushModule before _
  | allocStruct name loc packed => exact .pushStruct before _
  | allocFunc name loc =>
    exact ((Spares.pushStruct before _).trans (.pushStruct _ _)).trans (.pushFunc _ _)
  | allocBlock name loc => exact (Spares.pushStruct before _).trans (.pushBlock _ _)
  | allocObject name loc => exact .pushObject before _
  | editModule id module held allowed => exact .setModule before allowed module
  | editStruct id struct held allowed => exact .modifyStruct before (.inl allowed)
  | takeStruct module id heldModule held allowed allowedStruct =>
    refine (Spares.setModule before allowed _).trans (.modifyStruct _ ?_)
    cases owner : (before.structAt id).owner with
    | none => exact .inl (allowedStruct owner)
    | some scope =>
      exact .inr (Struct.or_owner owner _)
  | takeObject module id heldModule held allowed allowedObject =>
    exact (Spares.setModule before allowed _).trans (.modifyObject _ allowedObject _)
  | takeFunc module id heldModule held allowed allowedFunc =>
    exact (Spares.setModule before allowed _).trans (.modifyFunc _ allowedFunc _)
  | attach func role block heldFunc held allowed allowedBlock =>
    exact (Spares.modifyBlock before allowedBlock _).trans (.modifyFunc _ allowed _)
  | setInit block name expr held allowed => exact .modifyBlock before allowed _

theorem Evolves.spares (evolves : Evolves may exprs before after) : before.Spares may after := by
  induction evolves with
  | refl => exact .refl _
  | tail _ event ih => exact ih.trans event.spares

end Session

/-! ## What no change takes back -/

structure Struct.Persists (before after : Struct) : Prop where
  name : after.name = before.name
  owner : ∀ ⦃scope⦄, before.owner = some scope → after.owner = some scope
  free : before.Free → after.Free
  isSealed : before.isSealed = true → after.isSealed = true
  isBound : before.isBound = true → after.isBound = true

structure Func.Persists (before after : Func) : Prop where
  inbound : after.inbound = before.inbound
  outbound : after.outbound = before.outbound
  parent : before.parent.isSome = true → after.parent.isSome = true

structure Block.Persists (before after : Block) : Prop where
  vars : after.vars = before.vars
  parent : ∀ ⦃scope⦄, before.parent = some scope → after.parent = some scope

namespace Struct

variable {before middle after : Struct}

theorem Persists.refl (struct : Struct) : struct.Persists struct :=
  ⟨rfl, fun _ owner => owner, id, id, id⟩

theorem Persists.trans (first : before.Persists middle) (second : middle.Persists after) :
    before.Persists after where
  name := second.name.trans first.name
  owner := fun _ owner => second.owner (first.owner owner)
  free := fun free => second.free (first.free free)
  isSealed := fun isSealed => second.isSealed (first.isSealed isSealed)
  isBound := fun isBound => second.isBound (first.isBound isBound)

theorem Edited.persists {bounds : Bounds} (edited : before.Edited bounds after) :
    before.Persists after where
  name := edited.name
  owner := fun _ owner => edited.owner.trans owner
  free := fun free scope owner => free scope (edited.owner.symm.trans owner)
  isSealed := edited.isSealed
  isBound := edited.isBound

/-- A struct that gets its first owner, which is a module. -/
theorem persists_own (struct : Struct) (module : ModuleId) :
    struct.Persists { struct with owner := struct.owner.or (some (.module module)) } := by
  refine ⟨rfl, fun scope owner => ?_, fun free scope owner => ?_, id, id⟩
  · simp [owner]
  · cases known : struct.owner with
    | none =>
      rw [known] at owner
      cases owner
      exact ⟨module, rfl⟩
    | some first =>
      rw [known] at owner
      cases owner
      exact free _ known

end Struct

namespace Func.Persists

variable {before middle after : Func}

theorem refl (func : Func) : func.Persists func :=
  ⟨rfl, rfl, id⟩

theorem trans (first : before.Persists middle) (second : middle.Persists after) :
    before.Persists after where
  inbound := second.inbound.trans first.inbound
  outbound := second.outbound.trans first.outbound
  parent := fun parent => second.parent (first.parent parent)

end Func.Persists

theorem Func.setBlock_persists (func : Func) (role : BlockRole) (block : BlockId) :
    func.Persists (func.setBlock role block) := by
  cases role <;> exact ⟨rfl, rfl, id⟩

namespace Block.Persists

variable {before middle after : Block}

theorem refl (block : Block) : block.Persists block :=
  ⟨rfl, fun _ owner => owner⟩

theorem trans (first : before.Persists middle) (second : middle.Persists after) :
    before.Persists after where
  vars := second.vars.trans first.vars
  parent := fun _ parent => second.parent (first.parent parent)

end Block.Persists

namespace Session

structure Persists (before after : Session) : Prop where
  target : after.target = before.target
  bounds : ∀ exprs, (before.bounds exprs).Le (after.bounds exprs)
  structs : ∀ id : StructId, id.index < before.structs.size →
    (before.structAt id).Persists (after.structAt id)
  funcs : ∀ id : FuncId, id.index < before.funcs.size →
    (before.funcAt id).Persists (after.funcAt id)
  blocks : ∀ id : BlockId, id.index < before.blocks.size →
    (before.blockAt id).Persists (after.blockAt id)

variable {may : Handle → Prop} {exprs : Nat} {session before middle after : Session}

namespace Persists

variable (session)

theorem refl : session.Persists session :=
  ⟨rfl, fun _ => .refl _, fun _ _ => .refl _, fun _ _ => .refl _, fun _ _ => .refl _⟩

theorem trans (first : before.Persists middle) (second : middle.Persists after) :
    before.Persists after where
  target := second.target.trans first.target
  bounds := fun exprs => (first.bounds exprs).trans (second.bounds exprs)
  structs := fun id held => (first.structs id held).trans
    (second.structs id (Nat.lt_of_lt_of_le held (first.bounds 0).structs))
  funcs := fun id held => (first.funcs id held).trans
    (second.funcs id (Nat.lt_of_lt_of_le held (first.bounds 0).funcs))
  blocks := fun id held => (first.blocks id held).trans
    (second.blocks id (Nat.lt_of_lt_of_le held (first.bounds 0).blocks))

theorem setModule (id : ModuleId) (module : Module) :
    session.Persists (session.setModule id module) :=
  { refl session with bounds := fun exprs => .of_eq (bounds_modifyModule session id _ exprs).symm }

theorem modifyStruct (id : StructId) {change : Struct → Struct}
    (step : (session.structAt id).Persists (change (session.structAt id))) :
    session.Persists (session.modifyStruct id change) :=
  { refl session with
    bounds := fun exprs => .of_eq (bounds_modifyStruct session id change exprs).symm
    structs := fun other _ => by
      rw [structAt_modifyStruct]
      split
      · next same => exact same.1 ▸ step
      · exact .refl _ }

theorem modifyFunc (id : FuncId) {change : Func → Func}
    (step : (session.funcAt id).Persists (change (session.funcAt id))) :
    session.Persists (session.modifyFunc id change) :=
  { refl session with
    bounds := fun exprs => .of_eq (bounds_modifyFunc session id change exprs).symm
    funcs := fun other _ => by
      rw [funcAt_modifyFunc]
      split
      · next same => exact same.1 ▸ step
      · exact .refl _ }

theorem modifyBlock (id : BlockId) {change : Block → Block}
    (step : (session.blockAt id).Persists (change (session.blockAt id))) :
    session.Persists (session.modifyBlock id change) :=
  { refl session with
    bounds := fun exprs => .of_eq (bounds_modifyBlock session id change exprs).symm
    blocks := fun other _ => by
      rw [blockAt_modifyBlock]
      split
      · next same => exact same.1 ▸ step
      · exact .refl _ }

theorem modifyObject (id : ObjectId) (change : Object → Object) :
    session.Persists (session.modifyObject id change) :=
  { refl session with
    bounds := fun exprs => .of_eq (bounds_modifyObject session id change exprs).symm }

theorem of_extends (grown : before.Extends after) : before.Persists after where
  target := grown.target
  bounds := grown.bounds
  structs := fun id held => grown.structs id held False.elim ▸ .refl _
  funcs := fun id held => grown.funcs id held False.elim ▸ .refl _
  blocks := fun id held => grown.blocks id held False.elim ▸ .refl _

end Persists

theorem Event.persists (event : Event may exprs before after) : before.Persists after := by
  cases event with
  | declareModule name loc => exact .of_extends (.pushModule before _)
  | allocStruct name loc packed => exact .of_extends (.pushStruct before _)
  | allocFunc name loc =>
    exact .of_extends (((Spares.pushStruct before _).trans (.pushStruct _ _)).trans (.pushFunc _ _))
  | allocBlock name loc =>
    exact .of_extends ((Spares.pushStruct before _).trans (.pushBlock _ _))
  | allocObject name loc => exact .of_extends (.pushObject before _)
  | editModule id module => exact .setModule before id module
  | editStruct id struct held allowed edited => exact .modifyStruct before id edited.persists
  | takeStruct module id =>
    exact (Persists.setModule before module _).trans
      (.modifyStruct _ id (Struct.persists_own _ module))
  | takeObject module id =>
    exact (Persists.setModule before module _).trans (.modifyObject _ id _)
  | takeFunc module id =>
    exact (Persists.setModule before module _).trans (.modifyFunc _ id ⟨rfl, rfl, fun _ => rfl⟩)
  | attach func role block heldFunc held allowed allowedBlock detached =>
    have owned : (before.blockAt block).Persists
        { before.blockAt block with parent := some (.func func) } :=
      ⟨rfl, fun other parent => by rw [detached] at parent; cases parent⟩
    exact (Persists.modifyBlock before block owned).trans
      (.modifyFunc _ func (Func.setBlock_persists _ role block))
  | setInit block name expr =>
    exact .modifyBlock before block ⟨rfl, fun _ parent => parent⟩

theorem Evolves.persists (evolves : Evolves may exprs before after) : before.Persists after := by
  induction evolves with
  | refl => exact .refl _
  | tail _ event ih => exact ih.trans event.persists

end Session

end Assay
