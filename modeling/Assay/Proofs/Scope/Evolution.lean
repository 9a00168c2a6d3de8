import Assay.Proofs.Scope.Searching

/-!
Contract: registration as a sequence of changes.
-/

namespace Assay

open Stopping

/-! ## Modules and structs -/

namespace Module

variable {before middle after module : Module} {bounds : Bounds} {own : ModuleId} {ty : Ty}
  {name : String}

theorem Edited.mono {large : Bounds} (edited : before.Edited bounds after)
    (grows : bounds.Le large) : before.Edited large after where
  name := edited.name
  structs := edited.structs
  objects := edited.objects
  funcs := edited.funcs
  imports := fun entry member => (edited.imports entry member).imp_right grows.holds
  constants := fun constant member =>
    (edited.constants constant member).imp_right fun new => ⟨new.1, new.2.mono grows⟩
  globals := fun global member =>
    (edited.globals global member).imp_right fun new => ⟨new.1, new.2.mono grows⟩

theorem Edited.refl (module : Module) : module.Edited bounds module :=
  ⟨rfl, rfl, rfl, rfl, fun _ => .inl, fun _ => .inl, fun _ => .inl⟩

theorem covers_constantType (prelude : bounds.holds (.struct Prelude.string) = true)
    (covered : bounds.Covers ty.handles) : bounds.Covers (constantType ty).handles := by
  unfold constantType
  split
  · simpa [Prelude.stringType] using prelude
  · exact covered

theorem isUnresolved_constantType (resolved : ty.isUnresolved = false) :
    (constantType ty).isUnresolved = false := by
  unfold constantType
  split
  · rfl
  · exact resolved

theorem Installs.edited {constant added : Constant}
    (installs : before.Installs own constant name after added)
    (prelude : bounds.holds (.struct Prelude.string) = true)
    (held : bounds.holds (.module own) = true) (resolved : constant.ty.isUnresolved = false)
    (covered : bounds.Covers constant.ty.handles) : before.Edited bounds after := by
  have same := installs.lists
  refine ⟨same.name, same.structs, same.objects, same.funcs, fun entry member => .inl ?_,
    ?_, fun global member => .inl ?_⟩
  · exact same.imports ▸ member
  · rw [installs.constants]
    refine mem_concat_or ?_
    rw [Constant.handles, installs.ty, installs.owner]
    refine ⟨isUnresolved_constantType resolved, ?_⟩
    simpa using ⟨covers_constantType prelude covered, held⟩
  · exact same.globals ▸ member

theorem findString_edited (prelude : bounds.holds (.struct Prelude.string) = true)
    (held : bounds.holds (.module own) = true) (text : String) (loc : Location) :
    module.Edited bounds (module.findString own text loc).2 := by
  rcases module.findString_cases own text loc with ⟨same, _⟩ | ⟨_, _, installs⟩
  · exact same.symm ▸ .refl module
  · refine installs.edited prelude held rfl ?_
    simpa [Constant.declare, Prelude.stringType] using prelude

theorem addGlobal_edited (held : bounds.holds (.module own) = true) {global : Global}
    (resolved : global.ty.isUnresolved = false) (covered : bounds.Covers global.ty.handles)
    (added : before.addGlobal own global = .ok after) : before.Edited bounds after := by
  obtain ⟨_, rfl⟩ := addGlobal_appended added
  refine ⟨rfl, rfl, rfl, rfl, fun _ => .inl, fun _ => .inl, ?_⟩
  rw [globals_pushGlobal]
  refine mem_concat_or ⟨resolved, ?_⟩
  simpa [Global.handles] using ⟨covered, held⟩

theorem addImport_edited {imported : ModuleId} (held : bounds.holds (.module imported) = true)
    (added : before.addImport name imported = .ok after) : before.Edited bounds after := by
  unfold addImport at added
  split at added <;> cases added
  exact ⟨rfl, rfl, rfl, rfl, mem_concat_or held, fun _ => .inl, fun _ => .inl⟩

end Module

namespace Struct

variable {before after struct : Struct} {bounds : Bounds} {name : String} {ty word : Ty}
  {own : StructId}

theorem Edited.mono {large : Bounds} (edited : before.Edited bounds after)
    (grows : bounds.Le large) : before.Edited large after :=
  { edited with members := fun member isMember =>
      (edited.members member isMember).imp_right fun covered => covered.mono grows }

theorem addMember_edited (covered : bounds.Covers ty.handles)
    (added : before.addMember name ty = .ok after) : before.Edited bounds after := by
  obtain ⟨unsealed, _, _, _, rfl⟩ := addMember_ok added
  refine ⟨rfl, rfl, id, id, fun _ isSealed => ?_, mem_concat_or covered⟩
  rw [unsealed] at isSealed
  cases isSealed

theorem sealWith_edited (held : bounds.holds (.struct own) = true)
    (covered : bounds.Covers word.handles) (done : before.sealWith own word = .ok after) :
    before.Edited bounds after := by
  rcases sealWith_eq done with ⟨_, rfl⟩ | ⟨unsealed, rfl⟩
  · exact ⟨rfl, rfl, id, id, id, fun _ => .inl⟩
  · refine ⟨rfl, rfl, fun _ => rfl, id, fun _ _ => by simp, fun member isMember => ?_⟩
    rcases List.mem_append.mp isMember with isOld | isNew
    · exact .inl isOld
    · right
      simp only [List.mem_cons, List.not_mem_nil, or_false] at isNew
      rcases isNew with rfl | rfl
      · exact covered
      · simpa using held

end Struct

theorem Prelude.index_lt {id : StructId} (member : id ∈ Prelude.structIds) : id.index < 3 := by
  have all : ∀ id ∈ Prelude.structIds, id.index < 3 := by decide
  exact all id member

/-! ## Allocation -/

namespace Session

theorem modify_push {α : Type} (items : Array α) (item : α) (change : α → α) :
    (items.push item).modify items.size change = items.push (change item) := by
  ext index _ bound
  · simp
  · rw [Array.size_push] at bound
    simp only [Array.getElem_modify, Array.getElem_push]
    split <;> split <;> first | rfl | omega

/-- Changing an item is putting its changed value in its place. -/
theorem modify_eq_modify_const {α : Type} (items : Array α) (index : Nat) (fallback : α)
    (change : α → α) :
    items.modify index change =
      items.modify index fun _ => change ((items[index]?).getD fallback) := by
  ext place
  · simp only [Array.size_modify]
  · simp only [Array.getElem_modify]
    split
    case isTrue same =>
      subst same
      rw [Array.getElem?_eq_getElem, Option.getD_some]
    case isFalse => rfl

theorem modify_getD_self {α : Type} (items : Array α) (index : Nat) (fallback : α) :
    (items.modify index fun _ => (items[index]?).getD fallback) = items := by
  have same := modify_eq_modify_const items index fallback id
  rw [id] at same
  rw [← same]
  ext place
  · simp only [Array.size_modify]
  · simp only [Array.getElem_modify, id, ite_self]

theorem allocFunc_run (name : String) (loc : Location) (session : Session) :
    (allocFunc name loc).run session =
      (⟨session.funcs.size⟩,
        { session with
          structs := (session.structs.push { name := inboundName name, loc := loc }).push
            { name := outboundName name, loc := loc }
          funcs := session.funcs.push
            { own := ⟨session.funcs.size⟩
              name := name
              loc := loc
              inbound := ⟨session.structs.size⟩
              outbound := ⟨session.structs.size + 1⟩ } }) := by
  have size : (session.structs.push { name := inboundName name, loc := loc }).size =
    session.structs.size + 1 := Array.size_push _
  rw [← size]
  rfl

theorem allocBlock_run (name : String) (loc : Location) (session : Session) :
    (allocBlock (some name) loc).run session =
      (⟨session.blocks.size⟩,
        { session with
          structs := session.structs.push
            { name := name, loc := loc, owner := some (.block ⟨session.blocks.size⟩) }
          blocks := session.blocks.push
            { own := ⟨session.blocks.size⟩
              name := name
              loc := loc
              vars := ⟨session.structs.size⟩ } }) := by
  have owned := modify_push session.structs { name := name, loc := loc } fun struct =>
    { struct with owner := some (.block ⟨session.blocks.size⟩) }
  rw [← owned]
  rfl

theorem setModule_self (session : Session) (id : ModuleId) :
    session.setModule id (session.moduleAt id) = session := by
  rw [setModule, modifyModule, moduleAt, modify_getD_self]

theorem modifyStruct_eq_setStruct (session : Session) (id : StructId) (change : Struct → Struct) :
    session.modifyStruct id change = session.setStruct id (change (session.structAt id)) := by
  rw [setStruct, modifyStruct, modifyStruct, structAt, ← modify_eq_modify_const]

theorem setStruct_self (session : Session) (id : StructId) :
    session.setStruct id (session.structAt id) = session := by
  rw [setStruct, modifyStruct, structAt, modify_getD_self]

structure Furnished (session : Session) : Prop where
  held : 3 ≤ session.structs.size
  free : ∀ id ∈ Prelude.structIds, (session.structAt id).Free

end Session

/-! ## Registration -/

namespace Edit

open Session (Evolves Event)

variable {may : Handle → Prop} {exprs : Nat} {base session : Session} {module : ModuleId}
  {id : StructId} {ty : Ty} {func : FuncId} {block : BlockId}

/-- A module takes a struct under a name that is free, and then describes it. -/
theorem addStruct_taken {session : Session} {id : StructId}
    (free : (session.moduleAt module).struct? (session.structAt id).name = none) :
    (addStruct module id).run.run session =
      (describeStruct module id).run.run (session.takeStruct module id) := by
  rw [addStruct, run_get_bind, run_bind,
    changeModule_ok (fun state => state.addStruct (session.structAt id).name id)
      (by rw [Module.addStruct, free]; rfl)]
  exact run_modify_bind _ (fun _ => describeStruct module id) _

theorem addStruct_refused {other : StructId}
    (taken : (session.moduleAt module).struct? (session.structAt id).name = some other) :
    (addStruct module id).run.run session =
      (.error (.duplicateDefinition (session.structAt id).name), session) := by
  rw [addStruct, run_get_bind, run_bind,
    changeModule_error (fun state => state.addStruct (session.structAt id).name id)
      (by rw [Module.addStruct, taken]; rfl)]

theorem addObject_taken {id : ObjectId}
    (free : (session.moduleAt module).object? (session.objectAt id).name = none) :
    (addObject module id).run.run session = (.ok ⟨⟩, session.takeObject module id) := by
  rw [addObject, run_get_bind, run_bind,
    changeModule_ok (fun state => state.addObject (session.objectAt id).name id)
      (by rw [Module.addObject, free]; rfl)]
  rfl

theorem addObject_refused {id other : ObjectId}
    (taken : (session.moduleAt module).object? (session.objectAt id).name = some other) :
    (addObject module id).run.run session =
      (.error (.duplicateDefinition (session.objectAt id).name), session) := by
  rw [addObject, run_get_bind, run_bind,
    changeModule_error (fun state => state.addObject (session.objectAt id).name id)
      (by rw [Module.addObject, taken]; rfl)]

theorem addStruct_keeps {inv : Session → Prop}
    (takes : ∀ {session}, inv session →
      (session.moduleAt module).struct? (session.structAt id).name = none →
        inv (session.takeStruct module id))
    (describes : Keeps inv (describeStruct module id)) : Keeps inv (addStruct module id) := by
  intro session holds
  cases taken : (session.moduleAt module).struct? (session.structAt id).name with
  | some other =>
    rw [addStruct_refused taken]
    exact holds
  | none =>
    rw [addStruct_taken taken]
    exact describes _ (takes holds taken)

theorem addObject_keeps {inv : Session → Prop} {id : ObjectId}
    (takes : ∀ {session}, inv session →
      (session.moduleAt module).object? (session.objectAt id).name = none →
        inv (session.takeObject module id)) : Keeps inv (addObject module id) := by
  intro session holds
  cases taken : (session.moduleAt module).object? (session.objectAt id).name with
  | some other =>
    rw [addObject_refused taken]
    exact holds
  | none =>
    rw [addObject_taken taken]
    exact takes holds taken

def describeFunc (module : ModuleId) (func : Func) : Edit Unit := do
  addStruct module func.inbound
  addStruct module func.outbound
  func.blocks.forM fun block => do
    describeStruct module ((← get).blockAt block).vars

theorem addFunc_taken {id : FuncId}
    (free : (session.moduleAt module).func? (session.funcAt id).name = none) :
    (addFunc module id).run.run session =
      (describeFunc module (session.funcAt id)).run.run (session.takeFunc module id) := by
  rw [addFunc, run_get_bind, run_bind,
    changeModule_ok (fun state => state.addFunc (session.funcAt id).name id)
      (by rw [Module.addFunc, free]; rfl)]
  exact run_modify_bind _ (fun _ => describeFunc module (session.funcAt id)) _

theorem addFunc_refused {id other : FuncId}
    (taken : (session.moduleAt module).func? (session.funcAt id).name = some other) :
    (addFunc module id).run.run session =
      (.error (.duplicateDefinition (session.funcAt id).name), session) := by
  rw [addFunc, run_get_bind, run_bind,
    changeModule_error (fun state => state.addFunc (session.funcAt id).name id)
      (by rw [Module.addFunc, taken]; rfl)]

/-- An invariant that is kept when one module is edited within bounds. -/
structure EditsModule (bounds : Bounds) (module : ModuleId) (inv : Session → Prop) : Prop where
  own : bounds.holds (.module module) = true
  prelude : ∀ id ∈ Prelude.structIds, bounds.holds (.struct id) = true
  edit : ∀ {session changed}, inv session → (session.moduleAt module).Edited bounds changed →
    inv (session.setModule module changed)

namespace EditsModule

variable {bounds : Bounds} {inv : Session → Prop} (edits : EditsModule bounds module inv)
include edits

theorem changeModule {change : Module → Except Fault Module}
    (step : ∀ {before after}, change before = .ok after → before.Edited bounds after) :
    Keeps inv (changeModule module change) :=
  changeModule_keeps fun holds changed => edits.edit holds (step changed)

theorem addConstant {constant : Constant} (resolved : constant.ty.isUnresolved = false)
    (covered : bounds.Covers constant.ty.handles) : Keeps inv (addConstant module constant) := by
  refine addConstant_keeps fun holds added => ?_
  obtain ⟨_, installs⟩ := Module.installs_of_added added
  exact edits.edit holds (installs.edited (edits.prelude _ (by decide)) edits.own resolved covered)

theorem addGlobal {global : Global} (resolved : global.ty.isUnresolved = false)
    (covered : bounds.Covers global.ty.handles) : Keeps inv (addGlobal module global) :=
  edits.changeModule (Module.addGlobal_edited edits.own resolved covered)

theorem findString (text : String) (loc : Location) :
    Computation.Keeps inv (findString module text loc) :=
  .get_bind fun _ holds => edits.edit holds
    (Module.findString_edited (edits.prelude _ (by decide)) edits.own text loc)

theorem addImport {imported : ModuleId} (heldImport : bounds.holds (.module imported) = true) :
    Keeps inv (addImport module imported) :=
  .get_bind fun session => edits.changeModule (Module.addImport_edited heldImport) session

theorem typeInfo (name : String) (loc : Location) (initializer : Initializer) :
    Keeps inv (Edit.addGlobal module { name, ty := Prelude.typeInfoType loc, initializer }) := by
  refine edits.addGlobal rfl ?_
  simpa [Prelude.typeInfoType] using edits.prelude _ (by decide)

theorem annotateStruct (struct : Struct) (id : StructId) :
    Keeps inv (annotateStruct module struct id) := by
  refine annotateStruct_keeps (fun name loc text => edits.addConstant rfl ?_)
    edits.typeInfo struct id
  simpa [Constant.declare, Prelude.stringType] using edits.prelude _ (by decide)

theorem describeKind (kind : Kind) : Keeps inv (describeKind module kind) :=
  describeKind_keeps edits.findString edits.typeInfo kind

theorem addAttrTable (struct : Struct) : Keeps inv (Session.addAttrTable module struct) := by
  refine (Keeps.lift (Session.attrRows_keeps edits.findString struct.members)).bind fun rows => ?_
  refine edits.addGlobal rfl ?_
  simpa [Prelude.typeNodeType] using edits.prelude _ (by decide)

end EditsModule

/-- A struct that may be changed stands with new members and marks. -/
theorem editStruct_evolves {struct : Struct} (held : id.index < base.structs.size)
    (allowed : may (.struct id)) (evolves : Evolves may exprs base session)
    (edited : (session.structAt id).Edited (base.bounds exprs) struct) :
    Evolves may exprs base (session.setStruct id struct) :=
  have bounds := evolves.persists.bounds exprs
  evolves.tail (.editStruct id struct (Nat.lt_of_lt_of_le held bounds.structs) allowed
    (edited.mono bounds))

theorem addMember_evolves (held : id.index < base.structs.size) (allowed : may (.struct id))
    (covered : (base.bounds exprs).Covers ty.handles) (name : String) :
    Keeps (Evolves may exprs base) (addMember id name ty) :=
  addMember_keeps fun evolves added =>
    editStruct_evolves held allowed evolves (Struct.addMember_edited covered added)

theorem addParameter_evolves {params : StructId} (held : params.index < base.structs.size)
    (allowed : may (.struct params)) (covered : (base.bounds exprs).Covers ty.handles)
    (func : FuncId) (name : String) :
    Keeps (Evolves may exprs base) (addParameter func params name ty) := by
  refine .get_bind fun session evolves => ?_
  split
  · exact evolves
  · exact addMember_evolves held allowed covered name session evolves

section Module

variable (held : module.index < base.modules.size) (allowed : may (.module module))
  (prelude : 3 ≤ base.structs.size) {id : StructId}

include held allowed prelude

theorem editsModule_evolves :
    EditsModule (base.bounds exprs) module (Evolves may exprs base) where
  own := decide_eq_true held
  prelude := fun _ member => decide_eq_true (Nat.lt_of_lt_of_le (Prelude.index_lt member) prelude)
  edit := fun evolves edited =>
    have bounds := evolves.persists.bounds exprs
    evolves.tail (.editModule module _ (Nat.lt_of_lt_of_le held bounds.modules) allowed
      (edited.mono bounds))

/-- Sealing needs leave only for a struct that is not sealed yet. -/
theorem describeStruct_evolves (heldStruct : id.index < base.structs.size)
    (touch : may (.struct id) ∨ (base.structAt id).isSealed = true) :
    Keeps (Evolves may exprs base) (describeStruct module id) := by
  refine describeStruct_keeps (fun {session struct} evolves done => ?_)
    fun struct => (editsModule_evolves held allowed prelude).annotateStruct struct id
  rcases touch with allowedStruct | isSealed
  · refine editStruct_evolves heldStruct allowedStruct evolves
      (Struct.sealWith_edited (decide_eq_true heldStruct) ?_ done)
    rw [Target.wordType, Ty.handles_ofName]
    exact Bounds.covers_nil
  · have stillSealed := (evolves.persists.structs id heldStruct).isSealed isSealed
    rw [Struct.sealWith, if_pos stillSealed] at done
    cases done
    rw [Session.setStruct_self]
    exact evolves

theorem addStruct_evolves {id : StructId} (heldStruct : id.index < base.structs.size)
    (free : (base.structAt id).Free)
    (touch : may (.struct id) ∨
      (base.structAt id).owner.isSome = true ∧ (base.structAt id).isSealed = true) :
    Keeps (Evolves may exprs base) (addStruct module id) := by
  refine addStruct_keeps (fun {session} evolves _ => ?_)
    (describeStruct_evolves held allowed prelude heldStruct (touch.imp_right And.right))
  have bounds := evolves.persists.bounds exprs
  have persists := evolves.persists.structs id heldStruct
  refine evolves.tail (.takeStruct module id (Nat.lt_of_lt_of_le held bounds.modules)
    (Nat.lt_of_lt_of_le heldStruct bounds.structs) allowed (fun unowned => ?_) (persists.free free))
  rcases touch with allowedStruct | ⟨isOwned, _⟩
  · exact allowedStruct
  · obtain ⟨scope, owner⟩ := Option.isSome_iff_exists.mp isOwned
    rw [persists.owner owner] at unowned
    cases unowned

omit prelude in
theorem addObject_evolves {id : ObjectId} (heldObject : id.index < base.objects.size)
    (allowedObject : may (.object id)) :
    Keeps (Evolves may exprs base) (addObject module id) := by
  refine addObject_keeps fun {session} evolves _ => ?_
  have bounds := evolves.persists.bounds exprs
  exact evolves.tail (.takeObject module id (Nat.lt_of_lt_of_le held bounds.modules)
    (Nat.lt_of_lt_of_le heldObject bounds.objects) allowed allowedObject)

structure Presentable (may : Handle → Prop) (session : Session) (id : FuncId) : Prop where
  held : id.index < session.funcs.size
  allowed : may (.func id)
  params : ∀ params ∈ [(session.funcAt id).inbound, (session.funcAt id).outbound],
    params.index < session.structs.size ∧ (session.structAt params).Free ∧ may (.struct params)
  blocks : ∀ block ∈ (session.funcAt id).blocks, block.index < session.blocks.size ∧
    (session.blockAt block).vars.index < session.structs.size ∧
    may (.struct (session.blockAt block).vars)

theorem addFunc_evolves {id : FuncId} (presentable : Presentable may base id) :
    Evolves may exprs base ((addFunc module id).run.run base).2 := by
  cases taken : (base.moduleAt module).func? (base.funcAt id).name with
  | some other => rw [addFunc_refused taken]
  | none =>
    rw [addFunc_taken taken]
    have start : Evolves may exprs base _ := .single
      (.takeFunc module id held presentable.held allowed presentable.allowed)
    have struct : ∀ params ∈ [(base.funcAt id).inbound, (base.funcAt id).outbound],
        Keeps (Evolves may exprs base) (addStruct module params) :=
      fun params member =>
        have ⟨heldParams, free, touch⟩ := presentable.params params member
        addStruct_evolves held allowed prelude heldParams free (.inl touch)
    refine Keeps.bind (struct _ (by simp)) (fun _ => ?_) _ start
    refine Keeps.bind (struct _ (by simp)) fun _ => ?_
    refine .forM fun block member => .get_bind fun session evolves => ?_
    obtain ⟨heldBlock, heldVars, touch⟩ := presentable.blocks block member
    rw [(evolves.persists.blocks block heldBlock).vars]
    exact describeStruct_evolves held allowed prelude heldVars (.inl touch) session evolves

omit prelude in
theorem installPrelude_evolves (furnished : base.Furnished)
    (touch : ∀ id ∈ Prelude.structIds, may (.struct id) ∨
      (base.structAt id).owner.isSome = true ∧ (base.structAt id).isSealed = true) :
    Keeps (Evolves may exprs base) (installPrelude module) := by
  refine Keeps.bind (.forM fun id member => ?_) fun _ => ?_
  · exact addStruct_evolves held allowed furnished.held
      (Nat.lt_of_lt_of_le (Prelude.index_lt member) furnished.held)
      (furnished.free id member) (touch id member)
  · exact .forM fun kind _ => (editsModule_evolves held allowed furnished.held).describeKind kind

end Module

end Edit

end Assay
