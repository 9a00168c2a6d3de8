import Assay.Proofs.Scope.Bookkeeping

/-!
Contract: the handles inside the definitions of a session, whatever its user does.
-/

namespace Assay

open Stopping

/-! ## Modules and structs -/

namespace Module

variable {bounds : Bounds} {module before after : Module} {own : ModuleId}

theorem SameLists.covers (same : before.SameLists after) (covered : bounds.Covers before.handles) :
    bounds.Covers after.handles := by
  rw [handles] at covered ⊢
  rw [same.imports, same.structs, same.objects, same.funcs, same.constants, same.globals]
  exact covered

/-- The type of the new constant may be one that has no definition yet. -/
theorem Installs.covers {constant added : Constant} {name : String}
    (installs : before.Installs own constant name after added)
    (prelude : bounds.holds (.struct Prelude.string) = true)
    (held : bounds.holds (.module own) = true) (ty : bounds.Covers constant.ty.handles)
    (covered : bounds.Covers before.handles) : bounds.Covers after.handles := by
  have coversAdded : bounds.Covers added.handles := by
    simpa [Constant.handles, installs.ty, installs.owner, held] using covers_constantType prelude ty
  refine installs.lists.covers ?_
  obtain ⟨imports, structs, objects, funcs, constants, globals⟩ := covers_handles.mp covered
  refine covers_handles.mpr ⟨imports, structs, objects, funcs, ?_, globals⟩
  rw [← installs.lists.constants, installs.constants]
  exact List.forall_mem_append.mpr ⟨constants, List.forall_mem_singleton.mpr coversAdded⟩

theorem covers_addGlobal (held : bounds.holds (.module own) = true) {global : Global}
    (ty : bounds.Covers global.ty.handles) (covered : bounds.Covers before.handles)
    (added : before.addGlobal own global = .ok after) : bounds.Covers after.handles := by
  obtain ⟨_, rfl⟩ := addGlobal_appended added
  have coversAdded : bounds.Covers ({ global with owner := some own } : Global).handles := by
    simpa [Global.handles, held] using ty
  obtain ⟨imports, structs, objects, funcs, constants, globals⟩ := covers_handles.mp covered
  refine covers_handles.mpr ⟨imports, structs, objects, funcs, constants, ?_⟩
  rw [globals_pushGlobal]
  exact List.forall_mem_append.mpr ⟨globals, List.forall_mem_singleton.mpr coversAdded⟩

end Module

/-! ## Sessions within bounds -/

namespace Session

/-- The session has these bounds, which leave room for the runtime structs, and they cover every
handle in its definitions. -/
structure Within (bounds : Bounds) (session : Session) : Prop where
  sized : session.bounds bounds.exprs = bounds
  prelude : 3 ≤ bounds.structs
  covered : session.CoveredBy bounds

/-- Every handle in a definition stands for a definition, for some number of expressions. -/
def Closed (session : Session) : Prop :=
  ∃ exprs, session.Within (session.bounds exprs)

variable {bounds : Bounds} {session : Session}

namespace Within

variable {id : StructId} {struct : Struct}

variable (within : session.Within bounds)
include within

/-- What is within the bounds is in the session. -/
theorem holds_own {handle : Handle} (held : bounds.holds handle = true) :
    (session.bounds bounds.exprs).holds handle = true := by
  rwa [within.sized]

theorem heldModule {id : ModuleId} (held : bounds.holds (.module id) = true) :
    id.index < session.modules.size :=
  of_decide_eq_true (within.holds_own held)

theorem heldStruct {id : StructId} (held : bounds.holds (.struct id) = true) :
    id.index < session.structs.size :=
  of_decide_eq_true (within.holds_own held)

theorem heldFunc {id : FuncId} (held : bounds.holds (.func id) = true) :
    id.index < session.funcs.size :=
  of_decide_eq_true (within.holds_own held)

theorem heldBlock {id : BlockId} (held : bounds.holds (.block id) = true) :
    id.index < session.blocks.size :=
  of_decide_eq_true (within.holds_own held)

theorem heldObject {id : ObjectId} (held : bounds.holds (.object id) = true) :
    id.index < session.objects.size :=
  of_decide_eq_true (within.holds_own held)

/-- The bounds of a session that is within bounds are its own. -/
theorem coveredOwn : session.CoveredBy (session.bounds bounds.exprs) := by
  rw [within.sized]
  exact within.covered

/-- The module around a held scope is held. -/
theorem heldModuleOf {scope : ScopeId} {module : ModuleId}
    (held : bounds.holds scope.handle = true) (isModule : session.moduleOf? scope = some module) :
    bounds.holds (.module module) = true := by
  rw [← within.sized] at held ⊢
  exact within.coveredOwn.moduleOf? held isModule

theorem setModule (id : ModuleId) {module : Module}
    (covers : bounds.Covers module.handles) : (session.setModule id module).Within bounds where
  sized := by rw [Session.setModule, bounds_modifyModule, within.sized]
  prelude := within.prelude
  covered := within.covered.setModule id covers

theorem modifyStruct (id : StructId) {change : Struct → Struct}
    (covers : bounds.Covers (change (session.structAt id)).handles) :
    (session.modifyStruct id change).Within bounds where
  sized := by rw [bounds_modifyStruct, within.sized]
  prelude := within.prelude
  covered := within.covered.modifyStruct id fun _ => covers

theorem setStruct (id : StructId) (covers : bounds.Covers struct.handles) :
    (session.setStruct id struct).Within bounds :=
  within.modifyStruct id covers

theorem edit (edited : (session.structAt id).Edited bounds struct) :
    (session.setStruct id struct).Within bounds :=
  within.setStruct id (edited.covers (within.covered.structAt id))

theorem takeStruct {module : ModuleId} (held : bounds.holds (.module module) = true)
    (heldStruct : bounds.holds (.struct id) = true) :
    (session.takeStruct module id).Within bounds where
  sized := by rw [bounds_modifyStruct, Session.setModule, bounds_modifyModule, within.sized]
  prelude := within.prelude
  covered := within.covered.takeStruct held heldStruct

/-- The block may belong to another function already. -/
theorem attachBlock {func : FuncId} {block : BlockId} (role : BlockRole)
    (heldFunc : bounds.holds (.func func) = true)
    (heldBlock : bounds.holds (.block block) = true) :
    (session.attachBlock func role block).Within bounds where
  sized := by rw [Session.attachBlock, bounds_modifyFunc, bounds_modifyBlock, within.sized]
  prelude := within.prelude
  covered := within.covered.attachBlock role heldFunc heldBlock

/-- An event that allocates nothing leaves the bounds as they are. -/
theorem event {after : Session} (event : Event (fun _ => True) bounds.exprs session after)
    (same : after.bounds bounds.exprs = session.bounds bounds.exprs) : after.Within bounds where
  sized := same.trans within.sized
  prelude := within.prelude
  covered := by
    rw [← within.sized, ← same]
    exact event.coveredBy within.coveredOwn

end Within

end Session

/-! ## Registration -/

namespace Edit

open Session (Within)

variable {bounds : Bounds} {module : ModuleId} {session : Session}

theorem editsModule_within (prelude : 3 ≤ bounds.structs)
    (held : bounds.holds (.module module) = true) : EditsModule bounds module (Within bounds) where
  own := held
  prelude := fun _ member => decide_eq_true (Nat.lt_of_lt_of_le (Prelude.index_lt member) prelude)
  edit := fun within edited =>
    within.setModule module (edited.covers (within.covered.moduleAt module))

section Module

variable (held : bounds.holds (.module module) = true) {id : StructId}

include held

theorem addConstant_within {constant : Constant} (covered : bounds.Covers constant.ty.handles) :
    Keeps (Within bounds) (addConstant module constant) := by
  refine addConstant_keeps fun within added => ?_
  obtain ⟨constant, installs⟩ := Module.installs_of_added added
  have string : bounds.holds (.struct Prelude.string) = true :=
    (editsModule_within within.prelude held).prelude _ (by decide)
  exact within.setModule module
    (installs.covers string held covered (within.covered.moduleAt module))

theorem addGlobal_within {global : Global} (covered : bounds.Covers global.ty.handles) :
    Keeps (Within bounds) (addGlobal module global) :=
  changeModule_keeps fun within changed => within.setModule module
    (Module.covers_addGlobal held covered (within.covered.moduleAt module) changed)

theorem describeStruct_within (heldStruct : bounds.holds (.struct id) = true) :
    Keeps (Within bounds) (describeStruct module id) := by
  intro session within
  refine describeStruct_keeps (fun {session struct} within done => ?_)
    (fun struct => (editsModule_within within.prelude held).annotateStruct struct id) session within
  refine within.edit (Struct.sealWith_edited heldStruct ?_ done)
  rw [Target.wordType, Ty.handles_ofName]
  exact Bounds.covers_nil

theorem addStruct_within (heldStruct : bounds.holds (.struct id) = true) :
    Keeps (Within bounds) (addStruct module id) :=
  addStruct_keeps (fun within _ => within.takeStruct held heldStruct)
    (describeStruct_within held heldStruct)

theorem addObject_within {id : ObjectId} (heldObject : bounds.holds (.object id) = true) :
    Keeps (Within bounds) (addObject module id) := by
  refine addObject_keeps fun within _ => ?_
  refine within.event (.takeObject module id (within.heldModule held)
    (within.heldObject heldObject) trivial trivial) ?_
  rw [Session.bounds_modifyObject, Session.setModule, Session.bounds_modifyModule]

theorem addFunc_within {id : FuncId} (heldFunc : bounds.holds (.func id) = true) :
    Keeps (Within bounds) (addFunc module id) := by
  intro session within
  cases taken : (session.moduleAt module).func? (session.funcAt id).name with
  | some other =>
    rw [addFunc_refused taken]
    exact within
  | none =>
    rw [addFunc_taken taken]
    have listed : Within bounds (session.takeFunc module id) := by
      refine within.event (.takeFunc module id (within.heldModule held)
        (within.heldFunc heldFunc) trivial trivial) ?_
      rw [Session.bounds_modifyFunc, Session.setModule, Session.bounds_modifyModule]
    have covers : bounds.Covers (session.funcAt id).handles :=
      within.covered.funcs _ (getD_mem (within.heldFunc heldFunc))
    obtain ⟨inbound, outbound, blocks, _⟩ := Func.covers_handles.mp covers
    refine (addStruct_within held inbound).bind (fun _ => ?_) _ listed
    refine (addStruct_within held outbound).bind fun _ => .forM fun block isBlock => ?_
    refine .get_bind fun state within => ?_
    have heldBlock := within.heldBlock (blocks block isBlock)
    obtain ⟨vars, _⟩ := Block.covers_handles.mp (within.covered.blocks _ (getD_mem heldBlock))
    exact describeStruct_within held vars state within

theorem installPrelude_within : Keeps (Within bounds) (installPrelude module) := by
  intro session within
  have edits := editsModule_within within.prelude held
  exact Keeps.bind (.forM fun id isPrelude => addStruct_within held (edits.prelude id isPrelude))
    (fun _ => .forM fun kind _ => edits.describeKind kind) session within

end Module

end Edit

/-! ## Binding -/

namespace Session

variable {bounds : Bounds} {session : Session} {module : ModuleId} {block : BlockId}

theorem lastsBinding_within (id : StructId) : LastsBinding id (Within bounds) where
  table := fun within owner isModule => by
    obtain ⟨owners, _⟩ := Struct.covers_handles.mp (within.covered.structAt id)
    exact (Edit.editsModule_within within.prelude
      (within.heldModuleOf (owners _ owner) isModule)).addAttrTable _ _ within
  types := fun {session} scope within => by
    obtain ⟨owners, slots⟩ := Struct.covers_handles.mp (within.covered.structAt id)
    refine within.setStruct id (Struct.covers_handles.mpr ⟨owners, ?_⟩)
    have bound := bindMemberTypes_covers within.coveredOwn scope (session.structAt id)
      (within.sized.symm ▸ slots)
    rwa [within.sized] at bound
  mark := fun within => within.modifyStruct id (within.covered.structAt id)

/-! ## Expressions of variables -/

theorem Closed.setInit (closed : session.Closed) (held : block.index < session.blocks.size)
    (name : String) (expr : ExprId) :
    (session.modifyBlock block fun state => state.setInit name expr).Closed := by
  obtain ⟨exprs, within⟩ := closed
  -- There may be more expressions than were known of so far.
  have grows := session.bounds_le (Nat.le_max_left exprs (expr.index + 1))
  have wider : session.Within (session.bounds (max exprs (expr.index + 1))) :=
    ⟨rfl, within.prelude, within.covered.mono grows⟩
  refine ⟨max exprs (expr.index + 1), ?_⟩
  rw [bounds_modifyBlock]
  refine wider.event (.setInit block name expr held trivial ?_) (bounds_modifyBlock ..)
  exact Nat.lt_of_lt_of_le (Nat.lt_succ_self _) (Nat.le_max_right _ _)

theorem Closed.foldBlock (closed : session.Closed) (arena : Arena)
    (held : block.index < session.blocks.size) :
    (session.foldBlock arena block).session.Closed ∧
      (session.foldBlock arena block).session.bounds 0 = session.bounds 0 := by
  refine foldBlock_keeps (motive := fun later => later.Closed ∧ later.bounds 0 = session.bounds 0)
    (fun _ kept => ?_) ⟨closed, rfl⟩ arena
  have stillHeld := Nat.lt_of_lt_of_eq held (congrArg Bounds.blocks kept.2).symm
  exact ⟨kept.1.setInit stillHeld _ _, (bounds_modifyBlock ..).trans kept.2⟩

end Session

/-! ## Operations -/

namespace Operation

open Session (ofTarget Within Closed)

variable {session after : Session} {operation : Operation} {operations : List Operation}

def types : Operation → List Ty
  | .addMember _ _ ty | .addInbound _ _ ty | .addOutbound _ _ ty | .addLocal _ _ ty => [ty]
  | .addConstant _ constant => [constant.ty]
  | .addGlobal _ global => [global.ty]
  | _ => []

/-- Not only the definitions that an operation is about have been allocated, but also those that its
types are about. -/
def Grounded (session : Session) (operation : Operation) : Prop :=
  operation.Allocated session ∧ (session.bounds 0).Covers (operation.types.flatMap Ty.handles)

instance (session : Session) (operation : Operation) : Decidable (operation.Grounded session) :=
  inferInstanceAs (Decidable (_ ∧ _))

def GroundedAll (session : Session) : List Operation → Prop
  | [] => True
  | operation :: rest => operation.Grounded session ∧ GroundedAll (operation.run session) rest

instance decidableGroundedAll :
    ∀ (session : Session) (operations : List Operation), Decidable (GroundedAll session operations)
  | _, [] => inferInstanceAs (Decidable True)
  | session, operation :: rest =>
      have := decidableGroundedAll (operation.run session) rest
      inferInstanceAs (Decidable (_ ∧ _))

theorem GroundedAll.allocatedAll (grounded : GroundedAll session operations) :
    AllocatedAll session operations := by
  induction operations generalizing session with
  | nil => trivial
  | cons operation rest ih =>
    exact ⟨grounded.1.1, ih grounded.2⟩

def allocates : Operation → Bool
  | .newModule _ _ | .newStruct _ _ _ | .newFunc _ _ | .newBlock _ _ | .newObject _ _ => true
  | _ => false

/-- A larger session with a new definition in it. -/
theorem closed_of_event (closed : session.Closed)
    (event : ∀ exprs, Session.Event (fun _ => True) exprs session after) : after.Closed := by
  obtain ⟨exprs, within⟩ := closed
  have grows := (event exprs).persists.bounds exprs
  exact ⟨exprs, rfl, Nat.le_trans within.prelude grows.structs,
    (event exprs).coveredBy within.covered⟩

theorem closed_of_within {exprs : Nat} (within : after.Within (session.bounds exprs)) :
    after.Closed ∧ after.bounds 0 = session.bounds 0 := by
  have sized : after.bounds exprs = session.bounds exprs := within.sized
  refine ⟨⟨exprs, sized ▸ within⟩, ?_⟩
  injection sized with modules structs funcs blocks objects
  rw [Session.bounds, modules, structs, funcs, blocks, objects]
  rfl

/-- What is no allocation keeps every handle within the arenas, and the arenas at their sizes. -/
theorem run_closed_of_not_allocates (closed : session.Closed)
    (grounded : operation.Grounded session) (existing : operation.allocates = false) :
    (operation.run session).Closed ∧ (operation.run session).bounds 0 = session.bounds 0 := by
  obtain ⟨exprs, within⟩ := closed
  have wider := session.bounds_le (Nat.zero_le exprs)
  have held := grounded.1.mono wider
  have typed := Bounds.covers_flatMap.mp (grounded.2.mono wider)
  have declares : ∀ ty ∈ operation.types, ∀ {state : Session} {id name struct},
      state.Within (session.bounds exprs) → (state.structAt id).addMember name ty = .ok struct →
        (state.setStruct id struct).Within (session.bounds exprs) :=
    fun ty member _ _ _ _ within added => within.edit (Struct.addMember_edited (typed ty member) added)
  cases operation with
  | newModule name loc => cases existing
  | newStruct name loc packed => cases existing
  | newFunc name loc => cases existing
  | newBlock name? loc => cases existing
  | newObject name loc => cases existing
  | addMember struct name ty =>
    exact closed_of_within (Edit.addMember_keeps (declares ty (by simp [types])) session within)
  | addInbound func name ty =>
    exact closed_of_within (Edit.addInbound_keeps (declares ty (by simp [types])) func session within)
  | addOutbound func name ty =>
    exact closed_of_within
      (Edit.addOutbound_keeps (declares ty (by simp [types])) func session within)
  | addLocal block name ty =>
    exact closed_of_within (Edit.addLocal_keeps (declares ty (by simp [types])) block session within)
  | addImport module imported =>
    exact closed_of_within ((Edit.editsModule_within within.prelude
      (held (.module module) (by simp [handles]))).addImport (held _ (by simp [handles]))
      session within)
  | addStruct module struct =>
    exact closed_of_within (Edit.addStruct_within (held (.module module) (by simp [handles]))
      (held (.struct struct) (by simp [handles])) session within)
  | addObject module object =>
    exact closed_of_within (Edit.addObject_within (held (.module module) (by simp [handles]))
      (held (.object object) (by simp [handles])) session within)
  | addFunc module func =>
    exact closed_of_within (Edit.addFunc_within (held (.module module) (by simp [handles]))
      (held (.func func) (by simp [handles])) session within)
  | addConstant module constant =>
    exact closed_of_within (Edit.addConstant_within (held (.module module) (by simp [handles]))
      (typed constant.ty (by simp [types])) session within)
  | addGlobal module global =>
    exact closed_of_within (Edit.addGlobal_within (held (.module module) (by simp [handles]))
      (typed global.ty (by simp [types])) session within)
  | findString module text loc =>
    exact closed_of_within ((Edit.editsModule_within within.prelude
      (held (.module module) (by simp [handles]))).findString text loc session within)
  | intern module text =>
    have same := (session.moduleAt module).intern_sameLists text
    exact closed_of_within (within.setModule module (same.covers (within.covered.moduleAt module)))
  | installPrelude module =>
    exact closed_of_within (Edit.installPrelude_within (held (.module module) (by simp [handles]))
      session within)
  | attachBlock func role block =>
    exact closed_of_within (within.attachBlock role (held (.func func) (by simp [handles]))
      (held (.block block) (by simp [handles])))
  | setInit block name expr =>
    have heldBlock := of_decide_eq_true (held (.block block) (by simp [handles]))
    change ((Edit.setInit block name expr).run.run session).2.Closed ∧
      ((Edit.setInit block name expr).run.run session).2.bounds 0 = session.bounds 0
    rw [Edit.setInit, run_get_bind]
    split
    · exact ⟨⟨exprs, within⟩, rfl⟩
    · exact ⟨Session.Closed.setInit ⟨exprs, within⟩ heldBlock name expr,
        Session.bounds_modifyBlock ..⟩
  | foldBlock block arena =>
    have heldBlock := of_decide_eq_true (held (.block block) (by simp [handles]))
    exact Session.Closed.foldBlock ⟨exprs, within⟩ arena heldBlock
  | bindStruct struct => exact closed_of_within ((Session.lastsBinding_within struct).bindStruct within)
  | bindModule module log =>
    exact closed_of_within
      (Session.LastsBinding.bindStructs Session.lastsBinding_within within _ _ _)

theorem run_newBlock (session : Session) (name? : Option String) (loc : Location) :
    run session (.newBlock name? loc) =
      { session with
        structs := session.structs.push
          { name := name?.getD (Session.unnamedBlock loc)
            loc := loc
            owner := some (.block ⟨session.blocks.size⟩) }
        blocks := session.blocks.push
          { own := ⟨session.blocks.size⟩
            name := name?.getD (Session.unnamedBlock loc)
            loc := loc
            vars := ⟨session.structs.size⟩ } } :=
  congrArg Prod.snd (Session.allocBlock_run (name?.getD (Session.unnamedBlock loc)) loc session)

theorem run_closed (closed : session.Closed) (grounded : operation.Grounded session) :
    (operation.run session).Closed := by
  cases operation with
  | newModule name loc => exact closed_of_event closed fun _ => .declareModule name loc
  | newStruct name loc packed => exact closed_of_event closed fun _ => .allocStruct name loc packed
  | newFunc name loc =>
    rw [run, Session.allocFunc_run]
    exact closed_of_event closed fun _ => .allocFunc name loc
  | newBlock name? loc =>
    rw [run_newBlock]
    exact closed_of_event closed fun _ => .allocBlock _ loc
  | newObject name loc => exact closed_of_event closed fun _ => .allocObject name loc
  | _ => exact (run_closed_of_not_allocates closed grounded rfl).1

theorem closed_ofTarget (target : Target) : (ofTarget target).Closed :=
  ⟨0, rfl, Nat.le_refl 3, (Session.integral_ofTarget target).covered⟩

theorem runAll_closed (closed : session.Closed) (grounded : GroundedAll session operations) :
    (runAll session operations).Closed := by
  induction operations generalizing session with
  | nil => exact closed
  | cons operation rest ih =>
    exact ih (run_closed closed grounded.1) grounded.2

end Operation

/-! ## Scopes and their names -/

theorem map_modify {α β : Type} [Inhabited α] {items : Array α} {place : Nat} {change : α → α}
    {label : α → β}
    (same : label (change ((items[place]?).getD default)) = label ((items[place]?).getD default)) :
    (items.modify place change).toList.map label = items.toList.map label := by
  apply List.ext_getElem?
  intro index
  simp only [List.getElem?_map, Array.getElem?_toList, Array.getElem?_modify]
  split
  · next isPlace =>
    subst isPlace
    cases found : items[place]? with
    | none => rfl
    | some item => simpa [found] using same
  · rfl

namespace Session

variable {strict : Prop} {phase : Phase} {session before after : Session}

def numbered (scope : Nat → ScopeId) (names : List String) : List (ScopeId × String) :=
  names.mapIdx fun index name => (scope index, name)

theorem numbered_push {α : Type} (scope : Nat → ScopeId) (items : Array α) (item : α)
    (label : α → String) : numbered scope ((items.push item).toList.map label) =
      numbered scope (items.toList.map label) ++ [(scope items.size, label item)] := by
  simp [numbered, List.mapIdx_concat]

/-- The scopes of a session under their numbers, with the names they were given. -/
def roster (session : Session) : List (ScopeId × String) :=
  numbered (fun index => .module ⟨index⟩) (session.modules.toList.map Module.name) ++
    numbered (fun index => .func ⟨index⟩) (session.funcs.toList.map Func.name) ++
    numbered (fun index => .block ⟨index⟩) (session.blocks.toList.map Block.name)

theorem roster_pushModule (session : Session) (module : Module) :
    ({ session with modules := session.modules.push module } : Session).roster.Perm
      (session.roster ++ [(.module ⟨session.modules.size⟩, module.name)]) := by
  simp only [roster, numbered_push, List.append_assoc]
  apply List.Perm.append_left
  rw [← List.append_assoc _ _ [_]]
  exact List.perm_append_comm

theorem roster_pushFunc (session : Session) (structs : Array Struct) (func : Func) :
    ({ session with structs := structs, funcs := session.funcs.push func } : Session).roster.Perm
      (session.roster ++ [(.func ⟨session.funcs.size⟩, func.name)]) := by
  simp only [roster, numbered_push, List.append_assoc]
  apply List.Perm.append_left
  apply List.Perm.append_left
  exact List.perm_append_comm

theorem roster_pushBlock (session : Session) (structs : Array Struct) (block : Block) :
    ({ session with structs := structs, blocks := session.blocks.push block } : Session).roster =
      session.roster ++ [(.block ⟨session.blocks.size⟩, block.name)] := by
  simp only [roster, numbered_push, List.append_assoc]

/-- Scopes are added behind others, and none is renamed. -/
structure KeepsNames (before after : Session) : Prop where
  modules : before.modules.toList.map Module.name <+: after.modules.toList.map Module.name
  funcs : before.funcs.toList.map Func.name <+: after.funcs.toList.map Func.name
  blocks : before.blocks.toList.map Block.name <+: after.blocks.toList.map Block.name

theorem KeepsNames.refl (session : Session) : session.KeepsNames session :=
  ⟨List.prefix_rfl, List.prefix_rfl, List.prefix_rfl⟩

theorem KeepsNames.trans {middle : Session} (first : before.KeepsNames middle)
    (second : middle.KeepsNames after) : before.KeepsNames after :=
  ⟨first.modules.trans second.modules, first.funcs.trans second.funcs,
    first.blocks.trans second.blocks⟩

/-- The arenas of scopes have not changed. -/
theorem KeepsNames.of_eq (modules : after.modules = before.modules)
    (funcs : after.funcs = before.funcs) (blocks : after.blocks = before.blocks) :
    before.KeepsNames after := by
  refine ⟨?_, ?_, ?_⟩
  · simp [modules]
  · simp [funcs]
  · simp [blocks]

theorem KeepsNames.modifyFunc (session : Session) (id : FuncId) {change : Func → Func}
    (same : (change (session.funcAt id)).name = (session.funcAt id).name) :
    session.KeepsNames (session.modifyFunc id change) :=
  ⟨List.prefix_rfl, (map_modify same).symm ▸ List.prefix_rfl, List.prefix_rfl⟩

theorem KeepsNames.modifyBlock (session : Session) (id : BlockId) {change : Block → Block}
    (same : (change (session.blockAt id)).name = (session.blockAt id).name) :
    session.KeepsNames (session.modifyBlock id change) :=
  ⟨List.prefix_rfl, List.prefix_rfl, (map_modify same).symm ▸ List.prefix_rfl⟩

theorem KeepsNames.setModule (session : Session) (id : ModuleId) {module : Module}
    (same : module.name = (session.moduleAt id).name) :
    session.KeepsNames (session.setModule id module) := by
  have names : (session.modules.modify id.index fun _ => module).toList.map Module.name =
      session.modules.toList.map Module.name := map_modify same
  exact ⟨names.symm ▸ List.prefix_rfl, List.prefix_rfl, List.prefix_rfl⟩

theorem Alters.keepsNames (alters : Alters strict phase before after) : before.KeepsNames after := by
  cases alters with
  | pushModule name loc => exact ⟨by simp, List.prefix_rfl, List.prefix_rfl⟩
  | pushStruct name loc packed => exact .of_eq rfl rfl rfl
  | pushFunc name loc inbound outbound => exact ⟨List.prefix_rfl, by simp, List.prefix_rfl⟩
  | pushBlock name loc => exact ⟨List.prefix_rfl, List.prefix_rfl, by simp⟩
  | pushObject name loc => exact .of_eq rfl rfl rfl
  | module alters => exact .setModule before _ alters.upholds.name
  | addMember added => exact .of_eq rfl rfl rfl
  | @takeStruct _ module id held free own =>
    have listed : before.KeepsNames (before.setModule module { before.moduleAt module with
        structs := (before.moduleAt module).structs ++ [((before.structAt id).name, id)] }) :=
      .setModule before module rfl
    exact listed.trans (.of_eq rfl rfl rfl)
  | sealStruct id => exact .of_eq rfl rfl rfl
  | takeFunc held id => exact .modifyFunc before id rfl
  | takeObject module id => exact .of_eq rfl rfl rfl
  | attach func role block =>
    have attached : before.KeepsNames
        (before.modifyBlock block fun state => { state with parent := some (.func func) }) :=
      .modifyBlock before block rfl
    exact attached.trans (.modifyFunc _ func (by cases role <;> rfl))
  | setInit block name expr => exact .modifyBlock before block rfl
  | bindTypes id scope => exact .of_eq rfl rfl rfl
  | markBound owner home tabulated => exact .of_eq rfl rfl rfl

theorem Changes.keepsNames (changes : Changes strict phase before after) :
    before.KeepsNames after := by
  induction changes with
  | refl => exact .refl before
  | tail _ alters ih => exact ih.trans alters.keepsNames

/-- Where no scope is added the roster stays as it is. -/
theorem KeepsNames.roster_eq (keeps : before.KeepsNames after)
    (same : after.bounds 0 = before.bounds 0) : after.roster = before.roster := by
  have modules := keeps.modules.eq_of_length (by simpa [bounds] using (congrArg Bounds.modules same).symm)
  have funcs := keeps.funcs.eq_of_length (by simpa [bounds] using (congrArg Bounds.funcs same).symm)
  have blocks := keeps.blocks.eq_of_length (by simpa [bounds] using (congrArg Bounds.blocks same).symm)
  rw [roster, roster, modules, funcs, blocks]

end Session

namespace Operation

open Session (ofTarget Closed)

variable {session : Session} {operation : Operation} {operations : List Operation}

/-- The scope that an operation gives out, with the name it is to have. -/
def issued (session : Session) : Operation → List (ScopeId × String)
  | .newModule name loc => [(.module ((Session.allocModule name loc).run session).1, name)]
  | .newFunc name loc => [(.func ((Session.allocFunc name loc).run session).1, name)]
  | .newBlock name? loc =>
      [(.block ((Session.allocBlock name? loc).run session).1,
        name?.getD (Session.unnamedBlock loc))]
  | _ => []

def issuedAll (session : Session) : List Operation → List (ScopeId × String)
  | [] => []
  | operation :: rest => operation.issued session ++ issuedAll (operation.run session) rest

variable (consistent : session.Consistent) (closed : session.Closed)
include consistent closed

theorem run_roster_of_not_allocates (grounded : operation.Grounded session)
    (existing : operation.allocates = false) : (operation.run session).roster = session.roster :=
  (operation.changes consistent grounded.1).keepsNames.roster_eq
    (run_closed_of_not_allocates closed grounded existing).2

/-- A scope is given out under the number that it has from then on. -/
theorem run_roster (grounded : operation.Grounded session) :
    (operation.run session).roster.Perm (session.roster ++ operation.issued session) := by
  cases operation with
  | newModule name loc => exact session.roster_pushModule { own := ⟨session.modules.size⟩, name, loc }
  | newStruct name loc packed => exact .of_eq (List.append_nil _).symm
  | newFunc name loc =>
    rw [run, issued, Session.allocFunc_run]
    exact session.roster_pushFunc _ _
  | newBlock name? loc =>
    rw [run_newBlock]
    exact .of_eq (session.roster_pushBlock _ _)
  | newObject name loc => exact .of_eq (List.append_nil _).symm
  | _ =>
    rw [run_roster_of_not_allocates consistent closed grounded rfl]
    simp [issued]

/-- The scopes of a session are the ones that were given out, each under its number. -/
theorem runAll_roster (grounded : GroundedAll session operations) :
    (runAll session operations).roster.Perm (session.roster ++ issuedAll session operations) := by
  induction operations generalizing session with
  | nil => exact .of_eq (List.append_nil _).symm
  | cons operation rest ih =>
    have consistentNext := (operation.changes consistent grounded.1.1).consistent consistent
    have closedNext := run_closed closed grounded.1
    rw [issuedAll, ← List.append_assoc]
    exact (ih consistentNext closedNext grounded.2).trans
      ((run_roster consistent closed grounded.1).append_right _)

end Operation

/-! ## Owners of structs -/

namespace Session

variable {strict : Prop} {phase : Phase} {session before after : Session} {id : StructId}

theorem Changes.owner_ne_func (changes : Changes strict phase before after)
    (free : ∀ func, (before.structAt id).owner ≠ some (.func func)) (func : FuncId) :
    (after.structAt id).owner ≠ some (.func func) := by
  induction changes generalizing func with
  | refl => exact free func
  | tail _ alters ih =>
    intro owner
    rcases (alters.structStep id).owner owner with isOld | ⟨block, isBlock⟩ | ⟨module, isModule, _⟩
    · exact ih func isOld
    · cases isBlock
    · cases isModule

/-- A struct belongs to nothing, to a module or to a block. -/
theorem Reachable.owner_ne_func (reachable : session.Reachable) (id : StructId) (func : FuncId) :
    (session.structAt id).owner ≠ some (.func func) := by
  obtain ⟨target, reaches⟩ := reachable
  refine (reaches.keeps
    (motive := fun session => ∀ func, (session.structAt id).owner ≠ some (.func func))
    (consistent_ofTarget target) (fun operation still allocated free =>
      (operation.changes still allocated).owner_ne_func free) (fun other owner => ?_)).2 func
  rw [(structAt_ofTarget target id).1] at owner
  cases owner

end Session

end Assay
