import Assay.Proofs.Scope.BindingSteps
import Assay.Proofs.Scope.Views
import Mathlib.Data.List.Basic

/-!
Contract: edits and binding in a session that holds more than another one.
-/

namespace Assay

open Assay.Computation

namespace Session

variable {first second : Session} {rel : Session → Session → Prop} {module : ModuleId}

/-- Related sessions hold the same module, and stay related when it is changed in both. -/
structure Shares (rel : Session → Session → Prop) (module : ModuleId) : Prop where
  same : ∀ {first second}, rel first second → second.moduleAt module = first.moduleAt module
  kept : ∀ {first second}, rel first second → ∀ changed,
    rel (first.setModule module changed) (second.setModule module changed)

end Session

/-! ## Edits of one module -/

namespace Edit

open Session (Shares)

variable {α : Type} {rel : Session → Session → Prop} {module : ModuleId}

abbrev Mirrored (rel : Session → Session → Prop) (edit : Edit α) : Prop :=
  Stopping.Mirrors rel id edit edit

theorem ofExcept_mirrored (outcome : Except Fault α) : Mirrored rel (ofExcept outcome) := by
  cases outcome <;> exact fun _ _ related => ⟨rfl, related⟩

variable (shares : Shares rel module)
include shares

theorem changeModule_mirrored (change : Module → Except Fault Module) :
    Mirrored rel (changeModule module change) := by
  refine .get_bind fun first second related => ?_
  rw [shares.same related]
  exact (ofExcept_mirrored _).bind fun changed => .modify fun _ _ still => shares.kept still changed

theorem addGlobal_mirrored (global : Global) : Mirrored rel (addGlobal module global) :=
  changeModule_mirrored shares _

theorem addConstant_mirrored (constant : Constant) :
    Mirrored rel (addConstant module constant) := by
  refine .get_bind fun first second related => ?_
  rw [shares.same related]
  exact (ofExcept_mirrored _).bind fun named =>
    (Stopping.Mirrors.modify fun _ _ still => shares.kept still named.2).bind fun _ => .pure id named.1

theorem findString_mirrored (text : String) (loc : Location) :
    Mirrors rel id (findString module text loc) (findString module text loc) := by
  intro first second related
  rw [findString_run, findString_run, shares.same related]
  exact ⟨rfl, shares.kept related _⟩

end Edit

/-! ## Sessions with further modules -/

namespace Session

variable {count : Nat} {first second : Session}

/-- The second session has modules beyond the first `count`, which list no functions, and is otherwise
the first one. -/
structure Beside (count : Nat) (first second : Session) : Prop where
  size : first.modules.size = count
  large : count ≤ second.modules.size
  target : second.target = first.target
  structs : second.structs = first.structs
  funcs : second.funcs = first.funcs
  blocks : second.blocks = first.blocks
  objects : second.objects = first.objects
  modules : ∀ id : ModuleId, id.index < count → second.moduleAt id = first.moduleAt id
  bare : ∀ id : ModuleId, count ≤ id.index → (second.moduleAt id).funcs = []

namespace Beside

section

variable (beside : Beside count first second)
include beside

theorem structAt (id : StructId) : second.structAt id = first.structAt id := by
  rw [Session.structAt, Session.structAt, beside.structs]

theorem funcAt (id : FuncId) : second.funcAt id = first.funcAt id := by
  rw [Session.funcAt, Session.funcAt, beside.funcs]

theorem blockAt (id : BlockId) : second.blockAt id = first.blockAt id := by
  rw [Session.blockAt, Session.blockAt, beside.blocks]

theorem objectAt (id : ObjectId) : second.objectAt id = first.objectAt id := by
  rw [Session.objectAt, Session.objectAt, beside.objects]

end

variable {module : ModuleId}

theorem shares (held : module.index < count) : Shares (Beside count) module where
  same := fun beside => beside.modules module held
  kept := fun {first second} beside changed =>
    { beside with
      size := Array.size_modify.trans beside.size
      large := Nat.le_trans beside.large (Nat.le_of_eq Array.size_modify.symm)
      modules := fun id isOld => getD_modify_congr (fun _ => changed) (beside.size ▸ isOld)
        (beside.size ▸ beside.large) (beside.modules id isOld)
      bare := fun id beyond => by
        have different : module ≠ id := fun same => Nat.not_lt.mpr beyond (same ▸ held)
        rw [moduleAt_setModule, if_neg fun both => different both.1]
        exact beside.bare id beyond }

section

variable (beside : Beside count first second)
include beside

/-- A further module may be changed as long as it lists no functions. -/
theorem setModule_beyond (beyond : count ≤ module.index) (changed : Module)
    (bare : changed.funcs = []) : Beside count first (second.setModule module changed) :=
  { beside with
    large := Nat.le_trans beside.large (Nat.le_of_eq Array.size_modify.symm)
    modules := fun id isOld => by
      have different : module ≠ id := fun same => Nat.not_lt.mpr beyond (same ▸ isOld)
      rw [moduleAt_setModule, if_neg fun both => different both.1]
      exact beside.modules id isOld
    bare := fun id isBeyond => by
      rw [moduleAt_setModule]
      split
      · exact bare
      · exact beside.bare id isBeyond }

theorem annotates (beyond : count ≤ module.index) {after : Session}
    (annotates : second.Annotates module after) :
    Beside count first after where
  size := beside.size
  large := Nat.le_trans beside.large (Nat.le_of_eq annotates.size.symm)
  target := annotates.target.trans beside.target
  structs := annotates.structs.trans beside.structs
  funcs := annotates.funcs.trans beside.funcs
  blocks := annotates.blocks.trans beside.blocks
  objects := annotates.objects.trans beside.objects
  modules := fun id isOld => by
    have different : id ≠ module := fun same => Nat.not_lt.mpr beyond (same ▸ isOld)
    exact (annotates.others id different).trans (beside.modules id isOld)
  bare := fun id isBeyond => by
    by_cases same : id = module
    · subst same
      exact annotates.own.funcs.trans (beside.bare id isBeyond)
    · rw [annotates.others id same]
      exact beside.bare id isBeyond

theorem modifyStruct (id : StructId) (change : Struct → Struct) :
    Beside count (first.modifyStruct id change) (second.modifyStruct id change) :=
  { beside with structs := congrArg (fun structs => structs.modify id.index change) beside.structs }

theorem modifyFunc (id : FuncId) (change : Func → Func) :
    Beside count (first.modifyFunc id change) (second.modifyFunc id change) :=
  { beside with funcs := congrArg (fun funcs => funcs.modify id.index change) beside.funcs }

theorem modifyBlock (id : BlockId) (change : Block → Block) :
    Beside count (first.modifyBlock id change) (second.modifyBlock id change) :=
  { beside with blocks := congrArg (fun blocks => blocks.modify id.index change) beside.blocks }

theorem modifyObject (id : ObjectId) (change : Object → Object) :
    Beside count (first.modifyObject id change) (second.modifyObject id change) :=
  { beside with objects := congrArg (fun objects => objects.modify id.index change) beside.objects }

end

/-- A module without functions is added after those that a session has. -/
theorem pushModule (session : Session) (module : Module) (bare : module.funcs = []) :
    Beside session.modules.size session { session with modules := session.modules.push module } where
  size := rfl
  large := Nat.le_trans (Nat.le_succ _) (Nat.le_of_eq (Array.size_push module).symm)
  target := rfl
  structs := rfl
  funcs := rfl
  blocks := rfl
  objects := rfl
  modules := fun id held => getD_push held module
  bare := fun id beyond => by
    rw [moduleAt, Array.getElem?_push]
    split
    · exact bare
    · rw [Array.getElem?_eq_none beyond]
      rfl

section

variable (beside : Beside count first second)
include beside

theorem attachBlock (func : FuncId) (role : BlockRole) (block : BlockId) :
    Beside count (first.attachBlock func role block) (second.attachBlock func role block) :=
  (beside.modifyBlock block _).modifyFunc func _

theorem «extends» : first.Extends second where
  target := beside.target
  bounds := fun exprs => by
    constructor <;>
      simp [bounds, beside.structs, beside.funcs, beside.blocks, beside.objects, beside.size, beside.large]
  modules := fun id held _ => beside.modules id (Nat.lt_of_lt_of_eq held beside.size)
  structs := fun id _ _ => beside.structAt id
  funcs := fun id _ _ => beside.funcAt id
  blocks := fun id _ _ => beside.blockAt id
  objects := fun id _ _ => beside.objectAt id

end

/-! Allocation -/

variable (name : String) (loc : Location)
include name loc

theorem allocObject :
    Mirrors (Beside count) id (Session.allocObject name loc) (Session.allocObject name loc) := by
  intro first second beside
  exact ⟨congrArg (fun objects : Array Object => (⟨objects.size⟩ : ObjectId)) beside.objects,
    { beside with objects := show second.objects.push _ = first.objects.push _ by rw [beside.objects] }⟩

theorem allocStruct (packed : Bool) :
    Mirrors (Beside count) id (Session.allocStruct name loc packed)
      (Session.allocStruct name loc packed) := by
  intro first second beside
  exact ⟨congrArg (fun structs : Array Struct => (⟨structs.size⟩ : StructId)) beside.structs,
    { beside with structs := show second.structs.push _ = first.structs.push _ by rw [beside.structs] }⟩

theorem allocFunc :
    Mirrors (Beside count) id (Session.allocFunc name loc) (Session.allocFunc name loc) := by
  refine Mirrors.bind (allocStruct _ loc false) fun inbound => ?_
  refine Mirrors.bind (allocStruct _ loc false) fun outbound first second beside => ?_
  exact ⟨congrArg (fun funcs : Array Func => (⟨funcs.size⟩ : FuncId)) beside.funcs,
    { beside with funcs := show second.funcs.push _ = first.funcs.push _ by rw [beside.funcs]; rfl }⟩

theorem allocBlock :
    Mirrors (Beside count) id (Session.allocBlock (some name) loc)
      (Session.allocBlock (some name) loc) := by
  intro first second beside
  rw [allocBlock_run, allocBlock_run, beside.structs, beside.blocks]
  exact ⟨rfl, { beside with
    structs := rfl
    blocks := rfl }⟩

end Beside

end Session

namespace Edit

open Session (Beside)

variable {count : Nat} {first : Session} {module : ModuleId} {struct : StructId}

theorem changeStruct_mirrored (id : StructId) (change : Struct → Except Fault Struct) :
    Mirrored (Beside count) (changeStruct id change) := by
  refine .get_bind fun first second beside => ?_
  rw [beside.structAt]
  exact (ofExcept_mirrored _).bind fun changed => .modify fun _ _ still => still.modifyStruct id _

theorem addMember_mirrored (struct : StructId) (name : String) (ty : Ty) :
    Mirrored (Beside count) (addMember struct name ty) := by
  refine .get_bind fun first second beside => ?_
  rw [beside.structAt]
  exact (changeStruct_mirrored struct _).bind fun _ => .pure id _

theorem addParameter_mirrored (func : FuncId) (params : StructId) (name : String) (ty : Ty) :
    Mirrored (Beside count) (addParameter func params name ty) := by
  refine .get_bind fun first second beside => ?_
  have same : hasParameter second func name = hasParameter first func name := by
    rw [hasParameter, hasParameter, beside.funcAt, beside.structAt, beside.structAt]
  rw [same]
  split
  · refine .get_bind fun first second beside => ?_
    rw [beside.funcAt]
    have stops : Mirrored (Beside count)
        (throw (.duplicateParameter (first.funcAt func).name name) : Edit Unit) :=
      fun _ _ still => ⟨rfl, still⟩
    exact stops.bind fun _ => addMember_mirrored params name ty
  · exact addMember_mirrored params name ty

theorem addInbound_mirrored (func : FuncId) (name : String) (ty : Ty) :
    Mirrored (Beside count) (addInbound func name ty) := by
  refine .get_bind fun first second beside => ?_
  rw [beside.funcAt]
  exact addParameter_mirrored func _ name ty

theorem addOutbound_mirrored (func : FuncId) (name : String) (ty : Ty) :
    Mirrored (Beside count) (addOutbound func name ty) := by
  refine .get_bind fun first second beside => ?_
  rw [beside.funcAt]
  exact addParameter_mirrored func _ name ty

theorem addLocal_mirrored (block : BlockId) (name : String) (ty : Ty) :
    Mirrored (Beside count) (addLocal block name ty) := by
  refine .get_bind fun first second beside => ?_
  rw [beside.blockAt]
  exact addMember_mirrored _ name ty

section

variable (held : module.index < count)
include held

theorem addImport_mirrored {imported : ModuleId} (heldImport : imported.index < count) :
    Mirrored (Beside count) (addImport module imported) := by
  refine .get_bind fun first second beside => ?_
  rw [beside.modules _ heldImport]
  exact changeModule_mirrored (Beside.shares held) _

theorem describeStruct_mirrored (struct : StructId) :
    Mirrored (Beside count) (describeStruct module struct) := by
  refine .get_bind fun first second beside => ?_
  rw [beside.structAt]
  refine .get_bind fun first second beside => ?_
  rw [beside.target]
  refine (changeStruct_mirrored struct _).bind fun _ => .get_bind fun first second beside => ?_
  rw [beside.modules _ held]
  split
  · exact .pure id _
  · exact (addConstant_mirrored (Beside.shares held) _).bind fun _ =>
      addGlobal_mirrored (Beside.shares held) _

theorem addStruct_mirrored (id : StructId) : Mirrored (Beside count) (addStruct module id) := by
  refine .get_bind fun first second beside => ?_
  rw [beside.structAt]
  refine (changeModule_mirrored (Beside.shares held) _).bind fun _ => ?_
  refine (Stopping.Mirrors.modify fun _ _ still => still.modifyStruct id _).bind fun _ => ?_
  exact describeStruct_mirrored held id

theorem addObject_mirrored (id : ObjectId) : Mirrored (Beside count) (addObject module id) := by
  refine .get_bind fun first second beside => ?_
  rw [beside.objectAt]
  refine (changeModule_mirrored (Beside.shares held) _).bind fun _ => ?_
  exact .modify fun _ _ still => still.modifyObject id _

theorem addFunc_mirrored (id : FuncId) : Mirrored (Beside count) (addFunc module id) := by
  refine .get_bind fun first second beside => ?_
  rw [beside.funcAt]
  refine (changeModule_mirrored (Beside.shares held) _).bind fun _ => ?_
  refine (Stopping.Mirrors.modify fun _ _ still => still.modifyFunc id _).bind fun _ => ?_
  refine (addStruct_mirrored held _).bind fun _ => (addStruct_mirrored held _).bind fun _ => ?_
  refine .forM fun block _ => .get_bind fun first second beside => ?_
  rw [beside.blockAt]
  exact describeStruct_mirrored held _

end

/-! A further module takes imports and the runtime structs. -/

variable (beyond : count ≤ module.index)
include beyond

theorem addImport_beyond (imported : ModuleId) :
    Stopping.Keeps (Beside count first) (addImport module imported) := by
  refine .get_bind fun session => changeModule_keeps (fun {session after} beside added => ?_) session
  refine beside.setModule_beyond beyond after ?_
  unfold Module.addImport at added
  split at added <;> cases added
  exact beside.bare module beyond

theorem annotate_beyond {edit : Edit Unit}
    (annotates : ∀ base : Session, Stopping.Keeps (Session.Annotates module base) edit) :
    Stopping.Keeps (Beside count first) edit :=
  fun session beside => beside.annotates beyond (annotates session session (.refl module session))

/-- A struct that is sealed is described only. -/
theorem describeStruct_beyond (isSealed : (first.structAt struct).isSealed = true) :
    Stopping.Keeps (Beside count first) (describeStruct module struct) := by
  intro session beside
  have sealing : (session.structAt struct).sealWith struct
      (session.target.wordType (session.structAt struct).loc) = .ok (session.structAt struct) := by
    rw [Struct.sealWith, beside.structAt struct, if_pos isSealed]
  change Beside count first ((describeStruct module struct).run.run session).2
  rw [describeStruct_sealed sealing, Session.setStruct_self]
  exact annotate_beyond beyond (fun base => annotateStruct_annotates _ struct) session beside

/-- A struct that has an owner and is sealed is listed and described. -/
theorem addStruct_beyond (isOwned : (first.structAt struct).owner.isSome = true)
    (isSealed : (first.structAt struct).isSealed = true) :
    Stopping.Keeps (Beside count first) (addStruct module struct) := by
  refine addStruct_keeps (fun {session} beside _ => ?_) (describeStruct_beyond beyond isSealed)
  obtain ⟨scope, owner⟩ := Option.isSome_iff_exists.mp isOwned
  have taking := beside.setModule_beyond beyond { session.moduleAt module with
    structs := (session.moduleAt module).structs ++
      [((session.structAt struct).name, struct)] } (beside.bare module beyond)
  rw [Session.takeStruct, Session.modifyStruct_eq_setStruct, taking.structAt,
    Struct.or_owner owner, ← taking.structAt, Session.setStruct_self]
  exact taking

theorem installPrelude_beyond (stocked : ∀ id ∈ Prelude.structIds, (first.structAt id).owner.isSome = true ∧
      (first.structAt id).isSealed = true) :
    Stopping.Keeps (Beside count first) (installPrelude module) := by
  refine Stopping.Keeps.bind (.forM fun id member => ?_) fun _ => .forM fun kind _ => ?_
  · exact addStruct_beyond beyond (stocked id member).1 (stocked id member).2
  · exact annotate_beyond beyond fun base => describeKind_annotates kind

end Edit

/-! ## Sessions with further definitions -/

namespace Session

variable {may : Handle → Prop} {exprs : Nat} {scope : ScopeId} {first second : Session}
  {module : ModuleId} {rel : Session → Session → Prop}

namespace Spares

/-! The same change in both sessions -/

variable (spares : first.Spares may second)
include spares

theorem both_setModule (id : ModuleId) (changed : Module) :
    (first.setModule id changed).Spares may (second.setModule id changed) :=
  { spares with
    bounds := fun exprs => by
      simpa only [Session.setModule, bounds_modifyModule] using spares.bounds exprs
    modules := fun other held spared => by
      have held : other.index < first.modules.size := Nat.lt_of_lt_of_eq held Array.size_modify
      exact getD_modify_congr (fun _ => changed) held (spares.bounds 0).modules
        (spares.modules other held spared) }

theorem both_modifyStruct (id : StructId) (change : Struct → Struct) :
    (first.modifyStruct id change).Spares may (second.modifyStruct id change) :=
  { spares with
    bounds := fun exprs => by simpa only [bounds_modifyStruct] using spares.bounds exprs
    structs := fun other held spared => by
      have held : other.index < first.structs.size := Nat.lt_of_lt_of_eq held Array.size_modify
      exact getD_modify_congr change held (spares.bounds 0).structs
        (spares.structs other held spared) }

theorem both_modifyBlock (id : BlockId) (change : Block → Block) :
    (first.modifyBlock id change).Spares may (second.modifyBlock id change) :=
  { spares with
    bounds := fun exprs => by simpa only [bounds_modifyBlock] using spares.bounds exprs
    blocks := fun other held spared => by
      have held : other.index < first.blocks.size := Nat.lt_of_lt_of_eq held Array.size_modify
      exact getD_modify_congr change held (spares.bounds 0).blocks
        (spares.blocks other held spared) }

end Spares

/-! ## Binding -/

/-- Every definition of the first session is one of the second, and the module is one of them. -/
def ExtendsWith (module : ModuleId) (first second : Session) : Prop :=
  first.Extends second ∧ module.index < first.modules.size

theorem shares_extendsWith (module : ModuleId) : Shares (ExtendsWith module) module where
  same := fun grown => grown.1.modules module grown.2 False.elim
  kept := fun grown changed => ⟨grown.1.both_setModule module changed, by
    simpa [setModule, modifyModule] using grown.2⟩

theorem attrRows_mirrored (shares : Shares rel module) (members : List Member) :
    Mirrors rel id (attrRows module members) (attrRows module members) := by
  induction members with
  | nil => exact .pure id []
  | cons member rest ih =>
    exact Mirrors.bind (Edit.findString_mirrored shares _ _) fun _ =>
      Mirrors.bind ih fun _ => Mirrors.pure id _

theorem addAttrTable_mirrored (shares : Shares rel module) (struct : Struct) :
    Edit.Mirrored rel (addAttrTable module struct) :=
  (Stopping.Mirrors.lift (attrRows_mirrored shares struct.members)).bind fun _ =>
    Edit.addGlobal_mirrored shares _

theorem bindMemberTypes_congr (view : SameView scope first second) (struct : Struct)
    (members : List Member) :
    second.bindMemberTypes scope struct members = first.bindMemberTypes scope struct members := by
  induction members with
  | nil => rfl
  | cons member rest ih =>
    rw [bindMemberTypes, bindMemberTypes, view.type, ih]

/-- Binding has come to the same in two sessions, the second of which has the definitions of the
first. -/
structure Bound.Alike (first second : Bound) : Prop where
  session : first.session.Extends second.session
  entries : second.entries = first.entries
  ok : second.ok = first.ok

theorem Bound.Alike.noting {bound other : Bound} (alike : bound.Alike other) (note : Entry) :
    ({ bound with entries := note :: bound.entries } : Bound).Alike
      { other with entries := note :: other.entries } :=
  ⟨alike.session, congrArg (List.cons note) alike.entries, alike.ok⟩

theorem finishBinding_alike (grown : first.Extends second) {struct : StructId}
    (held : struct.index < first.structs.size)
    (around : second.moduleOf? scope = first.moduleOf? scope)
    (home : ∀ module, first.moduleOf? scope = some module → module.index < first.modules.size) :
    (first.finishBinding struct scope).Alike (second.finishBinding struct scope) := by
  rw [finishBinding, finishBinding, around, grown.structs struct held False.elim]
  cases isHome : first.moduleOf? scope with
  | none => exact ⟨grown, rfl, rfl⟩
  | some module =>
    have mirrors := addAttrTable_mirrored (shares_extendsWith module) (first.structAt struct) first
      second ⟨grown, home module isHome⟩
    change ((addAttrTable module (first.structAt struct)).run.run second).1 =
        Except.map id ((addAttrTable module (first.structAt struct)).run.run first).1 ∧
      ExtendsWith module ((addAttrTable module (first.structAt struct)).run.run first).2
        ((addAttrTable module (first.structAt struct)).run.run second).2 at mirrors
    dsimp only
    generalize (addAttrTable module (first.structAt struct)).run.run first = outcome at mirrors ⊢
    generalize (addAttrTable module (first.structAt struct)).run.run second = shown at mirrors ⊢
    obtain ⟨result, after⟩ := outcome
    obtain ⟨resultShown, afterShown⟩ := shown
    obtain ⟨same, stillGrown, _⟩ := mirrors
    cases same
    cases result with
    | error fault => exact ⟨stillGrown, rfl, rfl⟩
    | ok value => exact ⟨stillGrown.both_modifyStruct struct _, rfl, rfl⟩

variable (grown : first.Extends second) (integral : first.Integral exprs)
include grown integral

theorem bindStruct_alike {id : StructId} (held : id.index < first.structs.size) :
    (first.bindStruct id).Alike (second.bindStruct id) := by
  rw [bindStruct, bindStruct, grown.structs id held False.elim]
  dsimp only
  split
  · exact ⟨grown, rfl, rfl⟩
  · cases owner : (first.structAt id).owner with
    | none => exact ⟨grown, rfl, rfl⟩
    | some scope =>
      obtain ⟨owners, _⟩ := Struct.covers_handles.mp (integral.covered.structAt id)
      have heldScope := owners scope owner
      have view := grown.sameView onlyBlocks_none integral.covered integral.nested heldScope not_false
      dsimp only
      rw [bindMemberTypes_congr view]
      split
      · refine (finishBinding_alike (grown.both_modifyStruct id _) ?_ ?_ ?_).noting _
        · simpa [modifyStruct] using held
        · rw [moduleOf?_modifyStruct, moduleOf?_modifyStruct]
          exact grown.moduleOf? onlyBlocks_none integral.covered integral.nested heldScope not_false
        · intro module isHome
          rw [moduleOf?_modifyStruct] at isHome
          exact of_decide_eq_true (integral.covered.moduleOf? heldScope isHome)
      · exact ⟨grown.both_modifyStruct id _, rfl, rfl⟩

/-- The logs may differ: the two bindings go on for the same messages. -/
theorem bindStructs_extends (prelude : 3 ≤ first.structs.size) {ids : List StructId}
    (held : ∀ id ∈ ids, id.index < first.structs.size) (log shown : Log) :
    (bindStructs (log.counts .internal) ids first log).session.Extends
      (bindStructs (shown.counts .internal) ids second shown).session := by
  induction ids generalizing first second log shown with
  | nil => exact grown
  | cons id ids ih =>
    obtain ⟨heldFirst, heldRest⟩ := List.forall_mem_cons.mp held
    have alike := bindStruct_alike grown integral heldFirst
    have evolves : Evolves (fun _ => True) exprs first (first.bindStruct id).session :=
      bindStruct_evolves integral prelude heldFirst (.inr ⟨trivial, fun _ _ _ _ => trivial⟩)
    have size := (evolves.persists.bounds 0).structs
    cases internal : (first.bindStruct id).entries.any Entry.isInternal with
    | true =>
      rw [bindStructs, bindStructs]
      dsimp only
      rw [if_pos (Log.internal_lt_iff.mpr internal), alike.entries,
        if_pos (Log.internal_lt_iff.mpr internal)]
      exact alike.session
    | false =>
      rw [bindStructs_cons internal, bindStructs_cons (alike.entries ▸ internal)]
      exact ih alike.session (evolves.integral integral) (Nat.le_trans prelude size)
        (fun other member => Nat.lt_of_lt_of_le (heldRest other member) size) _ _

theorem pendingStructs_extends (held : module.index < first.modules.size) :
    second.pendingStructs module = first.pendingStructs module := by
  obtain ⟨_, _, _, funcs, _⟩ := Module.covers_handles.mp (integral.covered.moduleAt module)
  rw [pendingStructs, pendingStructs, grown.modules module held not_false]
  refine congrArg _ (List.flatMap_congr fun entry isEntry => ?_)
  have heldFunc := of_decide_eq_true (funcs entry isEntry)
  dsimp only
  rw [grown.funcs entry.2 heldFunc not_false]
  refine List.map_congr_left fun block isBlock => ?_
  obtain ⟨_, _, blocks, _⟩ := Func.covers_handles.mp (integral.covered.funcAt heldFunc)
  rw [grown.blocks block (of_decide_eq_true (blocks block isBlock)) not_false]

/-- The structs of a module of the first session are bound alike in the second. -/
theorem bindModule_extends (prelude : 3 ≤ first.structs.size)
    (held : module.index < first.modules.size) (log shown : Log) :
    (first.bindModule module log).session.Extends (second.bindModule module shown).session := by
  rw [bindModule, bindModule, pendingStructs_extends grown integral held]
  exact bindStructs_extends grown integral prelude (fun id member => (integral.pending member).1)
    log shown

end Session

end Assay
