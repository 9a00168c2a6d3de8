import Assay.Proofs.Scope.Outline
import Mathlib.Data.List.Forall2

/-!
Contract: the smallest alterations that the operations on a session are made of.

Owns:
- what can happen to the definitions of a module, and what has to hold of an initializer that refers
  to other definitions of the module;
- what can happen to a session, in the phase of registration and in that of binding: registration
  marks no struct as bound, binding adds no member and moves no definition;
- what alterations do to the definition behind a handle.
-/

namespace Assay

/-! ## Modules -/

namespace Module

def Holds (module : Module) (name text : String) : Prop :=
  ∃ constant index, module.constant? name = some constant ∧ constant.ty.isString = true ∧
    constant.initializer = .stringIndex index ∧ module.strings[index]? = some text

/-- What the initializer of the definition `name` refers to is there: a place of the string table, or
the string constant that holds the name of the described type. -/
def Linked (module : Module) (name : String) : Initializer → Prop
  | .stringIndex index => index < module.strings.length
  | .typeInfo constant _ => ∃ text, module.Holds constant text ∧ name = text ++ "_type"
  | _ => True

/-- One alteration of a module. A `strict` one brings in sound constants and numbered globals only,
and no initializer that refers to what is not there. -/
inductive Alters (strict : Prop) (own : ModuleId) (module : Module) : Module → Prop
  | listImport {name : String} (imported : ModuleId) (free : module.import? name = none) :
      Alters strict own module { module with imports := module.imports ++ [(name, imported)] }
  | listObject {name : String} (id : ObjectId) (free : module.object? name = none) :
      Alters strict own module { module with objects := module.objects ++ [(name, id)] }
  | listFunc {name : String} (id : FuncId) (free : module.func? name = none) :
      Alters strict own module { module with funcs := module.funcs ++ [(name, id)] }
  | intern (text : String) : Alters strict own module (module.intern text).2
  | install (constant : Constant)
      (free : constant.name ≠ "" → module.hasConstant constant.name = false)
      (linked : strict → module.Linked constant.name constant.initializer)
      (sound : strict → ({ constant with ty := constantType constant.ty } : Constant).Sound) :
      Alters strict own module (module.install own constant).2
  | addGlobal (global : Global) (free : module.hasGlobal global.name = false)
      (linked : strict → module.Linked global.name global.initializer)
      (numbered : strict → global.Numbered) :
      Alters strict own module (module.pushGlobal { global with owner := some own })

theorem Alters.own {strict : Prop} {own : ModuleId} {before after : Module}
    (alters : before.Alters strict own after) : after.own = before.own := by
  cases alters with
  | intern text => exact (before.intern_sameLists text).own
  | install constant free =>
    obtain ⟨_, installs⟩ := before.install_installs own constant free
    exact installs.annotated.own
  | _ => rfl

end Module

/-- The name is that of a description of a type. -/
def NamesType (name : String) : Prop :=
  ∃ text, name = text ++ "_type"

/-! ## Structs -/

def Struct.sealed (struct : Struct) (own : StructId) (word : Ty) : Struct :=
  ((struct.sealWith own word).toOption).getD struct

namespace Struct

/-- Sealing leaves a struct alone or appends the bookkeeping members. -/
theorem sealed_cases (struct : Struct) (own : StructId) (word : Ty) :
    struct.sealed own word = struct ∨ struct.sealWith own word = .ok (struct.sealed own word) := by
  rw [sealed]
  cases struct.sealWith own word with
  | error fault => exact .inl rfl
  | ok after => exact .inr rfl

theorem owner_sealed (struct : Struct) (own : StructId) (word : Ty) :
    (struct.sealed own word).owner = struct.owner := by
  rcases struct.sealed_cases own word with same | done
  · rw [same]
  · exact (sealWith_keeps done).2.2

end Struct

def Struct.takenBy (struct : Struct) (module : ModuleId) : Struct :=
  { struct with owner := struct.owner.or (some (.module module)) }

/-- The row describes the member, whose name it finds in the string table of the module. -/
structure AttrRow.Describes (module : Module) (row : AttrRow) (slot : Member) : Prop where
  member : row.member = slot.name
  flags : row.flags = slot.ty.flags
  typeInfo : row.typeInfo = slot.ty.infoName
  name : module.Holds row.name slot.name

/-! ## Sessions -/

inductive Phase where
  | registration
  | binding
deriving DecidableEq, Repr

namespace Session

/-- The struct has a definite type for each member, and the module around it holds the table of its
members under the name of the struct. -/
structure Tabulated (session : Session) (id : StructId) (module : ModuleId) (rows : List AttrRow) :
    Prop where
  table : ∃ global, (session.moduleAt module).global? (attrTableName (session.structAt id).name) =
    some global ∧ global.initializer = .attrTable rows
  described : List.Forall₂ (AttrRow.Describes (session.moduleAt module)) rows
    (session.structAt id).members
  definite : ∀ member ∈ (session.structAt id).members, member.ty.isUnresolved = false

/-- A struct is of the runtime, or is held and belongs to the module if to anything. -/
def Takeable (module : ModuleId) (id : StructId) (session : Session) : Prop :=
  id ∈ Prelude.structIds ∨ id.index < session.structs.size ∧
    ∀ scope, (session.structAt id).owner = some scope → scope = .module module

/-- One alteration of a session. A `strict` one adds no module, lets a module take structs of the
runtime and structs of its own only, and adds no globals in registration but descriptions of types. -/
inductive Alters (strict : Prop) : Phase → Session → Session → Prop
  | pushModule {session : Session} (lenient : ¬ strict) (name : String) (loc : Location) :
      Alters strict .registration session
        { session with
          modules := session.modules.push
            { own := ⟨session.modules.size⟩, name := name, loc := loc } }
  | pushStruct {session : Session} (name : String) (loc : Location) (packed : Bool) :
      Alters strict .registration session
        { session with
          structs := session.structs.push { name := name, loc := loc, packed := packed } }
  | pushFunc {session : Session} (name : String) (loc : Location) (inbound outbound : StructId) :
      Alters strict .registration session
        { session with
          funcs := session.funcs.push
            { own := ⟨session.funcs.size⟩
              name := name
              loc := loc
              inbound := inbound
              outbound := outbound } }
  | pushBlock {session : Session} (name : String) (loc : Location) :
      Alters strict .registration session
        { session with
          structs := session.structs.push
            { name := name, loc := loc, owner := some (.block ⟨session.blocks.size⟩) }
          blocks := session.blocks.push
            { own := ⟨session.blocks.size⟩
              name := name
              loc := loc
              vars := ⟨session.structs.size⟩ } }
  | pushObject {session : Session} (name : String) (loc : Location) :
      Alters strict .registration session
        { session with objects := session.objects.push { name := name, loc := loc } }
  | module {phase : Phase} {session : Session} {id : ModuleId} {module : Module}
      (alters : (session.moduleAt id).Alters strict id module)
      (described : strict → phase = .registration → ∀ name ∈ module.globalTable.map Prod.fst,
        name ∈ (session.moduleAt id).globalTable.map Prod.fst ∨ NamesType name) :
      Alters strict phase session (session.setModule id module)
  | addMember {session : Session} {id : StructId} {name : String} {ty : Ty} {struct : Struct}
      (added : (session.structAt id).addMember name ty = .ok struct) :
      Alters strict .registration session (session.setStruct id struct)
  | takeStruct {session : Session} {module : ModuleId} {id : StructId}
      (held : module.index < session.modules.size)
      (free : (session.moduleAt module).struct? (session.structAt id).name = none)
      (own : strict → session.Takeable module id) :
      Alters strict .registration session
        ((session.setModule module { session.moduleAt module with
            structs := (session.moduleAt module).structs ++
              [((session.structAt id).name, id)] }).setStruct id
          (((session.structAt id).takenBy module).sealed id
            (session.target.wordType (session.structAt id).loc)))
  | sealStruct {session : Session} (id : StructId) :
      Alters strict .registration session (session.setStruct id ((session.structAt id).sealed id
        (session.target.wordType (session.structAt id).loc)))
  | takeFunc {session : Session} {module : ModuleId} (held : module.index < session.modules.size)
      (id : FuncId) :
      Alters strict .registration session
        (session.modifyFunc id fun func => { func with parent := some (.module module) })
  | takeObject {session : Session} (module : ModuleId) (id : ObjectId) :
      Alters strict .registration session
        (session.modifyObject id fun object => { object with owner := some module })
  | attach {session : Session} (func : FuncId) (role : BlockRole) (block : BlockId) :
      Alters strict .registration session (session.attachBlock func role block)
  | setInit {session : Session} (block : BlockId) (name : String) (expr : ExprId) :
      Alters strict .registration session
        (session.modifyBlock block fun state => state.setInit name expr)
  | bindTypes {session : Session} (id : StructId) (scope : ScopeId) :
      Alters strict .binding session (session.setStruct id { session.structAt id with
        members := (session.bindMemberTypes scope (session.structAt id)
          (session.structAt id).members).1 })
  | markBound {session : Session} {id : StructId} {scope : ScopeId} {module : ModuleId}
      {rows : List AttrRow} (owner : (session.structAt id).owner = some scope)
      (home : session.moduleOf? scope = some module)
      (tabulated : session.Tabulated id module rows) :
      Alters strict .binding session
        (session.setStruct id { session.structAt id with isBound := true })

/-- An alteration of a module that leaves its globals as they are. -/
theorem Alters.of_globals {strict : Prop} {phase : Phase} {session : Session} {id : ModuleId}
    {module : Module} (alters : (session.moduleAt id).Alters strict id module)
    (same : module.globalTable = (session.moduleAt id).globalTable) :
    Alters strict phase session (session.setModule id module) :=
  .module alters fun _ _ _ member => .inl (same ▸ member)

abbrev Changes (strict : Prop) (phase : Phase) : Session → Session → Prop :=
  Relation.ReflTransGen (Alters strict phase)

/-! ## One definition -/

variable {strict : Prop} {phase : Phase} {session before after : Session} {id : StructId}
  {struct : Struct} {scope : ScopeId}

theorem held_of_owner (owner : (session.structAt id).owner = some scope) :
    id.index < session.structs.size := by
  by_contra unheld
  rw [structAt, Array.getElem?_eq_none (Nat.le_of_not_lt unheld)] at owner
  cases owner

/-- What one alteration can make of the struct behind a handle. -/
inductive StructStep (session : Session) (id : StructId) : Phase → Struct → Prop
  | kept {phase : Phase} : StructStep session id phase (session.structAt id)
  | fresh (unheld : ¬ id.index < session.structs.size) (name : String) (loc : Location)
      (packed : Bool) (block? : Option BlockId) :
      StructStep session id .registration
        { name := name, loc := loc, packed := packed, owner := block?.map .block }
  | addMember {name : String} {ty : Ty} {struct : Struct}
      (added : (session.structAt id).addMember name ty = .ok struct) :
      StructStep session id .registration struct
  | taken {module : ModuleId} (held : module.index < session.modules.size) (word : Ty) :
      StructStep session id .registration (((session.structAt id).takenBy module).sealed id word)
  | sealed (word : Ty) :
      StructStep session id .registration ((session.structAt id).sealed id word)
  | bindTypes (scope : ScopeId) :
      StructStep session id .binding { session.structAt id with
        members := (session.bindMemberTypes scope (session.structAt id)
          (session.structAt id).members).1 }
  | markBound (owned : (session.structAt id).owner ≠ none) :
      StructStep session id .binding { session.structAt id with isBound := true }

theorem StructStep.push (name : String) (loc : Location) (packed : Bool) (block? : Option BlockId) :
    StructStep session id .registration (((session.structs.push
      { name := name, loc := loc, packed := packed, owner := block?.map .block })[id.index]?).getD
        default) := by
  by_cases held : id.index < session.structs.size
  · rw [getD_push held]
    exact .kept
  · rcases getD_push_cases session.structs
      { name := name, loc := loc, packed := packed, owner := block?.map .block } id.index
      with same | new
    · rw [same]
      exact .kept
    · rw [new]
      exact .fresh held name loc packed block?

theorem StructStep.set {other : StructId} (same : after.structs = session.structs)
    (step : StructStep session other phase struct) :
    StructStep session id phase ((after.setStruct other struct).structAt id) := by
  rw [structAt_setStruct]
  split
  · next isOther => exact isOther.1 ▸ step
  · rw [structAt, same]
    exact .kept

theorem Alters.structStep (alters : Alters strict phase before after) (id : StructId) :
    StructStep before id phase (after.structAt id) := by
  cases alters with
  | pushStruct name loc packed => exact .push name loc packed none
  | pushBlock name loc => exact .push name loc false (some _)
  | addMember added => exact .set rfl (.addMember added)
  | takeStruct held free own => exact .set rfl (.taken held _)
  | sealStruct other => exact .set rfl (.sealed _)
  | bindTypes other scope => exact .set rfl (.bindTypes scope)
  | markBound owner home tabulated => exact .set rfl (.markBound (by simp [owner]))
  | _ => exact .kept

/-- Structs are given to new blocks and to modules. -/
theorem StructStep.owner (step : StructStep session id phase struct)
    (owner : struct.owner = some scope) :
    (session.structAt id).owner = some scope ∨ (∃ block, scope = .block block) ∨
      ∃ module, scope = .module module ∧ module.index < session.modules.size := by
  cases step with
  | fresh unheld name loc packed block? =>
    obtain ⟨block, _, rfl⟩ := Option.map_eq_some_iff.mp owner
    exact .inr (.inl ⟨block, rfl⟩)
  | addMember added =>
    obtain ⟨_, _, _, _, rfl⟩ := Struct.addMember_ok added
    exact .inl owner
  | @taken module held word =>
    rw [Struct.owner_sealed] at owner
    rcases Option.or_eq_some_iff.mp owner with isOld | ⟨_, isNew⟩
    · exact .inl isOld
    · cases isNew
      exact .inr (.inr ⟨module, rfl, held⟩)
  | sealed word =>
    rw [Struct.owner_sealed] at owner
    exact .inl owner
  | _ => exact .inl owner

/-- Types are looked up without a struct being moved, sealed or extended. -/
theorem StructStep.binding_same (step : StructStep session id .binding struct) :
    struct.owner = (session.structAt id).owner ∧
      struct.members.length = (session.structAt id).members.length ∧
      struct.isSealed = (session.structAt id).isSealed := by
  cases step with
  | kept => exact ⟨rfl, rfl, rfl⟩
  | bindTypes scope =>
    have names := session.bindMemberTypes_names scope (session.structAt id)
      (session.structAt id).members
    exact ⟨rfl, by simpa using congrArg List.length names, rfl⟩
  | markBound owned => exact ⟨rfl, rfl, rfl⟩

/-- Functions are given to modules. -/
theorem Alters.parent_funcAt {func : FuncId} {around : ScopeId}
    (alters : Alters strict phase before after) (parent : (after.funcAt func).parent = some around) :
    (before.funcAt func).parent = some around ∨
      ∃ module, around = .module module ∧ module.index < before.modules.size := by
  cases alters with
  | pushFunc name loc inbound outbound =>
    rw [funcAt] at parent
    rcases getD_push_cases before.funcs { own := ⟨before.funcs.size⟩, name, loc, inbound, outbound }
      func.index with same | new
    · rw [same] at parent
      exact .inl parent
    · rw [new] at parent
      cases parent
  | @takeFunc _ module held id =>
    rw [funcAt_modifyFunc] at parent
    split at parent
    · cases parent
      exact .inr ⟨module, rfl, held⟩
    · exact .inl parent
  | attach id role block =>
    rw [attachBlock, funcAt_modifyFunc] at parent
    split at parent
    · cases role <;> exact .inl parent
    · exact .inl parent
  | _ => exact .inl parent

theorem Alters.nested (alters : Alters strict phase before after) (nested : before.Nested) :
    after.Nested := by
  cases alters with
  | pushFunc name loc inbound outbound => exact nested.pushFunc rfl rfl rfl
  | pushBlock name loc => exact nested.pushBlock rfl rfl rfl
  | @takeFunc _ module held id => exact nested.modifyFunc id fun _ => .inr ⟨module, rfl⟩
  | attach func role block => exact nested.attachBlock func role block
  | setInit block name expr =>
    exact nested.modifyBlock block fun _ => .inl rfl
  | _ => exact ⟨nested.funcs, nested.blocks⟩

/-- What holds of new modules, and is kept as one is altered or lists structs, holds of all modules. -/
theorem Alters.forall_moduleAt {inv : Module → Prop} (alters : Alters strict phase before after)
    (fresh : ¬ strict → ∀ own name loc, inv { own, name, loc })
    (altered : ∀ id module, (before.moduleAt id).Alters strict id module → inv module)
    (listed : ∀ {module : Module} structs, inv module → inv { module with structs := structs })
    (all : ∀ id, inv (before.moduleAt id)) (id : ModuleId) : inv (after.moduleAt id) := by
  have set : ∀ {own : ModuleId} {module : Module}, inv module →
      inv ((before.setModule own module).moduleAt id) := by
    intro own module holds
    rw [moduleAt_setModule]
    split
    · exact holds
    · exact all id
  cases alters with
  | pushModule lenient name loc =>
    rcases getD_push_cases before.modules { own := ⟨before.modules.size⟩, name, loc } id.index
      with same | new
    · rw [moduleAt, same]
      exact all id
    · rw [moduleAt, new]
      exact fresh lenient _ name loc
  | module alters => exact set (altered _ _ alters)
  | takeStruct held free own => exact set (listed _ (all _))
  | _ => exact all id

/-! ## The numbers of scopes -/

def Numbers {α β : Type} (own : α → β) (handle : Nat → β) (items : Array α) : Prop :=
  ∀ place item, items[place]? = some item → own item = handle place

/-- Every scope knows the handle that it was allocated under. -/
structure Numbered (session : Session) : Prop where
  modules : Numbers Module.own ModuleId.mk session.modules
  funcs : Numbers Func.own FuncId.mk session.funcs
  blocks : Numbers Block.own BlockId.mk session.blocks

namespace Numbers

variable {α β : Type} {items : Array α} {own : α → β} {handle : Nat → β}

theorem push (numbers : Numbers own handle items) {new : α} (isNext : own new = handle items.size) :
    Numbers own handle (items.push new) := by
  intro place item found
  rw [Array.getElem?_push] at found
  split at found
  · next last =>
    cases found
    exact last ▸ isNext
  · exact numbers place item found

theorem modify (numbers : Numbers own handle items) (changed : Nat) {change : α → α}
    (keeps : ∀ item, items[changed]? = some item → own (change item) = own item) :
    Numbers own handle (items.modify changed change) := by
  intro place item found
  rw [Array.getElem?_modify] at found
  split at found
  · next same =>
    subst same
    obtain ⟨old, isOld, rfl⟩ := Option.map_eq_some_iff.mp found
    exact (keeps old isOld).trans (numbers changed old isOld)
  · exact numbers place item found

end Numbers

theorem Numbered.setModule (numbered : session.Numbered) {id : ModuleId} {module : Module}
    (same : module.own = (session.moduleAt id).own) : (session.setModule id module).Numbered := by
  refine ⟨numbered.modules.modify id.index fun old isOld => ?_, numbered.funcs, numbered.blocks⟩
  rw [same, moduleAt, isOld]
  rfl

theorem Alters.numbered (alters : Alters strict phase before after) (numbered : before.Numbered) :
    after.Numbered := by
  have ⟨modules, funcs, blocks⟩ := numbered
  cases alters with
  | pushModule lenient name loc => exact ⟨modules.push rfl, funcs, blocks⟩
  | pushFunc name loc inbound outbound => exact ⟨modules, funcs.push rfl, blocks⟩
  | pushBlock name loc => exact ⟨modules, funcs, blocks.push rfl⟩
  | module alters => exact numbered.setModule alters.own
  | @takeStruct _ module id held free own =>
    have listed : (before.setModule module { before.moduleAt module with
        structs := (before.moduleAt module).structs ++ [((before.structAt id).name, id)] }).Numbered :=
      numbered.setModule rfl
    exact ⟨listed.modules, funcs, blocks⟩
  | takeFunc held id => exact ⟨modules, funcs.modify id.index fun _ _ => rfl, blocks⟩
  | attach func role block =>
    exact ⟨modules, funcs.modify func.index fun _ _ => by cases role <;> rfl,
      blocks.modify block.index fun _ _ => rfl⟩
  | setInit block name expr =>
    exact ⟨modules, funcs, blocks.modify block.index fun _ _ => rfl⟩
  | _ => exact ⟨modules, funcs, blocks⟩

end Session

end Assay
