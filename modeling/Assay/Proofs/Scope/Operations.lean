import Assay.Proofs.Check.Steps
import Assay.Proofs.Scope.Changes

/-!
Contract: the states that a session can get into, whatever its user does.
-/

namespace Assay

inductive Operation where
  | newModule (name : String) (loc : Location)
  | newStruct (name : String) (loc : Location) (packed : Bool)
  | newFunc (name : String) (loc : Location)
  | newBlock (name? : Option String) (loc : Location)
  | newObject (name : String) (loc : Location)
  | addMember (struct : StructId) (name : String) (ty : Ty)
  | addInbound (func : FuncId) (name : String) (ty : Ty)
  | addOutbound (func : FuncId) (name : String) (ty : Ty)
  | addLocal (block : BlockId) (name : String) (ty : Ty)
  | addImport (module imported : ModuleId)
  | addStruct (module : ModuleId) (struct : StructId)
  | addObject (module : ModuleId) (object : ObjectId)
  | addFunc (module : ModuleId) (func : FuncId)
  | addConstant (module : ModuleId) (constant : Constant)
  | addGlobal (module : ModuleId) (global : Global)
  | findString (module : ModuleId) (text : String) (loc : Location)
  | intern (module : ModuleId) (text : String)
  | installPrelude (module : ModuleId)
  | attachBlock (func : FuncId) (role : BlockRole) (block : BlockId)
  | setInit (block : BlockId) (name : String) (expr : ExprId)
  | foldBlock (block : BlockId) (arena : Arena)
  | bindStruct (struct : StructId)
  | bindModule (module : ModuleId) (log : Log := {})

namespace Operation

/-- The session that an operation leaves. What a refused operation did before its refusal stands. -/
def run (session : Session) : Operation → Session
  | .newModule name loc => ((Session.allocModule name loc).run session).2
  | .newStruct name loc packed => ((Session.allocStruct name loc packed).run session).2
  | .newFunc name loc => ((Session.allocFunc name loc).run session).2
  | .newBlock name? loc => ((Session.allocBlock name? loc).run session).2
  | .newObject name loc => ((Session.allocObject name loc).run session).2
  | .addMember struct name ty => ((Edit.addMember struct name ty).run.run session).2
  | .addInbound func name ty => ((Edit.addInbound func name ty).run.run session).2
  | .addOutbound func name ty => ((Edit.addOutbound func name ty).run.run session).2
  | .addLocal block name ty => ((Edit.addLocal block name ty).run.run session).2
  | .addImport module imported => ((Edit.addImport module imported).run.run session).2
  | .addStruct module struct => ((Edit.addStruct module struct).run.run session).2
  | .addObject module object => ((Edit.addObject module object).run.run session).2
  | .addFunc module func => ((Edit.addFunc module func).run.run session).2
  | .addConstant module constant => ((Edit.addConstant module constant).run.run session).2
  | .addGlobal module global => ((Edit.addGlobal module global).run.run session).2
  | .findString module text loc => ((Edit.findString module text loc).run session).2
  | .intern module text => session.setModule module ((session.moduleAt module).intern text).2
  | .installPrelude module => ((Edit.installPrelude module).run.run session).2
  | .attachBlock func role block => session.attachBlock func role block
  | .setInit block name expr => ((Edit.setInit block name expr).run.run session).2
  | .foldBlock block arena => (session.foldBlock arena block).session
  | .bindStruct struct => (session.bindStruct struct).session
  | .bindModule module log => (session.bindModule module log).session

def handles : Operation → List Handle
  | .newModule _ _ | .newStruct _ _ _ | .newFunc _ _ | .newBlock _ _ | .newObject _ _ => []
  | .addMember struct _ _ | .bindStruct struct => [.struct struct]
  | .addInbound func _ _ | .addOutbound func _ _ => [.func func]
  | .addLocal block _ _ | .setInit block _ _ | .foldBlock block _ => [.block block]
  | .addImport module imported => [.module module, .module imported]
  | .addStruct module struct => [.module module, .struct struct]
  | .addObject module object => [.module module, .object object]
  | .addFunc module func => [.module module, .func func]
  | .addConstant module _ | .addGlobal module _ | .findString module _ _ | .intern module _
  | .installPrelude module | .bindModule module _ => [.module module]
  | .attachBlock func _ block => [.func func, .block block]

/-- The definitions that an operation is about have been allocated. -/
def Allocated (session : Session) (operation : Operation) : Prop :=
  (session.bounds 0).Covers operation.handles

instance (session : Session) (operation : Operation) : Decidable (operation.Allocated session) :=
  inferInstanceAs (Decidable ((session.bounds 0).Covers operation.handles))

def runAll (session : Session) : List Operation → Session
  | [] => session
  | operation :: rest => runAll (operation.run session) rest

/-- Each operation is about definitions that have been allocated when its turn comes. -/
def AllocatedAll (session : Session) : List Operation → Prop
  | [] => True
  | operation :: rest => operation.Allocated session ∧ AllocatedAll (operation.run session) rest

instance decidableAllocatedAll :
    ∀ (session : Session) (operations : List Operation), Decidable (AllocatedAll session operations)
  | _, [] => inferInstanceAs (Decidable True)
  | session, operation :: rest =>
      have := decidableAllocatedAll (operation.run session) rest
      inferInstanceAs (Decidable (_ ∧ _))

/-- Binding is a phase of its own. -/
def phase : Operation → Phase
  | .bindStruct _ | .bindModule _ _ => .binding
  | _ => .registration

end Operation

namespace Session

def Reaches (before after : Session) : Prop :=
  ∃ operations, Operation.AllocatedAll before operations ∧
    Operation.runAll before operations = after

def Reachable (session : Session) : Prop :=
  ∃ target, (ofTarget target).Reaches session

/-! ## Operations as alterations -/

variable {strict : Prop} {session before after : Session}

theorem allocFunc_changes (session : Session) (name : String) (loc : Location) :
    Changes strict .registration session ((allocFunc name loc).run session).2 := by
  rw [allocFunc_run]
  exact ((Relation.ReflTransGen.single (.pushStruct (inboundName name) loc false)).tail
    (.pushStruct (outboundName name) loc false)).tail (.pushFunc name loc _ _)

theorem allocBlock_changes (session : Session) (name? : Option String) (loc : Location) :
    Changes strict .registration session ((allocBlock name? loc).run session).2 := by
  have isRun := congrArg Prod.snd (allocBlock_run (name?.getD (unnamedBlock loc)) loc session)
  exact isRun ▸ .single (.pushBlock _ loc)

theorem foldBlock_changes (session : Session) (arena : Arena) (block : BlockId) :
    Changes strict .registration session (session.foldBlock arena block).session := by
  exact foldBlock_keeps (motive := Changes strict .registration session)
    (fun _ changes => changes.tail (.setInit block _ _)) .refl arena

end Session

namespace Operation

open Session (Changes Reaches Reachable)

variable {session before after : Session} {operation : Operation} {operations : List Operation}

/-- What an operation does, it does by alterations in its phase. -/
theorem changes (consistent : session.Consistent) (allocated : operation.Allocated session) :
    Changes False operation.phase session (operation.run session) := by
  have held : ∀ handle ∈ operation.handles, (session.bounds 0).holds handle = true := allocated
  cases operation with
  | newModule name loc => exact .single (.pushModule False.elim name loc)
  | newStruct name loc packed => exact .single (.pushStruct name loc packed)
  | newFunc name loc => exact session.allocFunc_changes name loc
  | newBlock name? loc => exact session.allocBlock_changes name? loc
  | newObject name loc => exact .single (.pushObject name loc)
  | addMember struct name ty => exact Edit.addMember_keeps Edit.changes_addMember session .refl
  | addInbound func name ty =>
    exact Edit.addInbound_keeps Edit.changes_addMember func session .refl
  | addOutbound func name ty =>
    exact Edit.addOutbound_keeps Edit.changes_addMember func session .refl
  | addLocal block name ty =>
    exact Edit.addLocal_keeps Edit.changes_addMember block session .refl
  | addImport module imported => exact Edit.addImport_changes module imported session .refl
  | addStruct module struct =>
    have heldModule := held (.module module) (by simp [handles])
    exact Edit.addStruct_changes False.elim (of_decide_eq_true heldModule) False.elim
  | addObject module object => exact Edit.addObject_changes module object session .refl
  | addFunc module func =>
    have heldModule := held (.module module) (by simp [handles])
    exact Edit.addFunc_changes False.elim (of_decide_eq_true heldModule) False.elim
  | addConstant module constant => exact Edit.addConstant_changes False.elim constant session .refl
  | addGlobal module global => exact Edit.addGlobal_changes .refl False.elim False.elim False.elim
  | findString module text loc => exact Edit.findString_changes module text loc session .refl
  | intern module text => exact .single (.module (.intern text) False.elim)
  | installPrelude module =>
    have heldModule := held (.module module) (by simp [handles])
    exact Edit.installPrelude_changes consistent (of_decide_eq_true heldModule) session .refl
  | attachBlock func role block => exact .single (.attach func role block)
  | setInit block name expr => exact Edit.setInit_changes block name expr session .refl
  | foldBlock block arena => exact session.foldBlock_changes arena block
  | bindStruct struct => exact Session.bindStruct_changes consistent struct
  | bindModule module log => exact Session.bindStructs_changes consistent _ _ log

theorem runAll_append (session : Session) (earlier later : List Operation) :
    runAll session (earlier ++ later) = runAll (runAll session earlier) later := by
  induction earlier generalizing session with
  | nil => rfl
  | cons operation rest ih => exact ih (operation.run session)

theorem allocatedAll_append {earlier later : List Operation} :
    AllocatedAll session (earlier ++ later) ↔
      AllocatedAll session earlier ∧ AllocatedAll (runAll session earlier) later := by
  induction earlier generalizing session with
  | nil => exact (true_and _).symm ▸ Iff.rfl
  | cons operation rest ih =>
    exact (and_congr_right fun _ => ih).trans and_assoc.symm

end Operation

namespace Session

variable {session before after : Session}

/-- What operations keep in a consistent session. -/
theorem Reaches.keeps {motive : Session → Prop} (reaches : before.Reaches after)
    (consistent : before.Consistent)
    (step : ∀ {session} (operation : Operation), session.Consistent →
      operation.Allocated session → motive session → motive (operation.run session))
    (holds : motive before) : after.Consistent ∧ motive after := by
  obtain ⟨operations, allocated, rfl⟩ := reaches
  induction operations generalizing before with
  | nil => exact ⟨consistent, holds⟩
  | cons operation rest ih =>
    exact ih ((operation.changes consistent allocated.1).consistent consistent)
      (step operation consistent allocated.1 holds) allocated.2

theorem Reaches.consistent (reaches : before.Reaches after) (consistent : before.Consistent) :
    after.Consistent :=
  (reaches.keeps (motive := fun _ => True) consistent (fun _ _ _ _ => trivial) trivial).1

theorem Reaches.upholds (reaches : before.Reaches after) (consistent : before.Consistent) :
    before.Upholds after :=
  (reaches.keeps consistent (fun operation still allocated upholds =>
    upholds.trans (operation.changes still allocated).upholds) (.refl before)).2

theorem Reachable.consistent (reachable : session.Reachable) : session.Consistent := by
  obtain ⟨target, reaches⟩ := reachable
  exact reaches.consistent (consistent_ofTarget target)

/-! ## Main results -/

/-- Nothing once assigned moves or is overwritten. -/
theorem assigned_definitions_stay (reachable : before.Reachable) (reaches : before.Reaches after) :
    (∀ id : StructId, id.index < before.structs.size →
      (∀ name slot, (before.structAt id).idxOf? name = some slot →
        (after.structAt id).idxOf? name = some slot) ∧
      (∀ (slot : Nat) (member : Member), (before.structAt id).members[slot]? = some member →
        member.ty.isUnresolved = false → (after.structAt id).members[slot]? = some member) ∧
      (∀ scope, (before.structAt id).owner = some scope → (after.structAt id).owner = some scope) ∧
      ((before.structAt id).isSealed = true → (after.structAt id).isSealed = true) ∧
      ((before.structAt id).isBound = true → (after.structAt id).isBound = true)) ∧
    ∀ id : ModuleId, id.index < before.modules.size →
      (∀ name struct, (before.moduleAt id).struct? name = some struct →
        (after.moduleAt id).struct? name = some struct) ∧
      (∀ name func, (before.moduleAt id).func? name = some func →
        (after.moduleAt id).func? name = some func) ∧
      (∀ name object, (before.moduleAt id).object? name = some object →
        (after.moduleAt id).object? name = some object) ∧
      (∀ name imported, (before.moduleAt id).import? name = some imported →
        (after.moduleAt id).import? name = some imported) ∧
      (∀ name constant, (before.moduleAt id).constant? name = some constant →
        (after.moduleAt id).constant? name = some constant) ∧
      (∀ (place : Nat) constant, (before.moduleAt id).listedConstants[place]? = some constant →
        (after.moduleAt id).listedConstants[place]? = some constant) ∧
      (∀ name global, (before.moduleAt id).global? name = some global →
        (after.moduleAt id).global? name = some global) ∧
      (∀ (place : Nat) global, (before.moduleAt id).listedGlobals[place]? = some global →
        (after.moduleAt id).listedGlobals[place]? = some global) ∧
      ∀ (place : Nat) text, (before.moduleAt id).strings[place]? = some text →
        (after.moduleAt id).strings[place]? = some text := by
  have consistent := reachable.consistent
  have upholds := reaches.upholds consistent
  refine ⟨fun id held => ?_, fun id held => ?_⟩
  · have kept := upholds.structs id held
    exact ⟨fun _ _ => kept.idxOf?, fun _ _ found definite => kept.definite found definite,
      fun _ owner => kept.owner owner, kept.isSealed, kept.isBound⟩
  · have kept := upholds.modules id held
    have tabular := consistent.modules id
    have still := (reaches.consistent consistent).modules id
    rw [tabular.listedConstants, tabular.listedGlobals, still.listedConstants, still.listedGlobals]
    exact ⟨fun _ _ => kept.structs.lookup_eq_some, fun _ _ => kept.funcs.lookup_eq_some,
      fun _ _ => kept.objects.lookup_eq_some, fun _ _ => kept.imports.lookup_eq_some,
      fun _ _ => kept.constant?, fun _ _ => Module.Upholds.getElem? (kept.constantTable.map _),
      fun _ _ => kept.global?, fun _ _ => Module.Upholds.getElem? (kept.globalTable.map _),
      fun _ _ => Module.Upholds.getElem? kept.strings⟩

/-- A struct that a module has taken keeps its member, its name and its text through operations of
which the first is refused. -/
theorem assigned_definitions_stay_taken :
    let before := Operation.runAll (ofTarget {}) [.newModule "m" .builtin,
      .newStruct "Box" .builtin false, .addMember ⟨3⟩ "v" (.ofKind .uint8 .builtin),
      .addStruct ⟨0⟩ ⟨3⟩]
    let after := Operation.runAll before [.addMember ⟨3⟩ "w" (.ofKind .uint8 .builtin),
      .findString ⟨0⟩ "Box" .builtin, .bindModule ⟨0⟩]
    (after.structAt ⟨3⟩).idxOf? "v" = some 0 ∧ (after.structAt ⟨3⟩).isSealed = true ∧
      (after.moduleAt ⟨0⟩).struct? "Box" = some ⟨3⟩ ∧
      (after.moduleAt ⟨0⟩).strings[0]? = some "Box" := by
  intro before after
  have reachable : before.Reachable := ⟨{}, _, by decide +kernel, rfl⟩
  have reaches : before.Reaches after := ⟨_, by decide +kernel, rfl⟩
  have stay := assigned_definitions_stay reachable reaches
  obtain ⟨place, _, _, isSealed, _⟩ := stay.1 ⟨3⟩ (by decide +kernel)
  obtain ⟨struct, _, _, _, _, _, _, _, text⟩ := stay.2 ⟨0⟩ (by decide +kernel)
  exact ⟨place "v" 0 (by decide +kernel), isSealed (by decide +kernel),
    struct "Box" ⟨3⟩ (by decide +kernel), text 0 "Box" (by decide +kernel)⟩

/-- The tables of a module agree with each other, and the search for a text finds the one constant
that holds it. -/
theorem module_tables_agree (reachable : session.Reachable) (id : ModuleId)
    (held : id.index < session.modules.size) :
    let module := session.moduleAt id
    module.strings.Nodup ∧
    (∀ text index, module.stringIndex? text = some index ↔ module.strings[index]? = some text) ∧
    module.constantOrder.Nodup ∧ module.constantOrder = module.constantTable.map Prod.fst ∧
    (∀ entry ∈ module.constantTable, entry.2.name = entry.1) ∧
    module.globalOrder.Nodup ∧ module.globalOrder = module.globalTable.map Prod.fst ∧
    (∀ entry ∈ module.globalTable, entry.2.name = entry.1) ∧
    (∀ text name, module.stringConstant? text = some name → module.Holds name text) ∧
    ∀ text loc, let found := (Edit.findString id text loc).run session
      (found.2.moduleAt id).Holds found.1 text ∧
        ∀ later, (Edit.findString id text later).run found.2 = found := by
  have tabular := reachable.consistent.modules id
  refine ⟨tabular.nodup_strings, tabular.indexed, tabular.constants.distinct,
    tabular.constants.isOrder, tabular.constants.named, tabular.globals.distinct,
    tabular.globals.isOrder, tabular.globals.named,
    fun text name found => tabular.texts (text, name) (Table.mem_of_lookup found),
    fun text loc => ?_⟩
  rw [Edit.findString_run]
  dsimp only
  have isAfter : (session.setModule id ((session.moduleAt id).findString id text loc).2).moduleAt id =
      ((session.moduleAt id).findString id text loc).2 := by
    rw [moduleAt_setModule, if_pos ⟨rfl, held⟩]
  refine ⟨?_, fun later => ?_⟩
  · rw [isAfter]
    exact Module.findString_holds tabular id text loc
  · rw [Edit.findString_run, isAfter, Module.findString_findString]
    nth_rewrite 2 [← isAfter]
    rw [setModule_self]

/-- The name of a member is found again after a text has been put into the string table by hand. -/
theorem module_tables_agree_interned :
    let session := Operation.runAll (ofTarget {}) [.newModule "m" .builtin, .intern ⟨0⟩ "w",
      .newStruct "Box" .builtin false, .addMember ⟨3⟩ "v" (.ofKind .uint8 .builtin),
      .addStruct ⟨0⟩ ⟨3⟩, .bindStruct ⟨3⟩]
    (session.moduleAt ⟨0⟩).stringIndex? "v" = some 2 ∧
      (session.moduleAt ⟨0⟩).Holds "__CO0" "v" := by
  intro session
  have reachable : session.Reachable := ⟨{}, _, by decide +kernel, rfl⟩
  obtain ⟨_, index, _, _, _, _, _, _, holds, _⟩ := module_tables_agree reachable ⟨0⟩ (by decide +kernel)
  exact ⟨(index "v" 2).mpr (by decide +kernel), holds "v" "__CO0" (by decide +kernel)⟩

/-- An unnamed constant gets the least number from the counter on that is free, at most as many
numbers later as there are constants. It is put after the others, and neither its name nor its number
comes up again. -/
theorem unnamed_constants_get_fresh_names (reachable : session.Reachable) (id : ModuleId)
    (held : id.index < session.modules.size) (constant : Constant) (isUnnamed : constant.name = "") :
    let module := session.moduleAt id
    let number := module.nextUnnamed
    let added := module.install id constant
    let later := session.setModule id added.2
    IsLeast {number | module.unnamed ≤ number ∧
      module.hasConstant (Module.unnamedName number) = false} number ∧
    number ≤ module.unnamed + module.constants.length ∧
    added.1 = Module.unnamedName number ∧ added.2.unnamed = number + 1 ∧
    (∃ new : Constant, new.name = added.1 ∧ added.2.listedConstants = module.listedConstants ++ [new]) ∧
    (Edit.addConstant id constant).run.run session = (.ok added.1, later) ∧
    (∀ text loc, constant = .declare "" (Prelude.stringType loc) (.value (.text text)) →
      module.stringConstant? text = none →
      (Edit.findString id text loc).run session = (added.1, later)) ∧
    ∀ last, later.Reaches last →
      added.2.listedConstants <+: (last.moduleAt id).listedConstants ∧
      ((last.moduleAt id).listedConstants.map Constant.name).Nodup ∧
      ∀ other : Constant, other.name = "" → ((last.moduleAt id).install id other).1 ≠ added.1 := by
  intro module number added later
  obtain ⟨isName, isCounter⟩ : added.1 = Module.unnamedName number ∧ added.2.unnamed = number + 1 :=
    Module.install_unnamed isUnnamed id
  have named : constant.name ≠ "" → module.hasConstant constant.name = false :=
    fun isNamed => absurd isUnnamed isNamed
  obtain ⟨new, installs⟩ := module.install_installs id constant named
  have isLater : later.moduleAt id = added.2 := by
    rw [moduleAt_setModule, if_pos ⟨rfl, held⟩]
  have tabular := reachable.consistent.modules id
  have listed := (Module.install_tabular tabular named id).listedConstants
  rw [tabular.listedConstants, listed]
  have bound : number ≤ module.unnamed + module.constants.length := by
    rw [Module.constants, List.length_map]
    exact (module.freeNumber_spec _ _).2.1
  refine ⟨module.nextUnnamed_isLeast, bound, isName, isCounter,
    ⟨new, installs.isName, installs.constants⟩, Edit.addConstant_free named,
    fun text loc isText unknown => ?_, fun last reaches => ?_⟩
  · subst isText
    rw [Edit.findString_run, Module.findString, unknown]
  · have changes : Changes False .registration session later :=
      .single (.module (.install constant named False.elim False.elim) False.elim)
    have consistent := changes.consistent reachable.consistent
    have upholds := (reaches.upholds consistent).modules id
      (Nat.lt_of_lt_of_le held changes.upholds.modules_size)
    rw [isLater] at upholds
    have still := (reaches.consistent consistent).modules id
    rw [still.listedConstants]
    refine ⟨upholds.constantTable.map _, still.constants.map_name ▸ still.constants.distinct,
      fun other isOther same => ?_⟩
    rw [(Module.install_unnamed isOther id).1, isName] at same
    have isBehind : number + 1 ≤ (last.moduleAt id).nextUnnamed :=
      isCounter ▸ upholds.unnamed.trans (last.moduleAt id).nextUnnamed_isLeast.1.1
    exact absurd (Module.unnamedName_injective same) (Nat.ne_of_gt isBehind)

/-- Two constants have been given the names of unnamed ones by hand. The number between them is used,
once. -/
theorem unnamed_constants_get_fresh_names_between :
    let byte := fun name => Constant.declare name (.ofKind .uint8 .builtin) (.value (.int 0))
    let session := Operation.runAll (ofTarget {}) [.newModule "m" .builtin,
      .addConstant ⟨0⟩ (byte "__CO0"), .addConstant ⟨0⟩ (byte "__CO2")]
    let added := (session.moduleAt ⟨0⟩).install ⟨0⟩ (byte "")
    let last := Operation.runAll (session.setModule ⟨0⟩ added.2) [.findString ⟨0⟩ "v" .builtin]
    added.1 = "__CO1" ∧ added.2.unnamed = 2 ∧
      ((last.moduleAt ⟨0⟩).install ⟨0⟩ (byte "")).1 ≠ "__CO1" := by
  intro byte session added last
  have reachable : session.Reachable := ⟨{}, _, by decide +kernel, rfl⟩
  obtain ⟨_, _, isName, isCounter, _, _, _, fresh⟩ :=
    unnamed_constants_get_fresh_names reachable ⟨0⟩ (by decide +kernel) (byte "") rfl
  have isNumber : (session.moduleAt ⟨0⟩).nextUnnamed = 1 := by decide +kernel
  rw [isNumber] at isName isCounter
  have isFresh := (fresh last ⟨_, by decide +kernel, rfl⟩).2.2 (byte "") rfl
  rw [isName] at isFresh
  exact ⟨isName, isCounter, isFresh⟩

end Session

end Assay
