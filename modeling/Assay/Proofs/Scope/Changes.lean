import Assay.Proofs.Scope.Tables

/-!
Contract: registration and binding as sequences of alterations.
-/

namespace Assay

open Stopping

/-! ## Consistent sessions -/

namespace Session

variable {strict : Prop} {phase : Phase} {session before after : Session}

/-- The tables of modules agree with each other, what belongs to a module belongs to one that exists,
and scopes know their numbers and stand where they can. -/
structure Consistent (session : Session) : Prop where
  modules : ∀ id, (session.moduleAt id).Tabular
  structs : ∀ id module, (session.structAt id).owner = some (.module module) →
    module.index < session.modules.size
  funcs : ∀ id module, (session.funcAt id).parent = some (.module module) →
    module.index < session.modules.size
  nested : session.Nested
  numbered : session.Numbered

theorem setStruct_modifyStruct (session : Session) (id : StructId) (change : Struct → Struct)
    (struct : Struct) :
    (session.modifyStruct id change).setStruct id struct = session.setStruct id struct := by
  have same : (session.structs.modify id.index change).modify id.index (fun _ => struct) =
      session.structs.modify id.index (fun _ => struct) := by
    ext index
    · simp
    · simp [Array.getElem_modify]
      grind
  rw [setStruct, setStruct, modifyStruct, modifyStruct, modifyStruct, same]

/-- There is nothing to change under a handle that was not allocated. -/
theorem setStruct_of_unheld {id : StructId} (unheld : ¬ id.index < session.structs.size)
    (struct : Struct) : session.setStruct id struct = session := by
  have same : session.structs.modify id.index (fun _ => struct) = session.structs := by
    ext index
    · simp
    · simp [Array.getElem_modify]
      grind
  rw [setStruct, modifyStruct, same]

/-- What holds of the runtime structs, and where no struct is, holds of all structs of a new
session. -/
theorem forall_structAt_ofTarget {target : Target} {motive : Struct → Prop}
    (runtime : ∀ struct ∈ Prelude.structs target, motive struct) (missing : motive default)
    (id : StructId) : motive ((ofTarget target).structAt id) :=
  forall_getD (fun struct member => runtime struct (by simpa [ofTarget] using member)) missing _

/-- A new session holds no struct that has been taken, sealed or bound. -/
theorem structAt_ofTarget (target : Target) (id : StructId) :
    ((ofTarget target).structAt id).owner = none ∧ ((ofTarget target).structAt id).isSealed = false ∧
      ((ofTarget target).structAt id).isBound = false := by
  refine forall_structAt_ofTarget (motive := fun struct => struct.owner = none ∧
    struct.isSealed = false ∧ struct.isBound = false) (fun struct isPrelude => ?_) ⟨rfl, rfl, rfl⟩ id
  obtain ⟨owner, isSealed, isBound, _⟩ := Prelude.mem_structs isPrelude
  exact ⟨owner, isSealed, isBound⟩

theorem consistent_ofTarget (target : Target) : (ofTarget target).Consistent := by
  refine ⟨fun _ => Module.tabular_empty _ _ _, fun id module owner => ?_, fun id module parent => ?_,
    nested_ofTarget target, ?_⟩
  · rw [(structAt_ofTarget target id).1] at owner
    cases owner
  · cases parent
  · constructor <;> exact fun _ _ found => by cases found

theorem Alters.consistent (alters : Alters strict phase before after)
    (consistent : before.Consistent) : after.Consistent := by
  have size := alters.upholds.modules_size
  refine ⟨?_, fun id module owner => ?_, fun id module parent => ?_,
    alters.nested consistent.nested, alters.numbered consistent.numbered⟩
  · exact alters.forall_moduleAt (fun _ => Module.tabular_empty)
      (fun id _ alters => alters.tabular (consistent.modules id))
      (fun _ tabular => { tabular with }) consistent.modules
  · rcases (alters.structStep id).owner owner with isOld | ⟨block, isBlock⟩ | ⟨taker, isTaker, held⟩
    · exact Nat.lt_of_lt_of_le (consistent.structs id module isOld) size
    · cases isBlock
    · cases isTaker
      exact Nat.lt_of_lt_of_le held size
  · rcases alters.parent_funcAt parent with isOld | ⟨taker, isTaker, held⟩
    · exact Nat.lt_of_lt_of_le (consistent.funcs id module isOld) size
    · cases isTaker
      exact Nat.lt_of_lt_of_le held size

theorem Changes.consistent (changes : Changes strict phase before after)
    (consistent : before.Consistent) : after.Consistent := by
  induction changes with
  | refl => exact consistent
  | tail _ alters ih => exact alters.consistent ih

end Session

/-! ## Registration -/

namespace Edit

open Session (Alters Changes Consistent Takeable)

variable {strict : Prop} {phase : Phase} {base session : Session} {module own : ModuleId} {α : Type}
  {id other : StructId} {name : String} {struct : Struct} {ty : Ty} {after before : Module}
  {constant : Constant} {global : Global}

/-- A change of a module that leaves its globals as they are. -/
theorem changeModule_changes {change : Module → Except Fault Module}
    (step : ∀ {before after}, change before = .ok after →
      before.Alters strict module after ∧ after.globalTable = before.globalTable) :
    Keeps (Changes strict phase base) (changeModule module change) :=
  changeModule_keeps fun changes changed =>
    changes.tail (.of_globals (step changed).1 (step changed).2)

theorem changes_addMember (changes : Changes strict .registration base session)
    (added : (session.structAt id).addMember name ty = .ok struct) :
    Changes strict .registration base (session.setStruct id struct) :=
  changes.tail (.addMember added)

theorem setInit_changes (block : BlockId) (name : String) (expr : ExprId) :
    Keeps (Changes strict .registration base) (setInit block name expr) := by
  refine .get_bind fun session changes => ?_
  split
  · exact changes
  · exact changes.tail (.setInit block name expr)

theorem globalTable_addConstant (added : before.addConstant own constant = .ok (name, after)) :
    after.globalTable = before.globalTable := by
  obtain ⟨held, installs⟩ := Module.installs_of_added added
  exact installs.lists.globalTable

theorem addConstant_alters (added : before.addConstant own constant = .ok (name, after))
    (linked : strict → before.Linked constant.name constant.initializer)
    (sound : strict → ({ constant with ty := Module.constantType constant.ty } : Constant).Sound) :
    before.Alters strict own after := by
  obtain ⟨free, installed⟩ := Module.addConstant_installed added
  rw [show after = (before.install own constant).2 by rw [installed]]
  exact .install constant free linked sound

theorem addConstant_changes (lenient : ¬ strict) (constant : Constant) :
    Keeps (Changes strict phase base) (addConstant module constant) := by
  refine .get_bind fun session changes => ?_
  rcases added : (session.moduleAt module).addConstant module constant with fault | ⟨name, after⟩
  · exact changes
  · exact changes.tail (.of_globals
      (addConstant_alters added (absurd · lenient) (absurd · lenient)) (globalTable_addConstant added))

theorem addGlobal_alters (added : before.addGlobal own global = .ok after)
    (linked : strict → before.Linked global.name global.initializer)
    (numbered : strict → global.Numbered) : before.Alters strict own after := by
  obtain ⟨free, rfl⟩ := Module.addGlobal_appended added
  exact .addGlobal global free linked numbered

theorem addGlobal_changes (changes : Changes strict phase base session)
    (linked : strict → (session.moduleAt module).Linked global.name global.initializer)
    (numbered : strict → global.Numbered)
    (described : strict → phase = .registration → NamesType global.name) :
    Changes strict phase base ((addGlobal module global).run.run session).2 := by
  cases added : (session.moduleAt module).addGlobal module global with
  | error fault =>
    rw [addGlobal, changeModule_error _ added]
    exact changes
  | ok after =>
    rw [addGlobal, changeModule_ok _ added]
    refine changes.tail (.module (addGlobal_alters added linked numbered) fun isStrict isPhase => ?_)
    obtain ⟨_, rfl⟩ := Module.addGlobal_appended added
    rw [Module.pushGlobal, List.map_append]
    exact mem_concat_or (described isStrict isPhase)

theorem addImport_changes (module imported : ModuleId) :
    Keeps (Changes strict phase base) (addImport module imported) := by
  refine .get_bind fun session => changeModule_changes (fun {before after} added => ?_) session
  unfold Module.addImport at added
  split at added
  · cases added
  · next free =>
    cases added
    exact ⟨.listImport imported (by simpa using free), rfl⟩

theorem findString_changes (module : ModuleId) (text : String) (loc : Location) :
    Computation.Keeps (Changes strict phase base) (findString module text loc) := by
  intro session changes
  rw [findString_run]
  dsimp only
  rw [Module.findString]
  split
  · rw [Session.setModule_self]
    exact changes
  · obtain ⟨held, installs⟩ := (session.moduleAt module).install_installs module
      (.declare "" (Prelude.stringType loc) (.value (.text text))) fun named => absurd rfl named
    exact changes.tail (.of_globals (.install _ (fun named => absurd rfl named) (fun _ => trivial)
      fun _ => Module.text_sound "" text loc) installs.lists.globalTable)

/-! Structs -/

theorem addConstant_ok
    (added : (session.moduleAt module).addConstant module constant = .ok (name, after)) :
    (addConstant module constant).run.run session = (.ok name, session.setModule module after) := by
  rw [addConstant, run_get_bind, added]
  rfl

theorem addConstant_error {fault : Fault}
    (refused : (session.moduleAt module).addConstant module constant = .error fault) :
    (addConstant module constant).run.run session = (.error fault, session) := by
  rw [addConstant, run_get_bind, refused]
  rfl

theorem addConstant_holds {name typeName text : String} {loc : Location} {before after : Module}
    {own : ModuleId} (indexed : before.Indexed) (named : typeName ≠ "")
    (added : before.addConstant own (.declare typeName (Prelude.stringType loc)
      (.value (.text text))) = .ok (name, after)) : after.Holds typeName text := by
  obtain ⟨free, installed⟩ := Module.addConstant_installed added
  obtain ⟨held, installs⟩ := Module.installs_of_added added
  have holds := Module.install_holds indexed free own rfl rfl
  rw [installed, ← installs.isName, installs.named named] at holds
  exact holds

theorem annotateStruct_changes (consistent : strict → base.Consistent)
    (held : module.index < base.modules.size) (struct : Struct) (id : StructId) :
    Keeps (Changes strict phase base) (annotateStruct module struct id) := by
  refine .get_bind fun session changes => ?_
  have heldNow := Nat.lt_of_lt_of_le held changes.upholds.modules_size
  split
  · exact changes
  change Changes strict phase base ((addConstant module (.declare (struct.name ++ "_type_name")
    (Prelude.stringType struct.loc) (.value (.text struct.name))) >>= fun _ =>
      addGlobal module _).run.run session).2
  rw [run_bind]
  rcases added : (session.moduleAt module).addConstant module (.declare
    (struct.name ++ "_type_name") (Prelude.stringType struct.loc) (.value (.text struct.name)))
    with fault | ⟨name, after⟩
  · rw [addConstant_error added]
    exact changes
  · rw [addConstant_ok added]
    have alters : (session.moduleAt module).Alters strict module after :=
      addConstant_alters added (fun _ => trivial) fun _ => Module.text_sound _ _ _
    have installed := changes.tail (.of_globals alters (globalTable_addConstant added))
    have isAfter : (session.setModule module after).moduleAt module = after := by
      rw [Session.moduleAt_setModule, if_pos ⟨rfl, heldNow⟩]
    refine addGlobal_changes installed (fun isStrict => ?_) (fun _ => .inl rfl)
      fun _ _ => ⟨struct.name, rfl⟩
    have tabular := (changes.consistent (consistent isStrict)).modules module
    rw [isAfter]
    exact ⟨struct.name, addConstant_holds tabular.indexed (by simp) added, rfl⟩

theorem describeStruct_changes (consistent : strict → base.Consistent)
    (held : module.index < base.modules.size) (id : StructId) :
    Keeps (Changes strict .registration base) (describeStruct module id) := by
  refine describeStruct_keeps (fun {session struct} changes sealing => ?_)
    fun struct => annotateStruct_changes consistent held struct id
  have isSealed : Alters strict .registration session (session.setStruct id
      ((session.structAt id).sealed id (session.target.wordType (session.structAt id).loc))) :=
    .sealStruct id
  rw [Struct.sealed, sealing] at isSealed
  exact changes.tail isSealed

/-- A module takes and seals a struct in one alteration. -/
theorem takeStruct_seal (session : Session) (module : ModuleId) (id : StructId) :
    (session.takeStruct module id).setStruct id
        (((session.takeStruct module id).structAt id).sealed id
          ((session.takeStruct module id).target.wordType
            ((session.takeStruct module id).structAt id).loc)) =
      (session.setModule module { session.moduleAt module with
          structs := (session.moduleAt module).structs ++
            [((session.structAt id).name, id)] }).setStruct id
        (((session.structAt id).takenBy module).sealed id
          (session.target.wordType (session.structAt id).loc)) := by
  let listed := session.setModule module { session.moduleAt module with
    structs := (session.moduleAt module).structs ++ [((session.structAt id).name, id)] }
  by_cases held : id.index < session.structs.size
  · rw [structAt_takeStruct held, Session.setStruct_modifyStruct]
    rfl
  · have unheld : ¬ id.index < listed.structs.size := held
    change (listed.modifyStruct id _).setStruct id _ = listed.setStruct id _
    rw [Session.setStruct_modifyStruct, Session.setStruct_of_unheld unheld,
      Session.setStruct_of_unheld unheld]

theorem addStruct_changes (consistent : strict → session.Consistent)
    (held : module.index < session.modules.size) (own : strict → session.Takeable module id) :
    Changes strict .registration session ((addStruct module id).run.run session).2 := by
  cases listed : (session.moduleAt module).struct? (session.structAt id).name with
  | some other =>
    rw [addStruct_refused listed]
  | none =>
    rw [addStruct_taken listed]
    have taken : Alters strict .registration session _ := .takeStruct held listed own
    rw [← takeStruct_seal] at taken
    cases sealing : ((session.takeStruct module id).structAt id).sealWith id
        ((session.takeStruct module id).target.wordType
          ((session.takeStruct module id).structAt id).loc) with
    | error fault =>
      rw [describeStruct_refused sealing]
      rw [Struct.sealed, sealing] at taken
      exact .single (Session.setStruct_self (session.takeStruct module id) id ▸ taken)
    | ok struct =>
      rw [describeStruct_sealed sealing]
      rw [Struct.sealed, sealing] at taken
      exact annotateStruct_changes consistent held _ id _ (.single taken)

/-! The other definitions of types -/

theorem addObject_changes (module : ModuleId) (id : ObjectId) :
    Keeps (Changes strict .registration base) (addObject module id) :=
  addObject_keeps fun changes listed =>
    (changes.tail (.of_globals (.listObject id listed) rfl)).tail (.takeObject module id)

/-- A struct stays one that the module may take as long as no other module takes it. -/
theorem takeable_of_owner {before after : Session} {id : StructId}
    (takeable : before.Takeable module id) (size : before.structs.size ≤ after.structs.size)
    (owner : ∀ scope, (after.structAt id).owner = some scope →
      (before.structAt id).owner = some scope ∨ scope = .module module) :
    after.Takeable module id := by
  refine takeable.imp_right fun ⟨held, owned⟩ =>
    ⟨Nat.lt_of_lt_of_le held size, fun scope isOwner => ?_⟩
  exact (owner scope isOwner).elim (owned scope) fun isModule => isModule

theorem takeable_setStruct (owner : struct.owner = (session.structAt id).owner)
    (takeable : session.Takeable module other) :
    (session.setStruct id struct).Takeable module other := by
  refine takeable_of_owner takeable (Nat.le_of_eq Array.size_modify.symm)
    fun scope isOwner => .inl ?_
  rw [Session.structAt_setStruct] at isOwner
  split at isOwner
  · next same => exact same.1 ▸ owner ▸ isOwner
  · exact isOwner

theorem takeable_addMember (takeable : session.Takeable module other)
    (added : (session.structAt id).addMember name ty = .ok struct) :
    (session.setStruct id struct).Takeable module other := by
  obtain ⟨_, _, _, _, rfl⟩ := Struct.addMember_ok added
  exact takeable_setStruct rfl takeable

theorem annotateStruct_takeable (struct : Struct) (id other : StructId) :
    Keeps (Takeable module other) (annotateStruct module struct id) := by
  intro session takeable
  have annotates := annotateStruct_annotates struct id session (.refl module session)
  have size := Nat.le_of_eq (congrArg Array.size annotates.structs.symm)
  exact takeable_of_owner takeable size fun scope owner => .inl (annotates.structAt other ▸ owner)

theorem describeStruct_takeable (id other : StructId) :
    Keeps (Takeable module other) (describeStruct module id) :=
  describeStruct_keeps (fun takeable sealing =>
    takeable_setStruct (Struct.sealWith_keeps sealing).2.2 takeable)
    fun struct => annotateStruct_takeable struct id other

/-- Taking a struct makes no other struct belong to another module. -/
theorem addStruct_takeable (id other : StructId) :
    Keeps (Takeable module other) (addStruct module id) := by
  refine addStruct_keeps (fun {session} takeable _ => ?_) (describeStruct_takeable id other)
  refine takeable_of_owner takeable (Nat.le_of_eq Array.size_modify.symm) fun scope owner => ?_
  rw [Session.structAt_modifyStruct] at owner
  split at owner
  · rcases Option.or_eq_some_iff.mp owner with isOld | ⟨_, isNew⟩
    · exact .inl isOld
    · cases isNew
      exact .inr rfl
  · exact .inl owner

theorem addFunc_changes {id : FuncId} (consistent : strict → session.Consistent)
    (held : module.index < session.modules.size)
    (takeable : strict → Takeable module (session.funcAt id).inbound session ∧
      Takeable module (session.funcAt id).outbound session) :
    Changes strict .registration session ((addFunc module id).run.run session).2 := by
  cases listed : (session.moduleAt module).func? (session.funcAt id).name with
  | some other =>
    rw [addFunc_refused listed]
  | none =>
    rw [addFunc_taken listed]
    have taken : Changes strict .registration session (session.takeFunc module id) :=
      (Relation.ReflTransGen.single (.of_globals (.listFunc id listed) rfl)).tail
        (.takeFunc (Nat.lt_of_lt_of_eq held Array.size_modify.symm) id)
    let inv : Session → Prop := fun state => Changes strict .registration session state ∧
      (strict → Takeable module (session.funcAt id).outbound state)
    have step : ∀ params state, Changes strict .registration session state →
        (strict → Takeable module params state) →
          Changes strict .registration session ((addStruct module params).run.run state).2 :=
      fun params state changes own => changes.trans (addStruct_changes
        (fun isStrict => changes.consistent (consistent isStrict))
        (Nat.lt_of_lt_of_le held changes.upholds.modules_size) own)
    have first : inv ((addStruct module (session.funcAt id).inbound).run.run
        (session.takeFunc module id)).2 :=
      ⟨step _ _ taken fun isStrict => (takeable isStrict).1, fun isStrict =>
        addStruct_takeable _ _ _ (takeable isStrict).2⟩
    have rest : inv ((describeFunc module (session.funcAt id)).run.run
        (session.takeFunc module id)).2 := by
      refine holds_bind first fun _ => Keeps.bind ?_ fun _ => .forM fun block _ => ?_
      · exact fun state holds => ⟨step _ _ holds.1 holds.2, fun isStrict =>
          addStruct_takeable _ _ state (holds.2 isStrict)⟩
      · refine .get_bind fun state holds => ⟨?_, fun isStrict => ?_⟩
        · exact describeStruct_changes consistent held _ state holds.1
        · exact describeStruct_takeable _ _ state (holds.2 isStrict)
    exact rest.1

theorem describeKind_changes (consistent : base.Consistent) (held : module.index < base.modules.size)
    {kind : Kind} (described : kind ∈ Prelude.describedKinds) :
    Keeps (Changes strict .registration base) (describeKind module kind) := by
  refine .get_bind fun session changes => ?_
  have heldNow := Nat.lt_of_lt_of_le held changes.upholds.modules_size
  split
  · exact changes
  change Changes strict .registration base (((liftM (findString module kind.spelling .builtin) :
    Edit String) >>= fun _ => addGlobal module _).run.run session).2
  rw [run_bind, run_lift, findString_run]
  dsimp only
  let found := (session.moduleAt module).findString module kind.spelling .builtin
  have searched : Changes strict .registration base (session.setModule module found.2) :=
    findString_changes module kind.spelling .builtin session changes
  have holds : found.2.Holds found.1 kind.spelling :=
    Module.findString_holds ((changes.consistent consistent).modules module) module _ _
  have isFound : (session.setModule module found.2).moduleAt module = found.2 := by
    rw [Session.moduleAt_setModule, if_pos ⟨rfl, heldNow⟩]
  refine addGlobal_changes searched (fun _ => ?_) (fun _ => .inr ⟨kind, described, rfl, rfl⟩)
    fun _ _ => ⟨kind.spelling, rfl⟩
  rw [isFound]
  exact ⟨kind.spelling, holds, rfl⟩

theorem installPrelude_changes (consistent : base.Consistent)
    (held : module.index < base.modules.size) :
    Keeps (Changes strict .registration base) (installPrelude module) := by
  refine Keeps.bind (.forM fun id member session changes => ?_) fun _ =>
    .forM fun _ => describeKind_changes consistent held
  have heldNow := Nat.lt_of_lt_of_le held changes.upholds.modules_size
  exact changes.trans (addStruct_changes (fun _ => changes.consistent consistent) heldNow
    fun _ => .inl member)

end Edit

/-! ## Binding -/

namespace Session

variable {strict : Prop} {session : Session} {module : ModuleId} {scope : ScopeId} {id : StructId}
  {ty : Ty}

theorem Consistent.moduleOf? (consistent : session.Consistent)
    (owner : (session.structAt id).owner = some scope)
    (home : session.moduleOf? scope = some module) : module.index < session.modules.size := by
  cases scope with
  | module other =>
    cases home
    exact consistent.structs id _ owner
  | func func => exact consistent.funcs func module (consistent.nested.moduleOf?_func.mp home)
  | block block =>
    obtain ⟨func, _, parent⟩ := consistent.nested.moduleOf?_block.mp home
    exact consistent.funcs func module parent

theorem bindMemberTypes_resolved (session : Session) (scope : ScopeId) (struct : Struct)
    {members : List Member} (silent : (session.bindMemberTypes scope struct members).2 = []) :
    ∀ member ∈ (session.bindMemberTypes scope struct members).1, member.ty.isUnresolved = false := by
  induction members with
  | nil => exact fun _ absent => (List.not_mem_nil absent).elim
  | cons first rest ih =>
    rw [bindMemberTypes] at silent ⊢
    split at silent
    · next refused => exact absurd silent (resolveType_error_ne_nil refused)
    · next resolved =>
      exact List.forall_mem_cons.mpr
        ⟨resolveType_resolves resolved, ih silent⟩

/-- Each row describes its member in the module that is left. -/
theorem attrRows_describes (consistent : session.Consistent)
    (held : module.index < session.modules.size) (members : List Member) :
    Changes strict .binding session ((attrRows module members).run session).2 ∧
      List.Forall₂ (AttrRow.Describes (((attrRows module members).run session).2.moduleAt module))
        ((attrRows module members).run session).1 members := by
  induction members generalizing session with
  | nil => exact ⟨.refl, .nil⟩
  | cons member rest ih =>
    let found := (session.moduleAt module).findString module member.name member.ty.loc
    let searched := session.setModule module found.2
    have first : Changes strict .binding session searched :=
      Edit.findString_changes module member.name member.ty.loc session .refl
    have heldNow : module.index < searched.modules.size :=
      Nat.lt_of_lt_of_le held first.upholds.modules_size
    obtain ⟨later, described⟩ := ih (first.consistent consistent) heldNow
    have holds : (searched.moduleAt module).Holds found.1 member.name := by
      rw [moduleAt_setModule, if_pos ⟨rfl, held⟩]
      exact Module.findString_holds (consistent.modules module) module _ _
    refine ⟨first.trans later, .cons ⟨rfl, rfl, rfl, ?_⟩ described⟩
    exact (later.upholds.modules module heldNow).holds holds

theorem addAttrTable_run (session : Session) (module : ModuleId) (struct : Struct) :
    let rows := (attrRows module struct.members).run session
    (addAttrTable module struct).run.run session =
      (Edit.addGlobal module
        { name := attrTableName struct.name
          ty := (Prelude.typeNodeType struct.loc).asArray rows.1.length
          initializer := .attrTable rows.1 }).run.run rows.2 := by
  rw [addAttrTable, run_bind, run_lift]

/-- The table that has just been added to a module. -/
theorem addGlobal_tabulates {id : StructId} {rows : List AttrRow} {ty : Ty} {after : Module}
    (held : module.index < session.modules.size)
    (described : List.Forall₂ (AttrRow.Describes (session.moduleAt module)) rows
      (session.structAt id).members)
    (definite : ∀ member ∈ (session.structAt id).members, member.ty.isUnresolved = false)
    (added : (session.moduleAt module).addGlobal module
      { name := attrTableName (session.structAt id).name
        ty := ty
        initializer := .attrTable rows } = .ok after) :
    (session.setModule module after).Tabulated id module rows := by
  have alters : (session.moduleAt module).Alters False module after :=
    Edit.addGlobal_alters added False.elim False.elim
  have isAfter : (session.setModule module after).moduleAt module = after := by
    rw [moduleAt_setModule, if_pos ⟨rfl, held⟩]
  obtain ⟨free, appended⟩ := Module.addGlobal_appended added
  refine ⟨?_, ?_, definite⟩
  · rw [isAfter, appended]
    exact ⟨_, Module.global?_pushGlobal free, rfl⟩
  · rw [isAfter]
    exact described.imp fun _ _ describes =>
      { describes with name := alters.upholds.holds describes.name }

/-- A struct whose members all have types is marked as bound once its table has been added. -/
theorem finishBinding_changes (consistent : session.Consistent)
    (owner : (session.structAt id).owner = some scope)
    (definite : ∀ member ∈ (session.structAt id).members, member.ty.isUnresolved = false) :
    Changes strict .binding session (session.finishBinding id scope).session := by
  unfold finishBinding
  dsimp only
  split
  · exact .refl
  next module home =>
  have held := consistent.moduleOf? owner home
  have annotates : session.Annotates module _ :=
    attrRows_keeps Edit.findString_annotates (session.structAt id).members session
      (.refl module session)
  obtain ⟨filled, described⟩ :=
    @attrRows_describes strict _ _ consistent held (session.structAt id).members
  rw [addAttrTable_run]
  generalize (attrRows module (session.structAt id).members).run session = rows at *
  have sameStruct : rows.2.structAt id = session.structAt id := annotates.structAt id
  rw [← sameStruct] at owner definite described ⊢
  cases added : (rows.2.moduleAt module).addGlobal module
      { name := attrTableName (rows.2.structAt id).name
        ty := (Prelude.typeNodeType (rows.2.structAt id).loc).asArray rows.1.length
        initializer := .attrTable rows.1 } with
  | error fault =>
    rw [Edit.addGlobal, Edit.changeModule_error _ added]
    exact filled
  | ok after =>
    rw [Edit.addGlobal, Edit.changeModule_ok _ added]
    dsimp only
    rw [modifyStruct_eq_setStruct]
    have alters : (rows.2.moduleAt module).Alters strict module after :=
      Edit.addGlobal_alters added (fun _ => trivial) fun _ => trivial
    have same : session.SameOwners (rows.2.setModule module after) :=
      ⟨annotates.funcs, annotates.blocks, fun other =>
        congrArg Struct.owner (annotates.structAt other)⟩
    have tabulated := addGlobal_tabulates
      (Nat.lt_of_lt_of_le held filled.upholds.modules_size) described definite added
    exact (filled.tail (.module alters fun _ isPhase => by cases isPhase)).tail
      (.markBound owner ((same.moduleOf? scope).trans home) tabulated)

theorem bindStruct_changes (consistent : session.Consistent) (id : StructId) :
    Changes strict .binding session (session.bindStruct id).session := by
  unfold bindStruct
  dsimp only
  split
  · exact .refl
  · split
    · exact .refl
    · next scope owner =>
      have typed : Alters strict .binding session _ := .bindTypes id scope
      split
      · next silent =>
        refine .head typed (finishBinding_changes (typed.consistent consistent) ?_ ?_)
        · rw [structAt_setStruct, if_pos ⟨rfl, held_of_owner owner⟩]
          exact owner
        · rw [structAt_setStruct, if_pos ⟨rfl, held_of_owner owner⟩]
          exact session.bindMemberTypes_resolved scope _ silent
      · exact .single typed

theorem bindStructs_changes (consistent : session.Consistent) (count : Nat) (ids : List StructId)
    (log : Log) : Changes strict .binding session (bindStructs count ids session log).session := by
  induction ids generalizing session log with
  | nil => exact .refl
  | cons id ids ih =>
    have first : Changes strict .binding session (session.bindStruct id).session :=
      bindStruct_changes consistent id
    rw [bindStructs]
    dsimp only
    split
    · exact first
    · exact first.trans (ih (first.consistent consistent) _)

end Session

end Assay
