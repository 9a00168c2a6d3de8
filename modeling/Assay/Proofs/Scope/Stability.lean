import Assay.Proofs.Scope.Alterations

/-!
Contract: what has been assigned stays.
-/

namespace Assay

/-! ## Structs -/

/-- What has been assigned in a struct is still there. A sealed struct gets no more members. -/
structure Struct.Upholds (before after : Struct) : Prop extends before.Refines after where
  names : before.members.map Member.name <+: after.members.map Member.name
  owner : ∀ ⦃scope⦄, before.owner = some scope → after.owner = some scope
  isSealed : before.isSealed = true → after.isSealed = true
  closed : before.isSealed = true → after.members.length = before.members.length
  isBound : before.isBound = true → after.isBound = true

namespace Struct

variable {before middle after struct : Struct}

theorem Upholds.refl (struct : Struct) : struct.Upholds struct :=
  ⟨.refl struct, List.prefix_rfl, fun _ owner => owner, id, fun _ => rfl, id⟩

theorem Upholds.trans (first : before.Upholds middle) (second : middle.Upholds after) :
    before.Upholds after where
  toRefines := first.toRefines.trans second.toRefines
  names := first.names.trans second.names
  owner := fun _ owner => second.owner (first.owner owner)
  isSealed := fun isSealed => second.isSealed (first.isSealed isSealed)
  closed := fun isSealed => (second.closed (first.isSealed isSealed)).trans (first.closed isSealed)
  isBound := fun isBound => second.isBound (first.isBound isBound)

theorem Upholds.idxOf? (upholds : before.Upholds after) {name : String} {slot : Nat}
    (found : before.idxOf? name = some slot) : after.idxOf? name = some slot := by
  have asNames : ∀ struct : Struct, struct.idxOf? name =
      (struct.members.map Member.name).findIdx? fun other => other = name := by
    intro struct
    rw [List.findIdx?_map]
    rfl
  rw [asNames] at found ⊢
  exact upholds.names.findIdx?_eq_some found

theorem addMember_upholds {name : String} {ty : Ty} (added : before.addMember name ty = .ok after) :
    before.Upholds after := by
  have refines := Refines.addMember added
  obtain ⟨unsealed, _, _, _, rfl⟩ := addMember_ok added
  refine ⟨refines, ?_, fun _ owner => owner, id, fun isSealed => ?_, id⟩
  · rw [List.map_append]
    exact List.prefix_append _ _
  · rw [unsealed] at isSealed
    cases isSealed

theorem sealed_upholds (struct : Struct) (own : StructId) (word : Ty) :
    struct.Upholds (struct.sealed own word) := by
  rcases struct.sealed_cases own word with same | done
  · rw [same]
    exact .refl struct
  · rcases sealWith_eq done with ⟨_, same⟩ | ⟨unsealed, same⟩
    · rw [same]
      exact .refl struct
    · refine ⟨.sealWith done, ?_, fun _ owner => ?_, fun _ => ?_, fun isSealed => ?_, fun isBound => ?_⟩
      · rw [same, List.map_append]
        exact List.prefix_append _ _
      · rw [same]
        exact owner
      · rw [same]
      · rw [unsealed] at isSealed
        cases isSealed
      · rw [same]
        exact isBound

theorem takenBy_upholds (struct : Struct) (module : ModuleId) :
    struct.Upholds (struct.takenBy module) := by
  refine ⟨⟨rfl, fun _ _ found _ => found⟩, List.prefix_rfl, fun scope owner => ?_, id, fun _ => rfl, id⟩
  rw [takenBy, owner, Option.some_or]

end Struct

theorem Session.bindMemberTypes_upholds (session : Session) (scope : ScopeId) (struct : Struct) :
    struct.Upholds { struct with
      members := (session.bindMemberTypes scope struct struct.members).1 } := by
  have names := session.bindMemberTypes_names scope struct struct.members
  refine ⟨⟨rfl, fun _ _ found definite => bindMemberTypes_definite session scope _ found definite⟩,
    names ▸ List.prefix_rfl, fun _ owner => owner, id, fun _ => ?_, id⟩
  simpa using congrArg List.length names

/-! ## Modules -/

/-- The tables of a module have only grown at their ends, and its counter has not gone back. -/
structure Module.Upholds (before after : Module) : Prop where
  name : after.name = before.name
  imports : before.imports <+: after.imports
  structs : before.structs <+: after.structs
  objects : before.objects <+: after.objects
  funcs : before.funcs <+: after.funcs
  constantTable : before.constantTable <+: after.constantTable
  globalTable : before.globalTable <+: after.globalTable
  strings : before.strings <+: after.strings
  unnamed : before.unnamed ≤ after.unnamed

namespace Module

variable {before middle after module : Module} {strict : Prop} {own : ModuleId}

theorem Upholds.refl (module : Module) : module.Upholds module :=
  ⟨rfl, List.prefix_rfl, List.prefix_rfl, List.prefix_rfl, List.prefix_rfl, List.prefix_rfl,
    List.prefix_rfl, List.prefix_rfl, Nat.le_refl _⟩

theorem Upholds.trans (first : before.Upholds middle) (second : middle.Upholds after) :
    before.Upholds after where
  name := second.name.trans first.name
  imports := first.imports.trans second.imports
  structs := first.structs.trans second.structs
  objects := first.objects.trans second.objects
  funcs := first.funcs.trans second.funcs
  constantTable := first.constantTable.trans second.constantTable
  globalTable := first.globalTable.trans second.globalTable
  strings := first.strings.trans second.strings
  unnamed := Nat.le_trans first.unnamed second.unnamed

theorem SameLists.upholds (same : before.SameLists after)
    (strings : before.strings <+: after.strings) (unnamed : before.unnamed ≤ after.unnamed) :
    before.Upholds after :=
  ⟨same.name, same.imports ▸ List.prefix_rfl, same.structs ▸ List.prefix_rfl,
    same.objects ▸ List.prefix_rfl, same.funcs ▸ List.prefix_rfl,
    same.constantTable ▸ List.prefix_rfl, same.globalTable ▸ List.prefix_rfl, strings, unnamed⟩

theorem install_upholds (module : Module) (own : ModuleId) {constant : Constant}
    (free : constant.name ≠ "" → module.hasConstant constant.name = false) :
    module.Upholds (module.install own constant).2 := by
  obtain ⟨held, installs⟩ := module.install_installs own constant free
  have appended : module.Upholds (module.pushConstant held) :=
    { Upholds.refl module with constantTable := List.prefix_append _ _ }
  exact appended.trans
    (installs.lists.upholds installs.strings (module.unnamed_le_install own constant))

theorem Alters.upholds (alters : before.Alters strict own after) : before.Upholds after := by
  cases alters with
  | listImport imported free => exact { Upholds.refl before with imports := List.prefix_append _ _ }
  | listObject id free => exact { Upholds.refl before with objects := List.prefix_append _ _ }
  | listFunc id free => exact { Upholds.refl before with funcs := List.prefix_append _ _ }
  | intern text =>
    exact (before.intern_sameLists text).upholds (before.strings_intern text)
      (Nat.le_of_eq (before.unnamed_intern text).symm)
  | install constant free => exact before.install_upholds own free
  | addGlobal global => exact { Upholds.refl before with globalTable := List.prefix_append _ _ }

theorem Upholds.constant? (upholds : before.Upholds after) {name : String} {constant : Constant}
    (found : before.constant? name = some constant) : after.constant? name = some constant :=
  upholds.constantTable.lookup_eq_some found

theorem Upholds.global? (upholds : before.Upholds after) {name : String} {global : Global}
    (found : before.global? name = some global) : after.global? name = some global :=
  upholds.globalTable.lookup_eq_some found

theorem Upholds.getElem? {α : Type} {earlier later : List α} (grows : earlier <+: later) {place : Nat}
    {item : α} (found : earlier[place]? = some item) : later[place]? = some item := by
  obtain ⟨bound, rfl⟩ := List.getElem?_eq_some_iff.mp found
  exact List.prefix_iff_getElem?.mp grows place bound

theorem Upholds.holds (upholds : before.Upholds after) {name text : String}
    (holds : before.Holds name text) : after.Holds name text := by
  obtain ⟨constant, index, found, isString, isIndex, isText⟩ := holds
  exact ⟨constant, index, upholds.constant? found, isString, isIndex,
    Upholds.getElem? upholds.strings isText⟩

end Module

/-! ## Sessions -/

namespace Session

variable {before middle after session : Session} {strict : Prop} {phase : Phase}

/-- No definition is lost, and what has been assigned in one is still there. -/
structure Upholds (before after : Session) : Prop where
  modules_size : before.modules.size ≤ after.modules.size
  structs_size : before.structs.size ≤ after.structs.size
  modules : ∀ id : ModuleId, id.index < before.modules.size →
    (before.moduleAt id).Upholds (after.moduleAt id)
  structs : ∀ id : StructId, id.index < before.structs.size →
    (before.structAt id).Upholds (after.structAt id)

namespace Upholds

theorem refl (session : Session) : session.Upholds session :=
  ⟨Nat.le_refl _, Nat.le_refl _, fun _ _ => .refl _, fun _ _ => .refl _⟩

theorem trans (first : before.Upholds middle) (second : middle.Upholds after) :
    before.Upholds after where
  modules_size := Nat.le_trans first.modules_size second.modules_size
  structs_size := Nat.le_trans first.structs_size second.structs_size
  modules := fun id held => (first.modules id held).trans
    (second.modules id (Nat.lt_of_lt_of_le held first.modules_size))
  structs := fun id held => (first.structs id held).trans
    (second.structs id (Nat.lt_of_lt_of_le held first.structs_size))

end Upholds

theorem StructStep.upholds {id : StructId} {struct : Struct} (held : id.index < session.structs.size)
    (step : StructStep session id phase struct) : (session.structAt id).Upholds struct := by
  cases step with
  | kept => exact .refl _
  | fresh unheld => exact absurd held unheld
  | addMember added => exact Struct.addMember_upholds added
  | @taken module _ word => exact (Struct.takenBy_upholds _ module).trans (Struct.sealed_upholds _ _ word)
  | sealed word => exact Struct.sealed_upholds _ _ word
  | bindTypes scope => exact session.bindMemberTypes_upholds scope _
  | markBound owned => exact { Struct.Upholds.refl _ with isBound := fun _ => rfl }

theorem Alters.upholds (alters : Alters strict phase before after) : before.Upholds after := by
  refine ⟨?_, ?_, fun id held => ?_, fun id held => (alters.structStep id).upholds held⟩
  · cases alters <;> simp [setModule, modifyModule, setStruct, modifyStruct, modifyFunc, modifyBlock,
      modifyObject, attachBlock]
  · cases alters <;> simp [setModule, modifyModule, setStruct, modifyStruct, modifyFunc, modifyBlock,
      modifyObject, attachBlock]
  · have set : ∀ {own : ModuleId} {module : Module}, (before.moduleAt own).Upholds module →
        (before.moduleAt id).Upholds ((before.setModule own module).moduleAt id) := by
      intro own module step
      rw [moduleAt_setModule]
      split
      · next same => exact same.1 ▸ step
      · exact .refl _
    cases alters with
    | pushModule lenient name loc =>
      rw [moduleAt, moduleAt, getD_push held]
      exact .refl _
    | module alters => exact set alters.upholds
    | takeStruct _ _ _ =>
      exact set { Module.Upholds.refl _ with structs := List.prefix_append _ _ }
    | _ => exact .refl _

theorem Changes.upholds (changes : Changes strict phase before after) : before.Upholds after := by
  induction changes with
  | refl => exact .refl _
  | tail _ alters ih => exact ih.trans alters.upholds

end Session

end Assay
