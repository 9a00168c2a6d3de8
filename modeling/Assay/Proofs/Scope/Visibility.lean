import Assay.Proofs.Scope.Bookkeeping
import Assay.Proofs.Scope.Walks

/-!
Contract: the names that scopes declare, and the searches for them.
-/

namespace Assay

/-! ## Members that are declared -/

namespace Struct

variable {struct : Struct} {own : StructId} {name : String}

theorem isSome_declaredType? : (struct.declaredType? name).isSome = true ↔
    name ∈ struct.declared.map Member.name := by
  simp [declaredType?]

variable (arranged : struct.Arranged own)
include arranged

/-- Sealing puts the names of the bookkeeping members behind the declared ones. -/
theorem Arranged.names_eq : struct.members.map Member.name =
    struct.declared.map Member.name ++ if struct.isSealed then bookkeeping else [] := by
  rw [declared, List.map_take, declaredCount]
  cases isSealed : struct.isSealed with
  | false => simp [← List.map_take]
  | true =>
    obtain ⟨names, isNames⟩ := arranged.marked isSealed
    have length : struct.members.length = names.length + 2 := by
      simpa [bookkeeping] using congrArg List.length isNames.symm
    simp [length, ← isNames]

theorem Arranged.contains_iff : struct.contains name = true ↔
    (struct.declaredType? name).isSome = true ∨ struct.isSealed = true ∧ name ∈ bookkeeping := by
  rw [contains_eq_true, isSome_declaredType?, arranged.names_eq, List.mem_append]
  cases struct.isSealed <;> simp

theorem Arranged.declaredType?_bookkeeping (reserved : name ∈ bookkeeping) :
    struct.declaredType? name = none := by
  rw [← Option.not_isSome_iff_eq_none, isSome_declaredType?]
  intro isDeclared
  have names := arranged.names_eq
  cases isSealed : struct.isSealed with
  | false =>
    apply arranged.free isSealed name reserved
    rw [names]
    exact List.mem_append_left _ isDeclared
  | true =>
    have distinct := arranged.distinct
    rw [names, isSealed, if_pos rfl] at distinct
    exact (List.nodup_append.mp distinct).2.2 name isDeclared name reserved rfl

end Struct

/-! ## Values -/

namespace Session

variable {session : Session} {scope : ScopeId} {name : String}

theorem isSome_ownValue? (session : Session) (scope : ScopeId) (name : String) :
    (session.ownValue? scope name).isSome = session.declares scope name := by
  cases scope with
  | module id => exact Module.isSome_value? _ _
  | func id => exact Option.isSome_map
  | block id => exact Option.isSome_map

theorem declares_bookkeeping (arranged : ∀ id, (session.structAt id).Arranged id)
    (inner : ∀ module, scope ≠ .module module) (reserved : name ∈ Struct.bookkeeping) :
    session.declares scope name = false := by
  have hidden : ∀ id, (session.structAt id).declaredType? name = none := fun id =>
    (arranged id).declaredType?_bookkeeping reserved
  cases scope with
  | module id => exact absurd rfl (inner id)
  | func id => simp [declares, parameterType?, hidden]
  | block id => simp [declares, variableType?, hidden]

theorem module_mem_scopes (nested : session.Nested) {module : ModuleId} :
    .module module ∈ session.scopes scope ↔ session.moduleOf? scope = some module := by
  have inFunc : ∀ id, .module module ∈ session.scopes (.func id) ↔
      (session.funcAt id).parent = some (.module module) := by
    intro id
    rw [nested.scopes_eq, parent?]
    cases isAround : (session.funcAt id).parent with
    | none => simp
    | some around =>
      obtain ⟨outer, rfl⟩ := nested.funcs id around isAround
      simp [scopes_module, eq_comm]
  cases scope with
  | module id => simp [scopes_module, moduleOf?_module, eq_comm]
  | func id => rw [nested.moduleOf?_func, inFunc]
  | block id =>
    rw [nested.moduleOf?_block, nested.scopes_eq, parent?]
    cases isAround : (session.blockAt id).parent with
    | none => simp
    | some around =>
      obtain ⟨func, rfl⟩ := nested.blocks id around isAround
      simp [inFunc]

/-! ## Main results -/

/-- A name is seen exactly if it has a value, and the value is that of the nearest scope that
declares the name. From inside a function the bookkeeping names are seen only as constants and globals
of the module, whichever structs are sealed. -/
theorem nearest_declaration_seen (reachable : session.Reachable) (scope : ScopeId) (name : String) :
    session.scopes scope = scope :: ((session.parent? scope).map session.scopes).getD [] ∧
    (session.sees scope name = true ↔ (session.value? scope name).isSome = true) ∧
    (∀ value, session.value? scope name = some value ↔
      ∃ nearer inner around, session.scopes scope = nearer ++ inner :: around ∧
        session.declares inner name = true ∧ session.ownValue? inner name = some value ∧
        ∀ other ∈ nearer, session.declares other name = false) ∧
    ((∀ module, scope ≠ .module module) → name ∈ [Struct.referenceCount, Struct.previousCopy] →
      (session.sees scope name = true ↔ ∃ module, session.moduleOf? scope = some module ∧
        ((session.moduleAt module).hasConstant name = true ∨
          (session.moduleAt module).hasGlobal name = true))) := by
  have nested := reachable.consistent.nested
  refine ⟨nested.scopes_eq scope, ?_, fun value => ?_, fun inner reserved => ?_⟩
  · simp [value?, sees, isSome_ownValue?]
  · simp only [value?, List.findSome?_eq_some_iff, ← isSome_ownValue?, Option.isSome_eq_false_iff,
      Option.isNone_iff_eq_none]
    constructor
    · rintro ⟨nearer, inner, around, isScopes, isValue, none⟩
      exact ⟨nearer, inner, around, isScopes, by simp [isValue], isValue, none⟩
    · rintro ⟨nearer, inner, around, isScopes, _, isValue, none⟩
      exact ⟨nearer, inner, around, isScopes, isValue, none⟩
  · rw [sees, List.any_eq_true]
    constructor
    · rintro ⟨found, isFound, declared⟩
      have isModule : ∃ module, found = .module module := by
        by_contra other
        push Not at other
        rw [declares_bookkeeping reachable.arranged other reserved] at declared
        cases declared
      obtain ⟨module, rfl⟩ := isModule
      refine ⟨module, (module_mem_scopes nested).mp isFound, ?_⟩
      simpa [declares, or_comm] using declared
    · rintro ⟨module, isModule, declared⟩
      refine ⟨.module module, (module_mem_scopes nested).mpr isModule, ?_⟩
      simpa [declares, or_comm] using declared

/-- A block of a registered function sees a global that is named as the one bookkeeping member, and
nothing that is named as the other one. -/
theorem nearest_declaration_seen_sealed :
    let operations : List Operation := [.newModule "m" .builtin, .newFunc "f" .builtin,
      .newBlock none .builtin, .attachBlock ⟨0⟩ .mainline ⟨0⟩, .addFunc ⟨0⟩ ⟨0⟩,
      .addGlobal ⟨0⟩ { name := "previous_copy", ty := .ofKind .uint8 .builtin, initializer := .none }]
    let session := Operation.runAll (ofTarget {}) operations
    session.sees (.block ⟨0⟩) "previous_copy" = true ∧
      session.sees (.block ⟨0⟩) "reference_count" = false := by
  intro operations session
  have facts : Operation.AllocatedAll (ofTarget {}) operations ∧
      session.moduleOf? (.block ⟨0⟩) = some ⟨0⟩ ∧
      (session.moduleAt ⟨0⟩).hasGlobal "previous_copy" = true ∧
      (session.moduleAt ⟨0⟩).hasConstant "reference_count" = false ∧
      (session.moduleAt ⟨0⟩).hasGlobal "reference_count" = false := by
    decide +kernel
  obtain ⟨allocated, isModule, isGlobal, noConstant, noGlobal⟩ := facts
  have reachable : session.Reachable := ⟨{}, _, allocated, rfl⟩
  have seen := fun name => (nearest_declaration_seen reachable (.block ⟨0⟩) name).2.2.2 nofun
  refine ⟨(seen "previous_copy" (by decide)).mpr ⟨⟨0⟩, isModule, .inr isGlobal⟩, ?_⟩
  rw [Bool.eq_false_iff, ne_eq, seen "reference_count" (by decide)]
  rintro ⟨module, isOther, found⟩
  cases isModule.symm.trans isOther
  simp [noConstant, noGlobal] at found

/-- The checks for parameters and variables count all members, and the scopes only those that were
declared. They differ for the bookkeeping members of sealed structs, and for nothing else. -/
theorem member_checks_iff (reachable : session.Reachable) (name : String) :
    (∀ func, Edit.hasParameter session func name = true ↔
      session.declares (.func func) name = true ∨
        name ∈ [Struct.referenceCount, Struct.previousCopy] ∧
          ((session.structAt (session.funcAt func).inbound).isSealed = true ∨
            (session.structAt (session.funcAt func).outbound).isSealed = true)) ∧
    (∀ block expr, ((Edit.setInit block name expr).run.run session).1 = .ok () ↔
      session.declares (.block block) name = true ∨
        name ∈ [Struct.referenceCount, Struct.previousCopy] ∧
          (session.structAt (session.blockAt block).vars).isSealed = true) ∧
    (name ∈ [Struct.referenceCount, Struct.previousCopy] →
      (∀ func, session.declares (.func func) name = false) ∧
        ∀ block, session.declares (.block block) name = false) := by
  have arranged := reachable.arranged
  refine ⟨fun func => ?_, fun block expr => ?_, fun reserved => ⟨fun func => ?_, fun block => ?_⟩⟩
  · rw [Edit.hasParameter, Bool.or_eq_true, (arranged _).contains_iff, (arranged _).contains_iff]
    simp only [declares, parameterType?, Option.isSome_or, Bool.or_eq_true]
    change _ ↔ _ ∨ name ∈ Struct.bookkeeping ∧ _
    rw [or_or_or_comm, ← or_and_right, and_comm]
  · rw [Edit.setInit, Stopping.run_get_bind]
    change _ ↔ (Struct.declaredType? _ name).isSome = true ∨ name ∈ Struct.bookkeeping ∧ _
    rw [and_comm, ← (arranged _).contains_iff]
    cases (session.structAt (session.blockAt block).vars).contains name with
    | true => exact ⟨fun _ => rfl, fun _ => rfl⟩
    | false => exact iff_of_false (by rintro ⟨⟩) Bool.false_ne_true
  · exact declares_bookkeeping arranged (by rintro _ ⟨⟩) reserved
  · exact declares_bookkeeping arranged (by rintro _ ⟨⟩) reserved

/-- Before a registration the checks agree with the scopes. -/
theorem member_checks_iff_unsealed :
    let operations : List Operation := [.newModule "m" .builtin, .newFunc "f" .builtin,
      .addInbound ⟨0⟩ "x" (.ofKind .uint8 .builtin)]
    let session := Operation.runAll (ofTarget {}) operations
    Edit.hasParameter session ⟨0⟩ "x" = true ∧
      Edit.hasParameter session ⟨0⟩ "reference_count" = false := by
  intro operations session
  have facts : Operation.AllocatedAll (ofTarget {}) operations ∧
      session.declares (.func ⟨0⟩) "x" = true ∧
      session.declares (.func ⟨0⟩) "reference_count" = false ∧
      (session.structAt (session.funcAt ⟨0⟩).inbound).isSealed = false ∧
      (session.structAt (session.funcAt ⟨0⟩).outbound).isSealed = false := by
    decide +kernel
  obtain ⟨allocated, isParameter, undeclared, openInbound, openOutbound⟩ := facts
  have reachable : session.Reachable := ⟨{}, _, allocated, rfl⟩
  have checks := fun name => (member_checks_iff reachable name).1 ⟨0⟩
  refine ⟨(checks "x").mpr (.inl isParameter), ?_⟩
  rw [Bool.eq_false_iff, ne_eq, checks]
  simp [undeclared, openInbound, openOutbound]

/-- A registered function that declares no parameter and a block of it that declares no variable. -/
theorem bookkeeping_passes_member_checks :
    let session := Operation.runAll (ofTarget {}) [.newModule "m" .builtin, .newFunc "f" .builtin,
      .newBlock none .builtin, .attachBlock ⟨0⟩ .mainline ⟨0⟩, .addFunc ⟨0⟩ ⟨0⟩]
    Edit.hasParameter session ⟨0⟩ "reference_count" = true ∧
      session.declares (.func ⟨0⟩) "reference_count" = false ∧
      ((Edit.setInit ⟨0⟩ "reference_count" ⟨0⟩).run.run session).1.toBool = true ∧
      session.declares (.block ⟨0⟩) "reference_count" = false := by
  decide +kernel

end Session

end Assay
