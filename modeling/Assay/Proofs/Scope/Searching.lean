import Assay.Proofs.Log
import Assay.Proofs.Scope.Integrity

/-!
Contract: what the search for names can find, and what it reports.
-/

namespace Assay

def Entry.isUndefinedName (entry : Entry) : Bool :=
  match entry.cause with
  | .fault (.undefinedName _) => true
  | _ => false

/-- The entry is not about the name of a value, and given `settled` it is an error. -/
structure Entry.ConcernsType (entry : Entry) (settled : Prop) : Prop where
  notName : entry.isUndefinedName = false
  isError : settled → entry.IsError

theorem Entry.ConcernsType.mono {entry : Entry} {weak strong : Prop}
    (concerns : entry.ConcernsType weak) (weaker : strong → weak) : entry.ConcernsType strong :=
  ⟨concerns.notName, fun settled => concerns.isError (weaker settled)⟩

theorem Entry.ConcernsType.error {loc : Location} {fault : Fault} {settled : Prop}
    (notName : (Entry.error loc fault).isUndefinedName = false) :
    (Entry.error loc fault).ConcernsType settled :=
  ⟨notName, fun _ => rfl⟩

variable {name : String} {bounds : Bounds}

theorem Ty.covers_handles {ty : Ty} :
    bounds.Covers ty.handles ↔ bounds.Covers ty.kind.handles ∧
      ∀ owner ∈ ty.definedIn, bounds.holds (.module owner) = true := by
  simp [Ty.handles]

theorem Bounds.Covers.constantType {bounds : Bounds} {constant : Constant}
    (covered : bounds.Covers constant.handles) : bounds.Covers constant.ty.handles :=
  (Bounds.covers_append.mp covered).1

theorem Bounds.Covers.globalType {global : Global} (covered : bounds.Covers global.handles) :
    bounds.Covers global.ty.handles :=
  (Bounds.covers_append.mp covered).1

theorem Module.value?_covers {module : Module} {value : NamedValue}
    (covered : bounds.Covers module.handles) (isFound : module.value? name = some value) :
    bounds.Covers value.ty.handles := by
  obtain ⟨_, _, _, _, constants, globals⟩ := Module.covers_handles.mp covered
  unfold Module.value? at isFound
  split at isFound
  · next constant isConstant =>
    cases isFound
    exact (constants constant (mem_of_constant? isConstant)).constantType
  · obtain ⟨global, isGlobal, rfl⟩ := Option.map_eq_some_iff.mp isFound
    exact (globals global (mem_of_global? isGlobal)).globalType

namespace Session

variable {session : Session} {bounds : Bounds} {scope : ScopeId} {ty found declared : Ty}
  {module : Module} {missing entry : Entry} {exprs : Nat} {name : String} {value : NamedValue}
  {entries : List Entry}

theorem settled_moduleAt (settled : ∀ module ∈ session.modules, module.Settled) (id : ModuleId) :
    (session.moduleAt id).Settled :=
  forall_getD settled ⟨List.forall_mem_nil _, List.forall_mem_nil _⟩ _

/-! ## Types -/

theorem adopt_covers (adopted : adopt ty declared = .ok found)
    (covered : bounds.Covers declared.handles)
    (located : ∀ owner ∈ ty.definedIn, bounds.holds (.module owner) = true) :
    bounds.Covers found.handles := by
  unfold adopt at adopted
  split at adopted <;> cases adopted
  exact Ty.covers_handles.mpr ⟨(Ty.covers_handles.mp covered).1, located⟩

theorem classifyIn_covers (classified : classifyIn module ty = .ok found)
    (covered : bounds.Covers module.handles)
    (located : ∀ owner ∈ ty.definedIn, bounds.holds (.module owner) = true) :
    bounds.Covers found.handles := by
  obtain ⟨_, structs, objects, funcs, constants, globals⟩ := Module.covers_handles.mp covered
  cases classified_of_classifyIn classified with
  | struct isFound =>
    refine Ty.covers_handles.mpr ⟨?_, located⟩
    simpa [Ty.asStruct, Kind.handles] using structs _ (Table.mem_of_lookup isFound)
  | object isFound =>
    refine Ty.covers_handles.mpr ⟨?_, located⟩
    simpa [Ty.asObject, Kind.handles] using objects _ (Table.mem_of_lookup isFound)
  | func isFound =>
    refine Ty.covers_handles.mpr ⟨?_, located⟩
    simpa [Ty.asFunction, Kind.handles] using funcs _ (Table.mem_of_lookup isFound)
  | constant isFound adopted =>
    have held := constants _ (Module.mem_of_constant? isFound)
    rw [Ty.handles_asConst]
    exact adopt_covers adopted held.constantType located
  | global isFound adopted =>
    have held := globals _ (Module.mem_of_global? isFound)
    exact adopt_covers adopted held.globalType located

theorem CoveredBy.resolveType (covered : session.CoveredBy (session.bounds exprs))
    (resolved : session.resolveType scope ty missing = .ok found)
    (start : (session.bounds exprs).Covers ty.handles) :
    (session.bounds exprs).Covers found.handles := by
  rcases resolveType_cases resolved with rfl | ⟨owner, name, defines, classified⟩
  · exact start
  · refine classifyIn_covers classified (covered.moduleAt owner) fun other isOwner => ?_
    cases isOwner
    rcases Nat.lt_or_ge owner.index session.modules.size with held | unallocated
    · exact decide_eq_true held
    · rw [not_defines_of_unallocated unallocated] at defines
      cases defines

/-! ## Values -/

theorem CoveredBy.declaredType? (covered : session.CoveredBy bounds) {id : StructId}
    (isFound : (session.structAt id).declaredType? name = some found) :
    bounds.Covers found.handles := by
  obtain ⟨member, isMember, rfl⟩ := Option.map_eq_some_iff.mp isFound
  obtain ⟨_, members⟩ := Struct.covers_handles.mp (covered.structAt id)
  exact members member (List.mem_of_mem_take (List.mem_of_find?_eq_some isMember))

theorem CoveredBy.ownValue? (covered : session.CoveredBy bounds)
    (isFound : session.ownValue? scope name = some value) : bounds.Covers value.ty.handles := by
  cases scope with
  | module id => exact Module.value?_covers (covered.moduleAt id) isFound
  | func id =>
    obtain ⟨ty, isType, rfl⟩ := Option.map_eq_some_iff.mp isFound
    rcases Option.or_eq_some_iff.mp isType with isInbound | ⟨_, isOutbound⟩
    · exact covered.declaredType? isInbound
    · exact covered.declaredType? isOutbound
  | block id =>
    obtain ⟨ty, isType, rfl⟩ := Option.map_eq_some_iff.mp isFound
    exact covered.declaredType? isType

theorem CoveredBy.value? (covered : session.CoveredBy bounds)
    (isFound : session.value? scope name = some value) : bounds.Covers value.ty.handles := by
  obtain ⟨inner, _, isOwn⟩ := List.exists_of_findSome?_eq_some isFound
  exact covered.ownValue? isOwn

/-! ## Modules around a scope -/

theorem CoveredBy.parent? (covered : session.CoveredBy bounds) {around : ScopeId}
    (isAround : session.parent? scope = some around) : bounds.holds around.handle = true := by
  cases scope with
  | module id => cases isAround
  | func id =>
    obtain ⟨_, _, _, parents⟩ := Func.covers_handles.mp
      (covered.funcs _ (getD_mem (heldFunc_of_parent isAround)))
    exact parents around isAround
  | block id =>
    obtain ⟨_, _, parents⟩ := Block.covers_handles.mp
      (covered.blocks _ (getD_mem (heldBlock_of_parent isAround)))
    exact parents around isAround

/-- All the scopes around a scope that is held are held. -/
theorem CoveredBy.scopes (covered : session.CoveredBy bounds)
    (held : bounds.holds scope.handle = true) :
    ∀ inner ∈ session.scopes scope, bounds.holds inner.handle = true :=
  scopesUpTo_keeps (motive := fun inner => bounds.holds inner.handle = true)
    (fun _ _ _ isAround => covered.parent? isAround) held

theorem mem_scopes_of_moduleOf? {module : ModuleId} (isFound : session.moduleOf? scope = some module) :
    .module module ∈ session.scopes scope := by
  obtain ⟨inner, isScope, isModule⟩ := List.exists_of_findSome?_eq_some isFound
  split at isModule <;> cases isModule
  exact isScope

theorem CoveredBy.moduleOf? (covered : session.CoveredBy bounds) {module : ModuleId}
    (held : bounds.holds scope.handle = true) (isFound : session.moduleOf? scope = some module) :
    bounds.holds (.module module) = true :=
  covered.scopes held _ (mem_scopes_of_moduleOf? isFound)

/-! ## Reports of a failed search -/

theorem adopt_error (refused : adopt ty declared = .error entry) :
    entry.ConcernsType (declared.isUnresolved = false) := by
  unfold adopt at refused
  split at refused <;> cases refused
  next unresolved => exact ⟨rfl, fun resolved => by simp [resolved] at unresolved⟩

theorem classifyIn_error (refused : classifyIn module ty = .error entry) :
    entry.ConcernsType module.Settled := by
  unfold classifyIn at refused
  split at refused
  · cases refused
  split at refused
  · cases refused
  split at refused
  · cases refused
  split at refused
  · next constant isConstant =>
    cases adopted : adopt ty constant.ty with
    | ok found =>
      rw [adopted] at refused
      cases refused
    | error entry =>
      rw [adopted] at refused
      cases refused
      exact (adopt_error adopted).mono fun settled =>
        settled.constants constant (Module.mem_of_constant? isConstant)
  split at refused
  · next global isGlobal =>
    exact (adopt_error refused).mono fun settled =>
      settled.globals global (Module.mem_of_global? isGlobal)
  · cases refused
    exact .error rfl

theorem classify_error (refused : session.classify scope ty = .error entry) :
    entry.ConcernsType (∀ module ∈ session.modules, module.Settled) := by
  unfold classify at refused
  split at refused
  · cases refused
  split at refused
  · exact (classifyIn_error refused).mono fun settled => settled_moduleAt settled _
  · cases refused
    exact .error rfl

theorem locate_error {settled : Prop} (refused : session.locate scope ty = .error entries) :
    ∀ entry ∈ entries, entry.ConcernsType settled := by
  intro entry member
  unfold locate at refused
  split at refused
  · cases refused
  split at refused
  · cases refused
    exact (List.not_mem_nil member).elim
  split at refused
  · cases refused
    rw [List.mem_singleton.mp member]
    exact .error rfl
  · dsimp only at refused
    split at refused <;> cases refused
    exact (List.not_mem_nil member).elim

theorem adopt_resolves (adopted : adopt ty declared = .ok found) : found.isUnresolved = false := by
  unfold adopt at adopted
  split at adopted
  · cases adopted
  · next definite =>
    cases adopted
    exact Bool.eq_false_iff.mpr definite

theorem classifyIn_resolves (classified : classifyIn module ty = .ok found) :
    found.isUnresolved = false := by
  cases classified_of_classifyIn classified with
  | struct _ => rfl
  | object _ => rfl
  | func _ => rfl
  | constant _ adopted => exact (adopt_resolves adopted :)
  | global _ adopted => exact adopt_resolves adopted

theorem resolveType_resolves (resolved : session.resolveType scope ty missing = .ok found) :
    found.isUnresolved = false := by
  obtain ⟨located, _, classified⟩ := resolveType_eq_ok resolved
  unfold classify at classified
  split at classified
  · next definite =>
    cases classified
    exact (Bool.not_eq_true' _).mp definite
  split at classified
  · exact classifyIn_resolves classified
  · cases classified

/-- Something is said about a type that is not found. -/
theorem resolveType_error_ne_nil
    (refused : session.resolveType scope ty missing = .error entries) : entries ≠ [] := by
  unfold resolveType at refused
  split at refused
  · cases refused
    simp
  · split at refused
    · cases refused
      simp
    · cases refused

theorem resolveType_concerns
    (concerns : missing.ConcernsType (∀ module ∈ session.modules, module.Settled))
    (refused : session.resolveType scope ty missing = .error entries) :
    ∀ entry ∈ entries, entry.ConcernsType (∀ module ∈ session.modules, module.Settled) := by
  unfold resolveType at refused
  split at refused
  · next located isLocated =>
    cases refused
    exact List.forall_mem_append.mpr
      ⟨locate_error isLocated, List.forall_mem_singleton.mpr concerns⟩
  · split at refused
    · next classified =>
      cases refused
      exact List.forall_mem_singleton.mpr (classify_error classified)
    · cases refused

/-- A type that is not found is reported, as an error of the program. -/
theorem resolveType_error (settled : ∀ module ∈ session.modules, module.Settled)
    (concerns : missing.ConcernsType (∀ module ∈ session.modules, module.Settled))
    (refused : session.resolveType scope ty missing = .error entries) :
    entries ≠ [] ∧ ∀ entry ∈ entries, entry.IsError :=
  ⟨resolveType_error_ne_nil refused, fun entry member =>
    (resolveType_concerns concerns refused entry member).isError settled⟩

end Session

end Assay
