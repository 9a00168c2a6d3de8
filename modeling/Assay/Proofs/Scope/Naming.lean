import Assay.Proofs.Ty.Admission
import Assay.Scope.Lookup

/-!
Contract: the one struct behind the name of strings.
-/

namespace Assay.Session

variable {session : Session} {module : Module} {ty located declared found : Ty} {scope : ScopeId}
  {start owner : ModuleId} {missing : Entry}

/-- The runtime strings have their name, and every module knows them by it. -/
structure Registered (session : Session) : Prop where
  allocated : Prelude.string.index < session.structs.size
  name : (session.structAt Prelude.string).name = Kind.string.spelling
  modules : ∀ ⦃id : ModuleId⦄, id.index < session.modules.size →
    (session.moduleAt id).struct? Kind.string.spelling = some Prelude.string

theorem adopt_name (adopted : adopt ty declared = .ok found) : found.name = ty.name := by
  unfold adopt at adopted
  split at adopted
  · cases adopted
  · cases adopted
    rfl

inductive Classified (module : Module) (ty : Ty) : Ty → Prop
  | struct {id : StructId} (isFound : module.struct? ty.name = some id) :
      Classified module ty (ty.asStruct id)
  | object {id : ObjectId} (isFound : module.object? ty.name = some id) :
      Classified module ty (ty.asObject id)
  | func {id : FuncId} (isFound : module.func? ty.name = some id) :
      Classified module ty (ty.asFunction id)
  | constant {constant : Constant} {found : Ty} (isFound : module.constant? ty.name = some constant)
      (adopted : adopt ty constant.ty = .ok found) : Classified module ty found.asConst
  | global {global : Global} {found : Ty} (isFound : module.global? ty.name = some global)
      (adopted : adopt ty global.ty = .ok found) : Classified module ty found

theorem classified_of_classifyIn (classified : classifyIn module ty = .ok found) :
    Classified module ty found := by
  unfold classifyIn at classified
  split at classified
  · next isFound =>
    cases classified
    exact .struct isFound
  split at classified
  · next isFound =>
    cases classified
    exact .object isFound
  split at classified
  · next isFound =>
    cases classified
    exact .func isFound
  split at classified
  · next constant isFound =>
    obtain ⟨inner, adopted, rfl⟩ := map_eq_ok.mp classified
    exact .constant isFound adopted
  split at classified
  · next isFound => exact .global isFound classified
  · cases classified

theorem classifyIn_name (classified : classifyIn module ty = .ok found) :
    found.name = ty.name := by
  cases classified_of_classifyIn classified with
  | struct _ => rfl
  | object _ => rfl
  | func _ => rfl
  | constant _ adopted => exact (adopt_name adopted :)
  | global _ adopted => exact adopt_name adopted

/-- A module that knows the runtime strings gives their name to no other struct. -/
theorem classifyIn_canonical
    (known : module.struct? Kind.string.spelling = some Prelude.string)
    (classified : classifyIn module ty = .ok found) : found.Canonical := by
  refine .of_named fun id isStruct isNamed => ?_
  rw [classifyIn_name classified] at isNamed
  have isString : classifyIn module ty = .ok (ty.asStruct Prelude.string) := by
    rw [classifyIn, isNamed, known]
  rw [isString] at classified
  cases classified
  cases isStruct
  rfl

theorem not_defines_of_unallocated {id : ModuleId} (unallocated : session.modules.size ≤ id.index)
    (name : String) : (session.moduleAt id).defines name = false := by
  rw [moduleAt, Array.getElem?_eq_none unallocated]
  rfl

/-- A definite type is its own resolution. -/
theorem resolveType_definite (session : Session) (scope : ScopeId)
    (definite : ty.isUnresolved = false) (missing : Entry) :
    session.resolveType scope ty missing = .ok ty := by
  simp [resolveType, locate, classify, definite]

theorem resolveType_eq_ok (resolved : session.resolveType scope ty missing = .ok found) :
    ∃ located, session.locate scope ty = .ok located ∧
      session.classify scope located = .ok found := by
  unfold resolveType at resolved
  split at resolved
  · cases resolved
  next located isLocated =>
  split at resolved <;> cases resolved
  next classified => exact ⟨located, isLocated, classified⟩

theorem locate_followed (unresolved : ty.isUnresolved = true)
    (around : session.moduleOf? scope = some start)
    (followed : session.followImports start (Text.qualifiers ty.name) = .ok owner) :
    session.locate scope ty =
      if (session.moduleAt owner).defines (Text.baseName ty.name) then
        .ok { ty with definedIn := some owner, name := Text.baseName ty.name }
      else .error [] := by
  simp [locate, unresolved, around, followed]

/-- What is known of a type that was located. -/
structure Located (session : Session) (scope : ScopeId) (ty located : Ty) (start owner : ModuleId) :
    Prop where
  around : session.moduleOf? scope = some start
  followed : session.followImports start (Text.qualifiers ty.name) = .ok owner
  defines : (session.moduleAt owner).defines (Text.baseName ty.name) = true
  isLocated : located = { ty with definedIn := some owner, name := Text.baseName ty.name }

theorem locate_eq_ok_iff (unresolved : ty.isUnresolved = true) :
    session.locate scope ty = .ok located ↔
      ∃ start owner, session.Located scope ty located start owner := by
  constructor
  · intro isLocated
    unfold locate at isLocated
    simp only [unresolved, Bool.not_true, Bool.false_eq_true, if_false] at isLocated
    split at isLocated
    · cases isLocated
    next start around =>
    split at isLocated
    · cases isLocated
    next owner followed =>
    split at isLocated <;> cases isLocated
    next defines => exact ⟨start, owner, around, followed, defines, rfl⟩
  · rintro ⟨start, owner, found⟩
    rw [locate_followed unresolved found.around found.followed, if_pos found.defines,
      found.isLocated]

theorem Located.classify (unresolved : ty.isUnresolved = true)
    (isLocated : session.Located scope ty located start owner) :
    session.classify scope located = classifyIn (session.moduleAt owner) located := by
  obtain ⟨around, _, _, rfl⟩ := isLocated
  have still : ({ ty with definedIn := some owner, name := Text.baseName ty.name } :
    Ty).isUnresolved = true := unresolved
  simp only [Session.classify, still, around, Bool.not_true, Bool.false_eq_true, if_false]

/-- A resolved type was definite, or it gets its kind from a module that defines its name. -/
theorem resolveType_cases (resolved : session.resolveType scope ty missing = .ok found) :
    found = ty ∨ ∃ owner name, (session.moduleAt owner).defines name = true ∧
      classifyIn (session.moduleAt owner) { ty with definedIn := some owner, name } =
        .ok found := by
  by_cases unresolved : ty.isUnresolved = true
  · obtain ⟨located, isLocated, classified⟩ := resolveType_eq_ok resolved
    obtain ⟨start, owner, located⟩ := (locate_eq_ok_iff unresolved).mp isLocated
    rw [located.classify unresolved, located.isLocated] at classified
    exact .inr ⟨owner, _, located.defines, classified⟩
  · rw [resolveType_definite session scope (Bool.eq_false_iff.mpr unresolved)] at resolved
    cases resolved
    exact .inl rfl

/-- Resolution leads from canonical types to canonical types. -/
theorem Registered.resolveType_canonical (registered : session.Registered)
    (canonical : ty.Canonical) (resolved : session.resolveType scope ty missing = .ok found) :
    found.Canonical := by
  rcases resolveType_cases resolved with rfl | ⟨owner, name, defines, classified⟩
  · exact canonical
  · by_cases allocated : owner.index < session.modules.size
    · exact classifyIn_canonical (registered.modules allocated) classified
    · rw [not_defines_of_unallocated (Nat.le_of_not_lt allocated)] at defines
      cases defines

end Assay.Session
