import Assay.Proofs.Scope.Qualification

/-!
Contract: the kind that a located type gets.
-/

namespace Assay

/-- The kind of what a module defines under a name: a struct before an object, a function, and the
type of a constant or global. -/
def Module.kind? (module : Module) (name : String) : Option Kind :=
  ((module.struct? name).map Kind.struct).or <| ((module.object? name).map Kind.object).or <|
    ((module.func? name).map Kind.function).or <| (module.value? name).map fun value => value.ty.kind

/-- A module holds no type of its own under a name. -/
structure Module.NoType (module : Module) (name : String) : Prop where
  struct : module.struct? name = none
  object : module.object? name = none
  func : module.func? name = none

namespace Ty

variable {ty declared : Ty}

def carriesDefinition (ty : Ty) : Bool :=
  ty.isStruct || ty.isObject || ty.isFunction

/-- The types are the same, count as many elements and have one runtime description. -/
structure StandsFor (ty declared : Ty) : Prop where
  same : ty.same declared = true
  count : ty.count = declared.count
  infoName : ty.infoName = declared.infoName

theorem infoName_eq_iff (kind : ty.kind = declared.kind) :
    ty.infoName = declared.infoName ↔
      (declared.carriesDefinition = true → ty.name = declared.name) := by
  rw [infoName, infoName, String.append_left_inj]
  unfold definitionName carriesDefinition isStruct struct? isObject isFunction
  rw [kind]
  cases declared.kind <;> simp

section Shape

variable (readOnly : ty.readOnly = declared.readOnly) (kind : ty.kind = declared.kind)
  (count : ty.count = declared.count)

include readOnly kind count

theorem same_iff (name : declared.carriesDefinition = true → ty.name = declared.name) :
    ty.same declared = true ↔
      declared.isString = true ∨ ty.isRef = declared.isRef ∧ ty.isConst = declared.isConst := by
  have isStruct : ty.isStruct = declared.isStruct := by
    rw [Ty.isStruct, struct?, kind]
    rfl
  have isString : ty.isString = declared.isString := by
    rw [Ty.isString, Ty.isString, kind, isStruct]
    cases isDefinition : declared.isStruct with
    | false => simp
    | true => rw [name (by simp [carriesDefinition, isDefinition])]
  simp [same, isString, isArray, isVector, kind, count, readOnly]

/-- Types of one kind and shape differ in their names and qualifiers only. -/
theorem standsFor_iff :
    ty.StandsFor declared ↔
      (declared.carriesDefinition = true → ty.name = declared.name) ∧
      (declared.isString = true ∨ ty.isRef = declared.isRef ∧ ty.isConst = declared.isConst) := by
  constructor
  · intro stands
    have name := (infoName_eq_iff kind).mp stands.infoName
    exact ⟨name, (same_iff readOnly kind count name).mp stands.same⟩
  · rintro ⟨name, agrees⟩
    exact ⟨(same_iff readOnly kind count name).mpr agrees, count, (infoName_eq_iff kind).mpr name⟩

end Shape

end Ty

namespace Session

variable {session : Session} {module : Module} {scope : ScopeId} {ty located declared found : Ty}
  {value : NamedValue} {entry : Entry} {struct : Struct} {member : Member} {slot : Nat}

def standIn (module : Module) (ty declared : Ty) : Ty :=
  { ty with
    kind := declared.kind
    count := declared.count
    isConst := module.hasConstant ty.name || ty.isConst
    readOnly := module.hasConstant ty.name || declared.readOnly }

theorem standIn_standsFor_iff (plain : ty.isRef = false)
    (constant : module.hasConstant ty.name = true → declared.asConst = declared) :
    (standIn module ty declared).StandsFor declared ↔
      (declared.carriesDefinition = true → ty.name = declared.name) ∧
      (declared.isString = true ∨ declared.isRef = false ∧
        (module.hasConstant ty.name = true ∨ ty.isConst = declared.isConst)) := by
  cases isConstant : module.hasConstant ty.name with
  | true =>
    have isConst : declared.isConst = true := by rw [← constant isConstant, Ty.asConst]
    have isReadOnly : declared.readOnly = true := by rw [← constant isConstant, Ty.asConst]
    have readOnly : (standIn module ty declared).readOnly = declared.readOnly := by
      simp [standIn, isConstant, isReadOnly]
    rw [Ty.standsFor_iff readOnly rfl rfl]
    simp [standIn, plain, isConstant, isConst]
  | false =>
    have readOnly : (standIn module ty declared).readOnly = declared.readOnly := by
      simp [standIn, isConstant]
    rw [Ty.standsFor_iff readOnly rfl rfl]
    simp [standIn, plain, isConstant]

/-- The name of a constant or global gives the kind and shape of its type, if that is known. -/
theorem classifyIn_value (noType : module.NoType ty.name)
    (isValue : module.value? ty.name = some value) :
    classifyIn module ty =
      if value.ty.isUnresolved then .error (.internal ty.loc (.unclassifiableDefinition ty.name))
      else .ok (standIn module ty value.ty) := by
  rw [classifyIn, noType.struct, noType.object, noType.func]
  unfold Module.value? at isValue
  unfold standIn Module.hasConstant
  cases isConstant : module.constant? ty.name with
  | some constant =>
    rw [isConstant] at isValue
    cases isValue
    dsimp only
    rw [adopt]
    split <;> rfl
  | none =>
    rw [isConstant] at isValue
    obtain ⟨global, isGlobal, rfl⟩ := Option.map_eq_some_iff.mp isValue
    simp only [isGlobal]
    rfl

/-- A name that a module defines has a kind, unless it is that of a constant or global whose own type
is unresolved. -/
theorem classifyIn_cases (defines : module.defines ty.name = true) :
    (∃ found, classifyIn module ty = .ok found ∧ found.isUnresolved = false ∧
      module.kind? ty.name = some found.kind) ∨
    classifyIn module ty = .error (.internal ty.loc (.unclassifiableDefinition ty.name)) ∧
      module.NoType ty.name ∧
      ∃ value, module.value? ty.name = some value ∧ value.ty.isUnresolved = true := by
  cases isStruct : module.struct? ty.name with
  | some id =>
    have isKind : module.kind? ty.name = some (.struct id) := by simp [Module.kind?, isStruct]
    exact .inl ⟨ty.asStruct id, by rw [classifyIn, isStruct], rfl, isKind⟩
  | none =>
  cases isObject : module.object? ty.name with
  | some id =>
    have isKind : module.kind? ty.name = some (.object id) := by
      simp [Module.kind?, isStruct, isObject]
    exact .inl ⟨ty.asObject id, by rw [classifyIn, isStruct, isObject], rfl, isKind⟩
  | none =>
  cases isFunc : module.func? ty.name with
  | some id =>
    have isKind : module.kind? ty.name = some (.function id) := by
      simp [Module.kind?, isStruct, isObject, isFunc]
    exact .inl ⟨ty.asFunction id, by rw [classifyIn, isStruct, isObject, isFunc], rfl, isKind⟩
  | none =>
    have noType : module.NoType ty.name := ⟨isStruct, isObject, isFunc⟩
    obtain ⟨value, isValue⟩ : ∃ value, module.value? ty.name = some value := by
      rw [← Option.isSome_iff_exists, Module.isSome_value?]
      simpa [Module.defines, isStruct, isObject, isFunc, or_comm] using defines
    have isKind : module.kind? ty.name = some value.ty.kind := by
      simp [Module.kind?, isStruct, isObject, isFunc, isValue]
    by_cases unknown : value.ty.isUnresolved = true
    · rw [classifyIn_value noType isValue, if_pos unknown]
      exact .inr ⟨rfl, noType, value, isValue, unknown⟩
    · rw [classifyIn_value noType isValue, if_neg unknown, isKind]
      exact .inl ⟨_, rfl, Bool.eq_false_iff.mpr unknown, rfl⟩

/-- A resolved type is left alone, whatever scope asks. -/
theorem classify_resolved (session : Session) (scope : ScopeId) (resolved : ty.isUnresolved = false) :
    session.classify scope ty = .ok ty := by
  simp [classify, resolved]

/-! ## Members that are not found -/

/-- A member whose type is not found keeps the type that was written. -/
theorem bindStruct_keeps_unfound {id : StructId} (owned : (session.structAt id).owner = some scope)
    (isMember : (session.structAt id).members[slot]? = some member)
    (unfound : ∀ found, session.resolveType scope member.ty
      (unboundMember (session.structAt id) member) ≠ .ok found) :
    ((session.bindStruct id).session.structAt id).members[slot]? = some member := by
  have kept := (session.bindMemberTypes_slot scope (session.structAt id) isMember).resolve_right
    fun ⟨found, resolved, _⟩ => unfound found resolved
  have noted : (session.bindMemberTypes scope (session.structAt id)
      (session.structAt id).members).2 ≠ [] := by
    intro silent
    have resolved := session.bindMemberTypes_resolved scope _ silent member (List.mem_of_getElem? kept)
    exact unfound member.ty (resolveType_definite session scope resolved _)
  unfold bindStruct
  dsimp only
  split
  · exact isMember
  rw [owned]
  dsimp only
  split
  · next silent => exact absurd silent noted
  · rw [structAt_setStruct]
    split
    · exact kept
    · exact isMember

/-! ## Main results -/

/-- A definition that was found can be bound: the type gets the kind of the first definition under
its name, and the one thing that can go wrong is a constant or global whose type is not known yet. -/
theorem found_definition_binds (session : Session) (scope : ScopeId) :
    (∀ ty located : Ty, ty.isUnresolved = true → session.locate scope ty = .ok located →
      ∃ owner, located.definedIn = some owner ∧
        ((∃ found, session.classify scope located = .ok found ∧ found.isUnresolved = false ∧
            (session.moduleAt owner).kind? located.name = some found.kind) ∨
          session.classify scope located =
            .error (.internal located.loc (.unclassifiableDefinition located.name))) ∧
        ((∃ entry, session.classify scope located = .error entry) ↔
          (session.moduleAt owner).NoType located.name ∧
          ∃ value, (session.moduleAt owner).value? located.name = some value ∧
            value.ty.isUnresolved = true)) ∧
    (∀ (id : StructId) (slot : Nat) (member : Member),
      (session.structAt id).owner = some scope →
      (session.structAt id).members[slot]? = some member →
      (∀ located, session.locate scope member.ty = .ok located →
        ∃ entry, session.classify scope located = .error entry) →
      ((session.bindStruct id).session.structAt id).members[slot]? = some member) ∧
    ∀ (elsewhere : ScopeId) (ty : Ty), ty.isUnresolved = false →
      session.classify elsewhere ty = .ok ty := by
  refine ⟨fun ty located unresolved isLocated => ?_, fun id slot member owned isMember fails => ?_,
    fun elsewhere ty resolved => session.classify_resolved elsewhere resolved⟩
  · obtain ⟨start, owner, found⟩ := (locate_eq_ok_iff unresolved).mp isLocated
    have isName : located.name = Text.baseName ty.name := by rw [found.isLocated]
    have defines : (session.moduleAt owner).defines located.name = true := isName ▸ found.defines
    refine ⟨owner, by rw [found.isLocated], ?_⟩
    rw [found.classify unresolved]
    rcases classifyIn_cases defines with known | ⟨refused, unknown⟩
    · refine ⟨.inl known, ?_⟩
      obtain ⟨_, classified, _⟩ := known
      rw [classified]
      constructor
      · rintro ⟨_, ⟨⟩⟩
      · rintro ⟨noType, value, isValue, unresolvedValue⟩
        rw [classifyIn_value noType isValue, if_pos unresolvedValue] at classified
        cases classified
    · exact ⟨.inr refused, fun _ => unknown, fun _ => ⟨_, refused⟩⟩
  · refine bindStruct_keeps_unfound owned isMember fun found resolved => ?_
    obtain ⟨located, isLocated, classified⟩ := resolveType_eq_ok resolved
    obtain ⟨entry, refused⟩ := fails located isLocated
    cases refused.symm.trans classified

/-- An object comes before the constant of its name, and the name of a global waits for its type. -/
theorem found_definition_binds_neighbours :
    let object := { Ty.ofName "b::T" .builtin with definedIn := some ⟨1⟩, name := "T" }
    let later := { Ty.ofName "b::LATER" .builtin with definedIn := some ⟨1⟩, name := "LATER" }
    (∃ found, neighbours.classify (.module ⟨0⟩) object = .ok found ∧ found.kind = .object ⟨0⟩) ∧
      neighbours.classify (.module ⟨0⟩) later =
        .error (.internal .builtin (.unclassifiableDefinition "LATER")) := by
  intro object later
  have facts : (neighbours.locate (.module ⟨0⟩) (.ofName "b::T" .builtin)).toOption = some object ∧
      (neighbours.locate (.module ⟨0⟩) (.ofName "b::LATER" .builtin)).toOption = some later ∧
      (neighbours.moduleAt ⟨1⟩).object? "T" = some ⟨0⟩ ∧
      (neighbours.moduleAt ⟨1⟩).kind? "T" = some (.object ⟨0⟩) ∧
      (neighbours.moduleAt ⟨1⟩).kind? "LATER" = some .unresolved := by decide +kernel
  obtain ⟨foundObject, foundLater, hasObject, isObject, isLater⟩ := facts
  obtain ⟨binds, _⟩ := found_definition_binds neighbours (.module ⟨0⟩)
  constructor
  · obtain ⟨owner, isOwner, ⟨found, classified, _, isKind⟩ | refused, unknown⟩ :=
      binds _ object rfl (ok_of_toOption foundObject)
    · cases isOwner
      exact ⟨found, classified, Option.some.inj (isKind.symm.trans isObject)⟩
    · cases isOwner
      cases hasObject.symm.trans (unknown.mp ⟨_, refused⟩).1.object
  · obtain ⟨owner, isOwner, ⟨found, _, known, isKind⟩ | refused, _⟩ :=
      binds _ later rfl (ok_of_toOption foundLater)
    · cases isOwner
      rw [Ty.isUnresolved, Option.some.inj (isKind.symm.trans isLater)] at known
      cases known
    · exact refused

/-- The name of a constant or global stands for the type it was declared with exactly if that type
carries no definition of another name, and is a string or no reference and as const as the type that
was written. -/
theorem symbol_names_its_type_iff {owner : ModuleId} (unresolved : ty.isUnresolved = true)
    (plain : ty.isRef = false) (isLocated : session.locate scope ty = .ok located)
    (isOwner : located.definedIn = some owner)
    (noType : (session.moduleAt owner).NoType located.name)
    (isValue : (session.moduleAt owner).value? located.name = some value)
    (known : value.ty.isUnresolved = false)
    (constant : (session.moduleAt owner).hasConstant located.name = true →
      value.ty.asConst = value.ty) :
    ∃ found, session.classify scope located = .ok found ∧ found.count = value.ty.count ∧
      (found.StandsFor value.ty ↔
        (value.ty.carriesDefinition = true → located.name = value.ty.name) ∧
        (value.ty.isString = true ∨ value.ty.isRef = false ∧
          ((session.moduleAt owner).hasConstant located.name = true ∨
            ty.isConst = value.ty.isConst))) := by
  obtain ⟨start, other, isFound⟩ := (locate_eq_ok_iff unresolved).mp isLocated
  have classified := isFound.classify unresolved
  obtain ⟨_, _, _, rfl⟩ := isFound
  cases isOwner
  refine ⟨_, classified.trans (by rw [classifyIn_value noType isValue, known]; rfl), ?_⟩
  exact ⟨rfl, standIn_standsFor_iff plain constant⟩

/-- The name of a constant stands for its built-in type. -/
theorem symbol_names_its_type_iff_small :
    let located := { Ty.ofName "b::SMALL" .builtin with definedIn := some ⟨1⟩, name := "SMALL" }
    ∃ found, neighbours.classify (.module ⟨0⟩) located = .ok found ∧
      found.StandsFor (Ty.ofKind .uint8 .builtin).asConst := by
  intro located
  have facts : (neighbours.locate (.module ⟨0⟩) (.ofName "b::SMALL" .builtin)).toOption =
        some located ∧
      (neighbours.moduleAt ⟨1⟩).struct? "SMALL" = none ∧
      (neighbours.moduleAt ⟨1⟩).object? "SMALL" = none ∧
      (neighbours.moduleAt ⟨1⟩).func? "SMALL" = none ∧
      (neighbours.moduleAt ⟨1⟩).hasConstant "SMALL" = true ∧
      ((neighbours.moduleAt ⟨1⟩).value? "SMALL").map NamedValue.ty =
        some (Ty.ofKind .uint8 .builtin).asConst := by decide +kernel
  obtain ⟨isLocated, noStruct, noObject, noFunc, isConstant, isTyped⟩ := facts
  obtain ⟨value, isValue, isType⟩ := Option.map_eq_some_iff.mp isTyped
  rw [← isType]
  obtain ⟨found, classified, _, stands⟩ := symbol_names_its_type_iff rfl rfl (ok_of_toOption isLocated)
    rfl ⟨noStruct, noObject, noFunc⟩ isValue (by rw [isType]; rfl) fun _ => by rw [isType]; rfl
  refine ⟨found, classified, stands.mpr ⟨fun carries => ?_, .inr ⟨by rw [isType]; rfl, .inl isConstant⟩⟩⟩
  rw [isType] at carries
  cases carries

/-- The name of a constant of a struct type is described under its own name and not under that of the
struct. -/
theorem origin_not_struct :
    let located := { Ty.ofName "b::ORIGIN" .builtin with definedIn := some ⟨1⟩, name := "ORIGIN" }
    (neighbours.locate (.module ⟨0⟩) (.ofName "b::ORIGIN" .builtin)).toOption = some located ∧
      (neighbours.moduleAt ⟨1⟩).kind? "ORIGIN" = some (.struct ⟨3⟩) ∧
      ((neighbours.moduleAt ⟨1⟩).constant? "ORIGIN").map (fun constant => constant.ty.infoName) =
        some "S_type" ∧
      (neighbours.classify (.module ⟨0⟩) located).toOption.map Ty.infoName =
        some "ORIGIN_type" := by
  decide +kernel

end Session

end Assay
