import Assay.Proofs.Scope.Boundness
import Assay.Proofs.Scope.Classification

/-!
Contract: what it takes to bind a struct.
-/

namespace Assay

namespace Module

variable {before middle after : Module} {own : ModuleId} {table name : String} {kind : Kind}

theorem isSome_kind? (module : Module) (name : String) :
    (module.kind? name).isSome = module.defines name := by
  simp [kind?, defines, isSome_value?, Bool.or_assoc, Bool.or_comm (module.hasGlobal name)]

/-- The same definitions of types, more constants of definite types, and globals for one table. -/
structure Adds (table : String) (before after : Module) : Prop extends before.Annotated after where
  constants : ∃ added, after.constantTable = before.constantTable ++ added ∧
    ∀ entry ∈ added, entry.2.ty.isUnresolved = false
  globals : ∃ added, after.globalTable = before.globalTable ++ added ∧ ∀ entry ∈ added, entry.1 = table

namespace Adds

theorem refl (table : String) (module : Module) : module.Adds table module :=
  ⟨.refl module, ⟨[], by simp⟩, ⟨[], by simp⟩⟩

theorem trans (first : before.Adds table middle) (second : middle.Adds table after) :
    before.Adds table after := by
  obtain ⟨constants, isConstants, definite⟩ := first.constants
  obtain ⟨moreConstants, areConstants, moreDefinite⟩ := second.constants
  obtain ⟨globals, isGlobals, named⟩ := first.globals
  obtain ⟨moreGlobals, areGlobals, moreNamed⟩ := second.globals
  refine ⟨first.toAnnotated.trans second.toAnnotated, ⟨constants ++ moreConstants, ?_,
    List.forall_mem_append.mpr ⟨definite, moreDefinite⟩⟩, globals ++ moreGlobals, ?_,
    List.forall_mem_append.mpr ⟨named, moreNamed⟩⟩
  · rw [areConstants, isConstants, List.append_assoc]
  · rw [areGlobals, isGlobals, List.append_assoc]

theorem hasGlobal (adds : before.Adds table after) (different : name ≠ table) :
    after.hasGlobal name = before.hasGlobal name := by
  obtain ⟨added, isGlobals, named⟩ := adds.globals
  have absent : added.lookup name = none := by
    refine Table.lookup_eq_none.mpr fun member => ?_
    obtain ⟨entry, isEntry, rfl⟩ := List.mem_map.mp member
    exact different (named entry isEntry)
  rw [Module.hasGlobal, Module.hasGlobal, global?, global?, isGlobals, List.lookup_append, absent,
    Option.or_none]

/-- A new constant hides the global of its name, so that its type has to be definite. -/
theorem kind? (adds : before.Adds table after)
    (known : ∃ kind ∈ before.kind? name, kind ≠ .unresolved) :
    ∃ kind ∈ after.kind? name, kind ≠ .unresolved := by
  have through : ∀ (first : Option Kind) {second later : Option Kind},
      ((∃ kind ∈ second, kind ≠ .unresolved) → ∃ kind ∈ later, kind ≠ .unresolved) →
      (∃ kind ∈ first.or second, kind ≠ .unresolved) → ∃ kind ∈ first.or later, kind ≠ .unresolved := by
    rintro (_ | _) _ _ lasts known
    · exact lasts known
    · exact known
  unfold Module.kind? struct? object? func? at known ⊢
  rw [adds.structs, adds.objects, adds.funcs]
  refine through _ (through _ (through _ ?_)) known
  rintro ⟨kind, isKind, definite⟩
  obtain ⟨constants, isConstants, allDefinite⟩ := adds.constants
  obtain ⟨globals, isGlobals, _⟩ := adds.globals
  unfold value? constant? global? at isKind ⊢
  rw [isConstants, isGlobals, List.lookup_append, List.lookup_append]
  cases isOld : before.constantTable.lookup name with
  | some constant =>
    rw [isOld] at isKind
    exact ⟨kind, isKind, definite⟩
  | none =>
    rw [isOld] at isKind
    rw [Option.none_or]
    cases isNew : constants.lookup name with
    | some constant =>
      exact ⟨_, rfl, of_decide_eq_false (allDefinite _ (Table.mem_of_lookup isNew))⟩
    | none =>
      obtain ⟨value, isValue, rfl⟩ := Option.map_eq_some_iff.mp isKind
      obtain ⟨global, isGlobal, rfl⟩ := Option.map_eq_some_iff.mp isValue
      exact ⟨_, by rw [isGlobal]; rfl, definite⟩

end Adds

theorem findString_adds (module : Module) (own : ModuleId) (text : String) (loc : Location) :
    module.Adds table (module.findString own text loc).2 := by
  refine ⟨module.findString_annotated own text loc, ?_, [], ?_, List.forall_mem_nil _⟩
  · rcases module.findString_cases own text loc with ⟨same, _⟩ | ⟨_, held, installs⟩
    · exact ⟨[], by simp [same]⟩
    · refine ⟨[(held.name, held)], installs.lists.constantTable, List.forall_mem_singleton.mpr ?_⟩
      rw [installs.ty]
      rfl
  · rw [globalTable_findString, List.append_nil]

theorem addGlobal_adds {global : Global} (added : before.addGlobal own global = .ok after) :
    before.Adds global.name after := by
  have annotated := addGlobal_annotated added
  obtain ⟨_, rfl⟩ := addGlobal_appended added
  exact ⟨annotated, ⟨[], (List.append_nil _).symm, List.forall_mem_nil _⟩, _, rfl,
    List.forall_mem_singleton.mpr rfl⟩

end Module

namespace Session

variable {base session before after : Session} {module : ModuleId} {scope : ScopeId}
  {id other : StructId} {struct : Struct} {ty : Ty}

/-! ## Types that resolve -/

theorem classifyIn_ok_iff {module : Module} : (∃ found, classifyIn module ty = .ok found) ↔
    ∃ kind ∈ module.kind? ty.name, kind ≠ .unresolved := by
  constructor
  · rintro ⟨found, classified⟩
    have defines : module.defines ty.name = true := by
      cases classified_of_classifyIn classified with
      | struct isFound | object isFound | func isFound | constant isFound _ | global isFound _ =>
        simp [Module.defines, Module.hasConstant, Module.hasGlobal, isFound]
    rcases classifyIn_cases defines with ⟨_, _, definite, isKind⟩ | ⟨refused, _⟩
    · exact ⟨_, isKind, of_decide_eq_false definite⟩
    · cases classified.symm.trans refused
  · rintro ⟨kind, isKind, definite⟩
    have defines : module.defines ty.name = true := by
      rw [← module.isSome_kind?, isKind]
      rfl
    rcases classifyIn_cases defines with ⟨found, classified, _⟩ | ⟨_, noType, value, isValue, unknown⟩
    · exact ⟨found, classified⟩
    · refine absurd (of_decide_eq_true unknown) fun isUnresolved => definite ?_
      rw [Module.kind?, noType.struct, noType.object, noType.func, isValue] at isKind
      exact (Option.some.inj isKind).symm.trans isUnresolved

/-- A type that is still open is located from a scope and gets the kind of a definition. -/
def Resolves (session : Session) (scope : ScopeId) (ty : Ty) : Prop :=
  ty.isUnresolved = true → ∃ located found, session.locate scope ty = .ok located ∧
    session.classify scope located = .ok found

theorem resolves_of_definite (definite : ty.isUnresolved = false) : session.Resolves scope ty :=
  fun unresolved => by simp [definite] at unresolved

theorem resolves_iff (missing : Entry) : session.Resolves scope ty ↔
    ∃ found, session.resolveType scope ty missing = .ok found := by
  constructor
  · intro resolves
    by_cases unresolved : ty.isUnresolved = true
    · obtain ⟨located, found, isLocated, classified⟩ := resolves unresolved
      exact ⟨found, by simp [resolveType, isLocated, classified]⟩
    · exact ⟨ty, resolveType_definite session scope (Bool.eq_false_iff.mpr unresolved) missing⟩
  · rintro ⟨found, resolved⟩ _
    obtain ⟨located, isLocated, classified⟩ := resolveType_eq_ok resolved
    exact ⟨located, found, isLocated, classified⟩

theorem followImports_congr (imports : ∀ id, (after.moduleAt id).imports = (before.moduleAt id).imports)
    (start : ModuleId) (names : List String) :
    after.followImports start names = before.followImports start names := by
  induction names generalizing start with
  | nil => rfl
  | cons name rest ih => simp only [followImports, Module.import?, imports, ih]

theorem Resolves.mono {table : String} (resolves : before.Resolves scope ty)
    (adds : ∀ id, (before.moduleAt id).Adds table (after.moduleAt id))
    (around : after.moduleOf? scope = before.moduleOf? scope) : after.Resolves scope ty := by
  intro unresolved
  obtain ⟨located, found, isLocated, classified⟩ := resolves unresolved
  obtain ⟨start, owner, isFound⟩ := (locate_eq_ok_iff unresolved).mp isLocated
  rw [isFound.classify unresolved] at classified
  have known := (adds owner).kind? (classifyIn_ok_iff.mp ⟨found, classified⟩)
  obtain ⟨later, stillClassified⟩ := classifyIn_ok_iff.mpr known
  have followed := (followImports_congr (fun id => (adds id).imports) start _).trans isFound.followed
  have isLater : after.Located scope ty located start owner := by
    obtain ⟨kind, isKind, _⟩ := known
    rw [isFound.isLocated] at isKind
    have defines := (after.moduleAt owner).isSome_kind? _ ▸ Option.isSome_of_mem isKind
    exact ⟨around.trans isFound.around, followed, defines, isFound.isLocated⟩
  exact ⟨located, later, (locate_eq_ok_iff unresolved).mpr ⟨start, owner, isLater⟩,
    (isLater.classify unresolved).trans stillClassified⟩

theorem bindMemberTypes_eq_nil (session : Session) (scope : ScopeId) (struct : Struct)
    (members : List Member) :
    (session.bindMemberTypes scope struct members).2 = [] ↔
      ∀ member ∈ members, session.Resolves scope member.ty := by
  induction members with
  | nil => simp [bindMemberTypes]
  | cons member rest ih =>
    rw [bindMemberTypes, List.forall_mem_cons, resolves_iff (unboundMember struct member)]
    split
    · next refused => simp [refused, resolveType_error_ne_nil refused]
    · next resolved => simp [resolved, ih]

/-! ## Tables -/

def TableFree (session : Session) (module : ModuleId) (id : StructId) : Prop :=
  (session.moduleAt module).hasGlobal (attrTableName (session.structAt id).name) = false

theorem globalTable_attrRows (session : Session) (module home : ModuleId) (members : List Member) :
    (((attrRows module members).run session).2.moduleAt home).globalTable =
      (session.moduleAt home).globalTable := by
  refine attrRows_keeps (fun text loc later (same : (later.moduleAt home).globalTable = _) => ?_)
    members session rfl
  rw [Edit.findString_run]
  dsimp only
  rw [moduleAt_setModule, ← same]
  split
  · next isHome => rw [Module.globalTable_findString, isHome.1]
  · rfl

/-- What binding a struct can change: the struct itself, and what modules hold beside their
definitions of types. -/
structure Confined (id : StructId) (before after : Session) : Prop where
  name : (after.structAt id).name = (before.structAt id).name
  others : ∀ other, other ≠ id → after.structAt other = before.structAt other
  adds : ∀ home, (before.moduleAt home).Adds (attrTableName (before.structAt id).name)
    (after.moduleAt home)

theorem Confined.modifyStruct (confined : base.Confined id session) {change : Struct → Struct}
    (name : (change (session.structAt id)).name = (session.structAt id).name) :
    base.Confined id (session.modifyStruct id change) := by
  refine ⟨?_, fun other different => ?_, confined.adds⟩
  · rw [structAt_modifyStruct, ← confined.name]
    split
    · exact name
    · rfl
  · rw [structAt_modifyStruct, if_neg fun same => different same.1.symm]
    exact confined.others other different

theorem Confined.setModule (confined : base.Confined id session) {changed : Module}
    (adds : (session.moduleAt module).Adds (attrTableName (base.structAt id).name) changed) :
    base.Confined id (session.setModule module changed) := by
  refine ⟨confined.name, confined.others, fun home => ?_⟩
  rw [moduleAt_setModule]
  split
  · next isHome => exact isHome.1 ▸ (confined.adds module).trans adds
  · exact confined.adds home

theorem lastsBinding_confined (base : Session) (id : StructId) :
    LastsBinding id (base.Confined id) where
  table := fun {session _ module} confined _ _ => by
    have isTable := congrArg attrTableName confined.name
    refine (Stopping.Keeps.lift (attrRows_keeps (fun text loc later confined =>
      confined.setModule ((later.moduleAt module).findString_adds module text loc)) _)).bind
      (fun rows => Edit.changeModule_keeps fun confined added => confined.setModule ?_)
      session confined
    exact isTable ▸ Module.addGlobal_adds added
  types := fun _ confined => confined.modifyStruct rfl
  mark := fun confined => confined.modifyStruct rfl

theorem bindStruct_confined (session : Session) (id : StructId) :
    session.Confined id (session.bindStruct id).session :=
  (lastsBinding_confined session id).bindStruct ⟨rfl, fun _ _ => rfl, fun _ => .refl _ _⟩

/-- The table of a struct is refused exactly if its name is taken. -/
theorem finishBinding_ok (home : session.moduleOf? scope = some module) :
    (session.finishBinding id scope).ok =
      !(session.moduleAt module).hasGlobal (attrTableName (session.structAt id).name) := by
  have same := Module.hasGlobal_of_globals
    (session.globalTable_attrRows module module (session.structAt id).members)
  unfold finishBinding
  dsimp only
  rw [home]
  dsimp only
  rw [addAttrTable_run]
  generalize (attrRows module (session.structAt id).members).run session = rows at same ⊢
  rw [← same]
  cases taken : (rows.2.moduleAt module).hasGlobal (attrTableName (session.structAt id).name) with
  | true =>
    rw [Edit.addGlobal, Edit.changeModule_error _ (if_pos taken)]
    rfl
  | false =>
    rw [Edit.addGlobal_free taken]
    rfl

theorem bindStruct_ok_iff (unbound : (session.structAt id).isBound = false)
    (owner : (session.structAt id).owner = some scope) (home : session.moduleOf? scope = some module) :
    (session.bindStruct id).ok = true ↔
      (∀ member ∈ (session.structAt id).members, session.Resolves scope member.ty) ∧
        session.TableFree module id := by
  have resolves := session.bindMemberTypes_eq_nil scope (session.structAt id)
    (session.structAt id).members
  have finished := @finishBinding_ok (session.setStruct id { session.structAt id with
    members := (session.bindMemberTypes scope (session.structAt id)
      (session.structAt id).members).1 }) module scope id
    ((session.moduleOf?_modifyStruct id _ scope).trans home)
  rw [structAt_setStruct, if_pos ⟨rfl, held_of_owner owner⟩] at finished
  unfold bindStruct
  dsimp only
  rw [if_neg (Bool.eq_false_iff.mp unbound)]
  split
  · next absent => cases owner.symm.trans absent
  next other isOwner =>
  cases owner.symm.trans isOwner
  split
  · next silent =>
    dsimp only
    rw [finished, Bool.not_eq_true']
    exact ⟨fun free => ⟨resolves.mp silent, free⟩, And.right⟩
  · next failed => exact ⟨nofun, fun all => absurd (resolves.mpr all.1) failed⟩

/-- The members of a struct that belongs into a module have types that resolve. -/
def Resolvable (session : Session) (module : ModuleId) (id : StructId) : Prop :=
  ∃ scope, (session.structAt id).owner = some scope ∧ session.moduleOf? scope = some module ∧
    ∀ member ∈ (session.structAt id).members, session.Resolves scope member.ty

theorem Resolvable.ok_iff (resolvable : session.Resolvable module id)
    (unbound : (session.structAt id).isBound = false) :
    (session.bindStruct id).ok = true ↔ session.TableFree module id := by
  obtain ⟨scope, owner, home, resolves⟩ := resolvable
  rw [bindStruct_ok_iff unbound owner home]
  exact and_iff_right resolves

theorem Resolvable.bindStruct (resolvable : session.Resolvable module other)
    (different : other ≠ id) : (session.bindStruct id).session.Resolvable module other := by
  obtain ⟨scope, owner, home, resolves⟩ := resolvable
  have confined := session.bindStruct_confined id
  have around := (session.bindStruct_sameOwners id).moduleOf? scope
  rw [Resolvable, confined.others other different]
  exact ⟨scope, owner, around.trans home, fun member isMember =>
    (resolves member isMember).mono confined.adds around⟩

theorem tableFree_bindStruct (different : other ≠ id)
    (names : (session.structAt other).name ≠ (session.structAt id).name) :
    (session.bindStruct id).session.TableFree module other ↔ session.TableFree module other := by
  have confined := session.bindStruct_confined id
  rw [TableFree, TableFree, confined.others other different, (confined.adds module).hasGlobal]
  exact fun isTable => names (String.append_left_inj "_attr_table" |>.mp isTable)

/-- A table that has been added is in the way of the other structs of its name. -/
theorem not_tableFree_bindStruct (consistent : session.Consistent) (different : other ≠ id)
    (resolvable : session.Resolvable module id) (unbound : (session.structAt id).isBound = false)
    (names : (session.structAt other).name = (session.structAt id).name)
    (ok : (session.bindStruct id).ok = true) :
    ¬(session.bindStruct id).session.TableFree module other := by
  obtain ⟨scope, owner, home, _⟩ := resolvable
  have confined := session.bindStruct_confined id
  have changes : Changes True .binding session (session.bindStruct id).session :=
    bindStruct_changes consistent id
  have isBound := (bindStruct_of_ok (held_of_owner owner) ok).1
  obtain ⟨place, _, isHome, ⟨global, found, _⟩, _⟩ := Changes.complete changes consistent
    (fun wasBound => absurd wasBound (Bool.eq_false_iff.mp unbound)) isBound
  rw [(session.bindStruct_sameOwners id).home?, home?, owner, Option.bind_some, home] at isHome
  cases isHome
  rw [confined.name, ← names] at found
  simp [TableFree, confined.others other different, Module.hasGlobal, found]

/-! ## Main results -/

/-- Binding succeeds exactly if the types of the members resolve and the module has no global of the
name of the table yet. So two structs of one module whose members resolve are both bound, one after
the other, exactly if they have different names and both names of tables are free. -/
theorem binding_succeeds_iff (reachable : session.Reachable)
    (unbound : (session.structAt id).isBound = false) :
    (∀ scope module, (session.structAt id).owner = some scope →
      session.moduleOf? scope = some module →
      ((session.bindStruct id).ok = true ↔
        (∀ member ∈ (session.structAt id).members, session.Resolves scope member.ty) ∧
          session.TableFree module id)) ∧
    ∀ module other, other ≠ id → (session.structAt other).isBound = false →
      session.Resolvable module id → session.Resolvable module other →
      ((session.bindStruct id).ok = true ∧
          ((session.bindStruct id).session.bindStruct other).ok = true ↔
        (session.structAt other).name ≠ (session.structAt id).name ∧
          session.TableFree module id ∧ session.TableFree module other) := by
  refine ⟨fun scope module owner home => bindStruct_ok_iff unbound owner home,
    fun module other different unboundOther first second => ?_⟩
  rw [← (session.bindStruct_confined id).others other different] at unboundOther
  rw [(second.bindStruct different).ok_iff unboundOther]
  by_cases names : (session.structAt other).name = (session.structAt id).name
  · have blocked := not_tableFree_bindStruct reachable.consistent different first unbound names
    exact ⟨fun both => absurd both.2 (blocked both.1), fun all => absurd names all.1⟩
  · rw [tableFree_bindStruct different names, first.ok_iff unbound]
    exact (and_iff_right names).symm

/-- The variables of two blocks of a function are both bound, in either order. -/
theorem binding_succeeds_iff_blocks :
    let operations : List Operation := [.newModule "m" .builtin, .newFunc "f" .builtin,
      .newBlock none ⟨"a.src", 1, 1⟩, .newBlock none ⟨"a.src", 2, 1⟩, .attachBlock ⟨0⟩ .mainline ⟨0⟩,
      .attachBlock ⟨0⟩ .ensure ⟨1⟩, .addFunc ⟨0⟩ ⟨0⟩]
    let session := Operation.runAll (ofTarget {}) operations
    ((session.bindStruct ⟨5⟩).ok = true ∧
      ((session.bindStruct ⟨5⟩).session.bindStruct ⟨6⟩).ok = true) ∧
    (session.bindStruct ⟨6⟩).ok = true ∧
      ((session.bindStruct ⟨6⟩).session.bindStruct ⟨5⟩).ok = true := by
  intro operations session
  have facts : Operation.AllocatedAll (ofTarget {}) operations ∧
      (session.structAt ⟨6⟩).name ≠ (session.structAt ⟨5⟩).name ∧
      ∀ index < 2, (session.structAt ⟨index + 5⟩).isBound = false ∧
        (session.structAt ⟨index + 5⟩).owner = some (.block ⟨index⟩) ∧
        session.moduleOf? (.block ⟨index⟩) = some ⟨0⟩ ∧
        (∀ member ∈ (session.structAt ⟨index + 5⟩).members, member.ty.isUnresolved = false) ∧
        session.TableFree ⟨0⟩ ⟨index + 5⟩ := by
    unfold TableFree
    decide +kernel
  obtain ⟨allocated, names, blocks⟩ := facts
  have reachable : session.Reachable := ⟨{}, _, allocated, rfl⟩
  have resolvable : ∀ index < 2, session.Resolvable ⟨0⟩ ⟨index + 5⟩ := fun index small => by
    obtain ⟨_, owner, home, definite, _⟩ := blocks index small
    exact ⟨_, owner, home, fun member isMember => resolves_of_definite (definite member isMember)⟩
  obtain ⟨unbound, _, _, _, free⟩ := blocks 0 (by decide)
  obtain ⟨unboundOther, _, _, _, freeOther⟩ := blocks 1 (by decide)
  have first := resolvable 0 (by decide)
  have second := resolvable 1 (by decide)
  exact ⟨((binding_succeeds_iff reachable unbound).2 ⟨0⟩ ⟨6⟩ (by decide) unboundOther first second).mpr
      ⟨names, free, freeOther⟩,
    ((binding_succeeds_iff reachable unboundOther).2 ⟨0⟩ ⟨5⟩ (by decide) unbound second first).mpr
      ⟨names.symm, freeOther, free⟩⟩

/-- Blocks of two functions that stand at one place of two files: the table of the one is in the way
of the other, in either order. -/
theorem blocks_share_table_name :
    let session := Operation.runAll (ofTarget {}) [.newModule "m" .builtin, .newFunc "f" .builtin,
      .newFunc "g" .builtin, .newBlock none ⟨"a.src", 1, 1⟩, .newBlock none ⟨"b.src", 1, 1⟩,
      .attachBlock ⟨0⟩ .mainline ⟨0⟩, .attachBlock ⟨1⟩ .mainline ⟨1⟩, .addFunc ⟨0⟩ ⟨0⟩,
      .addFunc ⟨0⟩ ⟨1⟩]
    (∀ member ∈ (session.structAt ⟨7⟩).members ++ (session.structAt ⟨8⟩).members,
        member.ty.isUnresolved = false) ∧
      (session.bindStruct ⟨7⟩).ok = true ∧
      ((session.bindStruct ⟨7⟩).session.bindStruct ⟨8⟩).ok = false ∧
      (session.bindStruct ⟨8⟩).ok = true ∧
      ((session.bindStruct ⟨8⟩).session.bindStruct ⟨7⟩).ok = false := by
  decide +kernel

end Session

end Assay
