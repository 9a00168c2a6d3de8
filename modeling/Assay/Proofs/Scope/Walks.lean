import Assay.Proofs.Scope.Grounding

/-!
Contract: searches that check every handle they follow.
-/

namespace Assay

namespace Session

/-! ## Searches with checks

Each one is `none` if a handle is read that stands for no definition, or if the walk takes more
steps than it is allowed to. -/

namespace Checked

variable (session : Session)

def parent? : ScopeId → Option (Option ScopeId)
  | .module id => (session.modules[id.index]?).map fun _ => none
  | .func id => (session.funcs[id.index]?).map Func.parent
  | .block id => (session.blocks[id.index]?).map Block.parent

/-- Ask a scope, then the scopes around it, until one of them has an answer. -/
def seek {α : Type} (ask : ScopeId → Option (Option α)) : Nat → ScopeId → Option (Option α)
  | 0, _ => none
  | visits + 1, scope =>
      (ask scope).bind fun answer? =>
        match answer? with
        | some answer => some (some answer)
        | none =>
            (parent? session scope).bind fun around? =>
              match around? with
              | some around => seek ask visits around
              | none => some none

def asModule : ScopeId → Option ModuleId
  | .module id => some id
  | _ => none

def moduleOf? (visits : Nat) (scope : ScopeId) : Option (Option ModuleId) :=
  seek session (fun inner => some (asModule inner)) visits scope

/-! Values -/

def parameterType? (func : Func) (name : String) : Option (Option Ty) := do
  let inbound ← session.structs[func.inbound.index]?
  let outbound ← session.structs[func.outbound.index]?
  return (inbound.declaredType? name).or (outbound.declaredType? name)

def variableType? (block : Block) (name : String) : Option (Option Ty) := do
  let vars ← session.structs[block.vars.index]?
  return vars.declaredType? name

def declares (scope : ScopeId) (name : String) : Option Bool :=
  match scope with
  | .module id => do
      let module ← session.modules[id.index]?
      return module.hasGlobal name || module.hasConstant name
  | .func id => do
      let func ← session.funcs[id.index]?
      return (← parameterType? session func name).isSome
  | .block id => do
      let block ← session.blocks[id.index]?
      return (← variableType? session block name).isSome

def ownValue? (scope : ScopeId) (name : String) : Option (Option NamedValue) :=
  match scope with
  | .module id => do
      let module ← session.modules[id.index]?
      return module.value? name
  | .func id => do
      let func ← session.funcs[id.index]?
      return (← parameterType? session func name).map fun ty => ⟨ty, none⟩
  | .block id => do
      let block ← session.blocks[id.index]?
      return (← variableType? session block name).map fun ty => ⟨ty, none⟩

def sees (visits : Nat) (scope : ScopeId) (name : String) : Option Bool :=
  (seek session (fun inner => (declares session inner name).map (Option.guard id)) visits scope).map
    Option.isSome

def value? (visits : Nat) (scope : ScopeId) (name : String) : Option (Option NamedValue) :=
  seek session (fun inner => ownValue? session inner name) visits scope

/-! Type names -/

def followImports (start : ModuleId) : List String → Option (Except String ModuleId)
  | [] => some (.ok start)
  | name :: rest =>
      (session.modules[start.index]?).bind fun module =>
        match module.import? name with
        | some next => followImports next rest
        | none => some (.error name)

def locate (visits : Nat) (scope : ScopeId) (ty : Ty) : Option (Except (List Entry) Ty) :=
  if !ty.isUnresolved then some (.ok ty)
  else
    (moduleOf? session visits scope).bind fun start? =>
      match start? with
      | none => some (.error [])
      | some start =>
          (followImports session start (Text.qualifiers ty.name)).bind fun followed =>
            match followed with
            | .error missing => some (.error [.error ty.loc (.missingImport ty.name missing)])
            | .ok owner =>
                (session.modules[owner.index]?).bind fun module =>
                  let name := Text.baseName ty.name
                  if module.defines name then
                    some (.ok { ty with definedIn := some module.own, name := name })
                  else
                    some (.error [])

/-- A module that does not define a type hands it over to the module that does. -/
def classifyFrom (ty : Ty) : Nat → ModuleId → Option (Except Entry Ty)
  | 0, _ => none
  | visits + 1, id =>
      (session.modules[id.index]?).bind fun module =>
        match ty.definedIn with
        | none => some (.error (.error ty.loc (.noDefinitionScope ty.name)))
        | some owner =>
            if owner = module.own then some (classifyIn module ty)
            else classifyFrom ty visits owner

def classify (visits handovers : Nat) (scope : ScopeId) (ty : Ty) : Option (Except Entry Ty) :=
  if !ty.isUnresolved then some (.ok ty)
  else
    (moduleOf? session visits scope).bind fun module? =>
      match module? with
      | none => some (.error (.error ty.loc (.noDefinitionScope ty.name)))
      | some module => classifyFrom session ty handovers module

end Checked

/-! ## Checks that pass -/

namespace Checked

variable {session : Session} {bounds : Bounds} {scope : ScopeId} {name : String}

/-! A definition that is held is read as it is. -/

theorem read_module {id : ModuleId} (held : id.index < session.modules.size) :
    session.modules[id.index]? = some (session.moduleAt id) := by
  rw [moduleAt, Array.getElem?_eq_getElem held]
  rfl

theorem read_struct {id : StructId} (held : id.index < session.structs.size) :
    session.structs[id.index]? = some (session.structAt id) := by
  rw [structAt, Array.getElem?_eq_getElem held]
  rfl

theorem read_func {id : FuncId} (held : id.index < session.funcs.size) :
    session.funcs[id.index]? = some (session.funcAt id) := by
  rw [funcAt, Array.getElem?_eq_getElem held]
  rfl

theorem read_block {id : BlockId} (held : id.index < session.blocks.size) :
    session.blocks[id.index]? = some (session.blockAt id) := by
  rw [blockAt, Array.getElem?_eq_getElem held]
  rfl

variable (within : session.Within bounds)

include within

theorem parent?_eq (held : bounds.holds scope.handle = true) :
    parent? session scope = some (session.parent? scope) := by
  cases scope with
  | module id => rw [parent?, read_module (within.heldModule held)]; rfl
  | func id => rw [parent?, read_func (within.heldFunc held)]; rfl
  | block id => rw [parent?, read_block (within.heldBlock held)]; rfl

variable (consistent : session.Consistent)

include consistent

/-- Every scope on the way has an answer, and as many visits as its depth are enough. -/
theorem seek_eq {α : Type} {ask : ScopeId → Option (Option α)} {answer : ScopeId → Option α}
    (asked : ∀ inner, bounds.holds inner.handle = true → ask inner = some (answer inner))
    {visits : Nat} (enough : depth scope < visits) (held : bounds.holds scope.handle = true) :
    seek session ask visits scope = some ((session.scopes scope).findSome? answer) := by
  induction visits generalizing scope with
  | zero => cases enough
  | succ visits ih =>
    rw [seek, asked scope held, Option.bind_some, consistent.nested.scopes_eq,
      List.findSome?_cons]
    cases answer scope with
    | some found => rfl
    | none =>
      dsimp only
      rw [parent?_eq within held, Option.bind_some]
      cases isAround : session.parent? scope with
      | none => rfl
      | some around =>
        have closer := consistent.nested.depth_parent? isAround
        exact ih (by omega) (within.covered.parent? isAround)

theorem moduleOf?_eq {visits : Nat} (enough : depth scope < visits)
    (held : bounds.holds scope.handle = true) :
    moduleOf? session visits scope = some (session.moduleOf? scope) := by
  rw [moduleOf?, seek_eq within consistent (fun _ _ => rfl) enough held, Session.moduleOf?]
  rfl

/-! Values -/

omit consistent in
theorem parameterType?_eq {id : FuncId} (held : bounds.holds (.func id) = true) :
    parameterType? session (session.funcAt id) name =
      some (session.parameterType? (session.funcAt id) name) := by
  have covers : bounds.Covers (session.funcAt id).handles :=
    within.covered.funcs _ (getD_mem (within.heldFunc held))
  obtain ⟨inbound, outbound, _⟩ := Func.covers_handles.mp covers
  simp [parameterType?, Session.parameterType?, read_struct (within.heldStruct inbound),
    read_struct (within.heldStruct outbound)]

omit consistent in
theorem variableType?_eq {id : BlockId} (held : bounds.holds (.block id) = true) :
    variableType? session (session.blockAt id) name =
      some (session.variableType? (session.blockAt id) name) := by
  have covers : bounds.Covers (session.blockAt id).handles :=
    within.covered.blocks _ (getD_mem (within.heldBlock held))
  obtain ⟨vars, _⟩ := Block.covers_handles.mp covers
  simp [variableType?, Session.variableType?, read_struct (within.heldStruct vars)]

omit consistent in
theorem declares_eq (held : bounds.holds scope.handle = true) :
    declares session scope name = some (session.declares scope name) := by
  cases scope with
  | module id => simp [declares, Session.declares, read_module (within.heldModule held)]
  | func id =>
    simp [declares, Session.declares, read_func (within.heldFunc held),
      parameterType?_eq within held]
  | block id =>
    simp [declares, Session.declares, read_block (within.heldBlock held),
      variableType?_eq within held]

omit consistent in
theorem ownValue?_eq (held : bounds.holds scope.handle = true) :
    ownValue? session scope name = some (session.ownValue? scope name) := by
  cases scope with
  | module id => simp [ownValue?, Session.ownValue?, read_module (within.heldModule held)]
  | func id =>
    simp [ownValue?, Session.ownValue?, read_func (within.heldFunc held),
      parameterType?_eq within held]
  | block id =>
    simp [ownValue?, Session.ownValue?, read_block (within.heldBlock held),
      variableType?_eq within held]

theorem sees_eq {visits : Nat} (enough : depth scope < visits)
    (held : bounds.holds scope.handle = true) :
    sees session visits scope name = some (session.sees scope name) := by
  have asked : ∀ inner, bounds.holds inner.handle = true →
      (declares session inner name).map (Option.guard id) =
        some (Option.guard id (session.declares inner name)) := by
    intro inner heldInner
    rw [declares_eq within heldInner]
    rfl
  rw [sees, seek_eq within consistent asked enough held, Option.map_some, List.isSome_findSome?]
  simp [Session.sees]

theorem value?_eq {visits : Nat} (enough : depth scope < visits)
    (held : bounds.holds scope.handle = true) :
    value? session visits scope name = some (session.value? scope name) :=
  seek_eq within consistent (fun _ heldInner => ownValue?_eq within heldInner) enough held

/-! Type names -/

omit consistent in
/-- Imports lead from held modules to held modules. -/
theorem followImports_eq {start : ModuleId} (held : bounds.holds (.module start) = true)
    (names : List String) :
    followImports session start names = some (session.followImports start names) ∧
      ∀ found, session.followImports start names = .ok found →
        bounds.holds (.module found) = true := by
  induction names generalizing start with
  | nil =>
    refine ⟨rfl, fun found isFound => ?_⟩
    cases isFound
    exact held
  | cons name rest ih =>
    obtain ⟨imports, _⟩ := Module.covers_handles.mp (within.covered.moduleAt start)
    rw [followImports, Session.followImports, read_module (within.heldModule held),
      Option.bind_some]
    cases imported : (session.moduleAt start).import? name with
    | none => exact ⟨rfl, fun _ isFound => by cases isFound⟩
    | some next => exact ih (imports (name, next) (Table.mem_of_lookup imported))

theorem locate_eq {visits : Nat} (enough : depth scope < visits)
    (held : bounds.holds scope.handle = true) (ty : Ty) :
    locate session visits scope ty = some (session.locate scope ty) := by
  rw [locate, Session.locate, moduleOf?_eq within consistent enough held]
  split
  · rfl
  rw [Option.bind_some]
  cases isModule : session.moduleOf? scope with
  | none => rfl
  | some start =>
    have heldStart := within.heldModuleOf held isModule
    obtain ⟨followed, heldFound⟩ :=
      followImports_eq within heldStart (Text.qualifiers ty.name)
    dsimp only
    rw [followed, Option.bind_some]
    cases isFound : session.followImports start (Text.qualifiers ty.name) with
    | error missing => rfl
    | ok owner =>
      dsimp only
      have isOwner := read_module (within.heldModule (heldFound owner isFound))
      rw [isOwner, Option.bind_some, consistent.numbered.modules _ _ isOwner]
      split <;> rfl

/-- The module that defines a type does not hand it over. -/
theorem classifyFrom_own {ty : Ty} {owner : ModuleId} (located : ty.definedIn = some owner)
    (held : bounds.holds (.module owner) = true) (visits : Nat) :
    classifyFrom session ty (visits + 1) owner =
      some (classifyIn (session.moduleAt owner) ty) := by
  have isOwner := read_module (within.heldModule held)
  simp [classifyFrom, isOwner, located, consistent.numbered.modules _ _ isOwner]

/-- A type is handed over at most once. -/
theorem classify_eq {visits : Nat} (enough : depth scope < visits)
    (held : bounds.holds scope.handle = true) {ty : Ty} (covers : bounds.Covers ty.handles) :
    classify session visits 2 scope ty = some (session.classify scope ty) := by
  rw [classify, Session.classify, moduleOf?_eq within consistent enough held]
  split
  · rfl
  rw [Option.bind_some]
  cases isModule : session.moduleOf? scope with
  | none => rfl
  | some start =>
    have isStart := read_module (within.heldModule (within.heldModuleOf held isModule))
    cases located : ty.definedIn with
    | none => simp [classifyFrom, isStart, located]
    | some owner =>
      have heldOwner := (Ty.covers_handles.mp covers).2 owner located
      dsimp only
      by_cases same : owner = start
      · exact same ▸ classifyFrom_own within consistent located heldOwner 1
      · have handedOver := classifyFrom_own within consistent located heldOwner 0
        rw [classifyFrom, isStart, Option.bind_some]
        simp only [located]
        rw [consistent.numbered.modules _ _ isStart, if_neg same]
        exact handedOver

end Checked

/-! ## Main result -/

/-- An expression is not a definition of the session. -/
theorem Closed.holds {session : Session} {handle : Handle} (closed : session.Closed)
    (member : handle ∈ session.handles) (definition : ∀ id, handle ≠ .expr id) :
    (session.bounds 0).holds handle = true := by
  obtain ⟨exprs, within⟩ := closed
  have held := covers_handles.mpr within.covered handle member
  cases handle with
  | expr id => exact absurd rfl (definition id)
  | _ => exact held

/-- In every session that is made by operations on handles of the session, scopes know the handles
they were given out under, handles in definitions are within the arenas, functions stand in modules,
blocks in functions, and no function owns a struct. So the ways from a scope outwards end after at
most two steps, and the searches along them end as well, without a read outside of the arenas. -/
theorem handles_within_arenas (target : Target) {operations : List Operation}
    (grounded : Operation.GroundedAll (ofTarget target) operations) :
    let session := Operation.runAll (ofTarget target) operations
    (∀ id : ModuleId, id.index < session.modules.size → (session.moduleAt id).own = id) ∧
    (∀ id : FuncId, id.index < session.funcs.size → (session.funcAt id).own = id) ∧
    (∀ id : BlockId, id.index < session.blocks.size → (session.blockAt id).own = id) ∧
    session.roster.Perm (Operation.issuedAll (ofTarget target) operations) ∧
    (∀ handle ∈ session.handles, (∀ id, handle ≠ .expr id) →
      (session.bounds 0).holds handle = true) ∧
    (∀ id func, (session.structAt id).owner ≠ some (.func func)) ∧
    (∀ id around, (session.funcAt id).parent = some around → ∃ module, around = .module module) ∧
    (∀ id around, (session.blockAt id).parent = some around → ∃ func, around = .func func) ∧
    ∀ scope, (session.bounds 0).holds scope.handle = true →
      (session.scopes scope).length ≤ 3 ∧
      (∀ limit, 3 ≤ limit → session.scopesUpTo limit scope = session.scopes scope) ∧
      Checked.moduleOf? session 3 scope = some (session.moduleOf? scope) ∧
      (∀ name, Checked.sees session 3 scope name = some (session.sees scope name) ∧
        Checked.value? session 3 scope name = some (session.value? scope name)) ∧
      ∀ ty, Checked.locate session 3 scope ty = some (session.locate scope ty) ∧
        ((session.bounds 0).Covers ty.handles →
          Checked.classify session 3 2 scope ty = some (session.classify scope ty)) := by
  intro session
  have reachable : session.Reachable := ⟨target, operations, grounded.allocatedAll, rfl⟩
  have consistent := reachable.consistent
  have closed : session.Closed := Operation.runAll_closed (Operation.closed_ofTarget target) grounded
  refine ⟨fun id held => consistent.numbered.modules _ _ (Checked.read_module held),
    fun id held => consistent.numbered.funcs _ _ (Checked.read_func held),
    fun id held => consistent.numbered.blocks _ _ (Checked.read_block held), ?_,
    fun _ member => closed.holds member, reachable.owner_ne_func, consistent.nested.funcs,
    consistent.nested.blocks, fun scope heldScope => ?_⟩
  · exact Operation.runAll_roster (consistent_ofTarget target) (Operation.closed_ofTarget target)
      grounded
  obtain ⟨exprs, within⟩ := closed
  have wider := session.bounds_le (Nat.zero_le exprs)
  have held := wider.holds heldScope
  have deep := depth_le scope
  have enough : depth scope < 3 := Nat.lt_succ_of_le deep
  refine ⟨Nat.le_trans (consistent.nested.length_scopes_le scope) (Nat.succ_le_succ deep),
    fun limit isEnough => consistent.nested.scopesUpTo_of_depth (Nat.lt_of_lt_of_le enough isEnough),
    Checked.moduleOf?_eq within consistent enough held, fun name => ?_, fun ty => ?_⟩
  · exact ⟨Checked.sees_eq within consistent enough held,
      Checked.value?_eq within consistent enough held⟩
  · exact ⟨Checked.locate_eq within consistent enough held ty,
      fun covers => Checked.classify_eq within consistent enough held (covers.mono wider)⟩

/-- A block that has moved from a function of one module to a function of another one sees its own
variable and the constants of the second module. -/
theorem handles_within_arenas_moved :
    let operations : List Operation := [.newModule "a" .builtin, .newModule "b" .builtin,
      .newFunc "f" .builtin, .newFunc "g" .builtin, .newBlock none .builtin,
      .addLocal ⟨0⟩ "x" (.refToStruct ⟨3⟩ "__f_inbound" .builtin),
      .attachBlock ⟨0⟩ .mainline ⟨0⟩, .addFunc ⟨0⟩ ⟨0⟩, .addFunc ⟨1⟩ ⟨1⟩,
      .attachBlock ⟨1⟩ .ensure ⟨0⟩,
      .addConstant ⟨1⟩ (.declare "K" (.ofKind .uint8 .builtin) (.value (.int 5)))]
    let session := Operation.runAll (ofTarget {}) operations
    Checked.moduleOf? session 3 (.block ⟨0⟩) = some (some ⟨1⟩) ∧
      Checked.sees session 3 (.block ⟨0⟩) "x" = some true ∧
      Checked.sees session 3 (.block ⟨0⟩) "K" = some true := by
  intro operations session
  have facts : Operation.GroundedAll (ofTarget {}) operations ∧
      (session.bounds 0).holds (.block ⟨0⟩) = true ∧
      session.moduleOf? (.block ⟨0⟩) = some ⟨1⟩ ∧ session.sees (.block ⟨0⟩) "x" = true ∧
      session.sees (.block ⟨0⟩) "K" = true := by
    decide +kernel
  obtain ⟨_, _, _, _, _, _, _, _, walks⟩ := handles_within_arenas {} facts.1
  obtain ⟨_, _, isModule, values, _⟩ := walks (.block ⟨0⟩) facts.2.1
  refine ⟨isModule.trans ?_, (values "x").1.trans ?_, (values "K").1.trans ?_⟩
  · rw [facts.2.2.1]
  · rw [facts.2.2.2.1]
  · rw [facts.2.2.2.2]

end Session

end Assay
