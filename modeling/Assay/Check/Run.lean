import Assay.Expr.BlockFolding
import Assay.Expr.Resolve
import Assay.Expr.Validity
import Assay.Manifest.Lower
import Assay.Scope.Binding

/-!
Contract: the passes over a manifest, in their order.

Owns:
- declaration of modules, imports, registration, binding, and folding of constants and locals;
- the place that each message points at;
- when a pass gives up on a declaration and when the run ends early.

One log goes through all passes. Binding looks at its counts; nothing looks at what it keeps.

Does not own: the report.
-/

namespace Assay

/-- The mainline block of a function that was declared with local variables. -/
structure Frame where
  module : ModuleId
  func : String
  block : BlockId
  locals : List Manifest.Variable
deriving Repr

/-- A run over a manifest. `trapped` means that it ended in the middle of a computation. -/
structure Run where
  file : String
  session : Session
  arena : Arena := {}
  modules : List (ModuleId × Manifest.Module) := []
  blocks : List Frame := []
  log : Log := {}
  trapped : Bool := false

/-- A part of a run. -/
abbrev Pass (α : Type) : Type :=
  StateM Run α

namespace Pass

variable {α : Type}

/-! ## Steps -/

/-- Declarations have no positions in a manifest and are placed by their path. -/
def place (path : String) : Pass Location := do
  return .item (← get).file path

def report (entries : List Entry) : Pass Unit :=
  modify fun run => { run with log := run.log.recordAll entries }

def onSession (action : StateM Session α) : Pass α :=
  modifyGet fun run =>
    let (value, session) := action.run run.session
    (value, { run with session := session })

/-- Try a registration, and report its refusal. -/
def register (refusal : Fault → Entry) (edit : Edit α) : Pass Unit := do
  match ← onSession edit.run with
  | .ok _ => return
  | .error fault => report [refusal fault]

/-! ## Declarations -/

def declareModule (spec : Manifest.Module) : Pass Unit := do
  let loc ← place spec.name
  if (← get).modules.any fun (_, other) => other.name = spec.name then
    report [.error loc (.duplicateDefinition spec.name)]
  let module ← onSession (Session.allocModule spec.name loc)
  register (.internal loc) (Edit.installPrelude module)
  modify fun run => { run with modules := run.modules ++ [(module, spec)] }

/-- The first module that was declared under a name. -/
def declared? (run : Run) (name : String) : Option ModuleId :=
  (run.modules.find? fun (_, spec) => spec.name = name).map Prod.fst

def wireImport (module : ModuleId) (spec : Manifest.Module) (name : String) : Pass Unit := do
  let loc ← place (spec.name ++ "/imports/" ++ name)
  match declared? (← get) name with
  | some imported => register (.error loc) (Edit.addImport module imported)
  | none => report [.error loc (.unknownModule name)]

def registerObject (module : ModuleId) (spec : Manifest.Module) (name : String) : Pass Unit := do
  let loc ← place (spec.name ++ "/objects/" ++ name)
  let object ← onSession (Session.allocObject name loc)
  register (.error loc) (Edit.addObject module object)

def registerStruct (module : ModuleId) (spec : Manifest.Module) (struct : Manifest.Struct) :
    Pass Unit := do
  let loc ← place (spec.name ++ "/structs/" ++ struct.name)
  let id ← onSession (Session.allocStruct struct.name loc struct.packed)
  struct.members.forM fun member =>
    register (.error loc) (Edit.addMember id member.name (.ofName member.type loc))
  register (.error loc) (Edit.addStruct module id)

/-- The mainline block of a function, if it has local variables. -/
def registerLocals (module : ModuleId) (id : FuncId) (func : Manifest.Func) (loc : Location) :
    Pass Unit := do
  if func.locals.isEmpty then
    return
  let block ← onSession (Session.allocBlock (some (func.name ++ "_mainline")) loc)
  func.locals.forM fun slot =>
    register (.error loc) (Edit.addLocal block slot.name (.ofName slot.type loc))
  onSession (modify fun session => session.attachBlock id .mainline block)
  modify fun run =>
    { run with blocks := run.blocks ++ [⟨module, func.name, block, func.locals⟩] }

def registerFunction (module : ModuleId) (spec : Manifest.Module) (func : Manifest.Func) :
    Pass Unit := do
  let loc ← place (spec.name ++ "/functions/" ++ func.name)
  let id ← onSession (Session.allocFunc func.name loc)
  func.inbound.forM fun parameter =>
    register (.error loc) (Edit.addInbound id parameter.name (.ofName parameter.type loc))
  func.outbound.forM fun parameter =>
    register (.error loc) (Edit.addOutbound id parameter.name (.ofName parameter.type loc))
  registerLocals module id func loc
  register (.error loc) (Edit.addFunc module id)

def registerDefinitions (module : ModuleId) (spec : Manifest.Module) : Pass Unit := do
  spec.objects.forM (registerObject module spec)
  spec.structs.forM (registerStruct module spec)
  spec.functions.forM (registerFunction module spec)

/-! ## Binding -/

/-- Bind the structs of modules in order. Says whether the run may go on: it may not after an
internal error. -/
def bindModules : List (ModuleId × Manifest.Module) → Pass Bool
  | [] => return true
  | (module, _) :: rest => do
      let run ← get
      let bound := run.session.bindModule module run.log
      set { run with session := bound.session, log := bound.log }
      if bound.log.hasInternal then
        return false
      else
        bindModules rest

/-! ## Expressions -/

/-- Allocate the expression of a declaration. -/
def lower (spec : Manifest.Expr) (loc : Location) : Pass (Option ExprId) := do
  let (result, arena) := (spec.lower loc).run.run (← get).arena
  modify fun run => { run with arena := arena }
  match result with
  | .ok root => return some root
  | .error symbol =>
      report [.error loc (.unknownOperator symbol)]
      return none

def resolve (scope : ScopeId) (root : ExprId) : Pass Bool := do
  let run ← get
  let resolution := run.arena.resolve run.session scope root
  modify fun run => { run with arena := resolution.arena }
  report resolution.entries
  return resolution.ok

def judge (verdict : Run → Verdict) : Pass Bool := do
  let result := verdict (← get)
  report result.entries
  return result.ok

/-- Allocate, resolve and check an expression. -/
def prepare (spec : Manifest.Expr) (scope : ScopeId) (loc : Location) : Pass (Option ExprId) := do
  match ← lower spec loc with
  | none => return none
  | some root =>
      if !(← resolve scope root) then
        return none
      if !(← judge fun run => run.arena.check run.session root) then
        return none
      return some root

/-! ## Constants -/

/-- The type and the initial value of a folded expression. -/
def initializer? (arena : Arena) (id : ExprId) : Option (Ty × Initializer) :=
  match arena.shapeAt id with
  | .literal value => some (arena.typeOf id, .value value)
  | .construct target child => do
      let values ← (arena.outputs child).mapM arena.literal?
      return (target, .aggregate values)
  | .list elements => do
      let values ← elements.mapM arena.literal?
      let first ← elements.head?
      return ((arena.typeOf first).asArray values.length, .aggregate values)
  | _ => none

/-- Replace names by their values and fold what is constant. -/
def foldRoot (scope : ScopeId) (root : ExprId) (loc : Location) : Pass (Option ExprId) := do
  let run ← get
  let (_, inlined) := Rooted.inlineNames run.session scope ⟨run.arena, root⟩
  let (result, solved) := inlined.simplify
  modify fun run => { run with arena := solved.arena }
  match result with
  | .ok folded => return some folded
  | .error (.fault fault) =>
      report [.foldError loc fault]
      return none
  | .error .trap =>
      modify fun run => { run with trapped := true }
      return none

/-- The type of a constant: the declared one if it takes the value, else that of the value. -/
def constantType (scope : ScopeId) (spec : Manifest.Constant) (valueType : Ty) (loc : Location) :
    Pass (Option Ty) := do
  match spec.type with
  | none => return some valueType
  | some name =>
      let missing := Entry.error loc (.definitionNotFound name)
      match (← get).session.resolveType scope (.ofName name loc) missing with
      | .error entries =>
          report entries
          return none
      | .ok declared =>
          if declared.accepts valueType then
            return some declared
          else
            report [.error loc (.constantTypeMismatch spec.name declared.text valueType.text)]
            return none

/-- Fold a constant and add it to its module. -/
def foldConstant (module : ModuleId) (spec : Manifest.Constant) (loc : Location) : Pass Unit := do
  let scope := ScopeId.module module
  let some root ← prepare spec.value scope loc | return
  if !(← judge fun run => run.arena.requireConst root) then
    return
  let some folded ← foldRoot scope root loc | return
  let arena := (← get).arena
  let some (valueType, initializer) := initializer? arena folded
    | report [.error loc (.notConstant (arena.shapeAt folded).label)]
  let some ty ← constantType scope spec valueType loc | return
  register (.error loc) <| Edit.addConstant module
    { Constant.declare spec.name ty initializer with docstring := spec.docstring }

/-- Constants are placed by name, unnamed ones by their position. -/
def constantPath (module : String) (index : Nat) (spec : Manifest.Constant) : String :=
  module ++ "/constants/" ++ if spec.name = "" then toString index else spec.name

def foldConstants (module : ModuleId) (spec : Manifest.Module) : Pass Unit :=
  spec.constants.zipIdx.forM fun (constant, index) => do
    foldConstant module constant (← place (constantPath spec.name index constant))

/-! ## Locals -/

/-- Resolve and check what a variable starts from. -/
def foldLocal (entry : Frame) (spec : Manifest.Variable) : Pass Unit := do
  let some init := spec.init | return
  let module := ((← get).session.moduleAt entry.module).name
  let loc ← place (module ++ "/functions/" ++ entry.func ++ "/locals/" ++ spec.name)
  let some root ← prepare init (.block entry.block) loc | return
  register (.error loc) (Edit.setInit entry.block spec.name root)

/-- Fold what the variables of a block start from. -/
def foldBlock (entry : Frame) : Pass Unit := do
  entry.locals.forM (foldLocal entry)
  let run ← get
  let folded := run.session.foldBlock run.arena entry.block
  set { run with
        session := folded.session
        arena := folded.arena
        log := run.log.recordAll folded.entries
        trapped := run.trapped || folded.trapped }

/-! ## The run -/

/-- All passes in order. -/
def all (specs : List Manifest.Module) : Pass Unit := do
  specs.forM declareModule
  let modules := (← get).modules
  modules.forM fun (module, spec) => spec.imports.forM (wireImport module spec)
  modules.forM fun (module, spec) => registerDefinitions module spec
  if ← bindModules modules then
    modules.forM fun (module, spec) => foldConstants module spec
    (← get).blocks.forM foldBlock

end Pass

/-- The log that settings ask for. -/
def Settings.log (settings : Settings) : Log :=
  { ignore := settings.ignore, debug := settings.debug }

/-- A run before its first pass. -/
def Run.start (manifest : Manifest) (file : String) : Run :=
  { file := file, session := .ofTarget manifest.settings.target, log := manifest.settings.log }

/-- The run over a manifest that is called `file` in messages. -/
def Run.ofManifest (manifest : Manifest) (file : String) : Run :=
  ((Pass.all manifest.modules).run (.start manifest file)).2

end Assay
