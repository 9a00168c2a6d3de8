import Assay.Scope.Lookup

/-!
Contract: registration of definitions.

Owns: every change to a session that can be refused.

Does not own: messages. A refused change names its violation. A change made of several steps stops
at the step that is refused, and the steps before it stand.
-/

namespace Assay

/-- A change to a session that may be refused. What was changed before the refusal stands. -/
abbrev Edit (α : Type) : Type :=
  ExceptT Fault (StateM Session) α

namespace Edit

variable {α : Type}

def ofExcept : Except Fault α → Edit α
  | .ok value => pure value
  | .error fault => throw fault

def changeModule (id : ModuleId) (change : Module → Except Fault Module) : Edit Unit := do
  let changed ← ofExcept (change ((← get).moduleAt id))
  modify fun session => session.setModule id changed

def changeStruct (id : StructId) (change : Struct → Except Fault Struct) : Edit Unit := do
  let changed ← ofExcept (change ((← get).structAt id))
  modify fun session => session.setStruct id changed

/-! ## Members, parameters and variables -/

/-- Append a member to a struct and return its place. -/
def addMember (id : StructId) (name : String) (ty : Ty) : Edit Nat := do
  let slot := ((← get).structAt id).members.length
  changeStruct id fun struct => struct.addMember name ty
  return slot

def hasParameter (session : Session) (func : FuncId) (name : String) : Bool :=
  (session.structAt (session.funcAt func).inbound).contains name ||
    (session.structAt (session.funcAt func).outbound).contains name

/-- Parameters of both directions share one set of names. -/
def addParameter (func : FuncId) (params : StructId) (name : String) (ty : Ty) : Edit Nat := do
  if hasParameter (← get) func name then
    throw (.duplicateParameter ((← get).funcAt func).name name)
  addMember params name ty

def addInbound (func : FuncId) (name : String) (ty : Ty) : Edit Nat := do
  addParameter func ((← get).funcAt func).inbound name ty

def addOutbound (func : FuncId) (name : String) (ty : Ty) : Edit Nat := do
  addParameter func ((← get).funcAt func).outbound name ty

def addLocal (block : BlockId) (name : String) (ty : Ty) : Edit Nat := do
  addMember ((← get).blockAt block).vars name ty

/-- Set the expression that a variable of a block starts from. -/
def setInit (block : BlockId) (name : String) (expr : ExprId) : Edit Unit := do
  let session ← get
  if !(session.structAt (session.blockAt block).vars).contains name then
    throw (.undefinedName name)
  modify fun session => session.modifyBlock block fun state => state.setInit name expr

/-! ## Constants and globals -/

def addConstant (module : ModuleId) (constant : Constant) : Edit String := do
  let (name, changed) ← ofExcept (((← get).moduleAt module).addConstant module constant)
  modify fun session => session.setModule module changed
  return name

def addGlobal (module : ModuleId) (global : Global) : Edit Unit :=
  changeModule module fun state => state.addGlobal module global

/-- The constant that holds `text`, which is added if there is none. -/
def findString (module : ModuleId) (text : String) (loc : Location) : StateM Session String := do
  let (name, changed) := ((← get).moduleAt module).findString module text loc
  modify fun session => session.setModule module changed
  return name

/-! ## Definitions of types -/

def addImport (module imported : ModuleId) : Edit Unit := do
  let name := ((← get).moduleAt imported).name
  changeModule module fun state => state.addImport name imported

/-- Seal a struct, and describe it in a module that does not describe it yet. -/
def describeStruct (module : ModuleId) (id : StructId) : Edit Unit := do
  let struct := (← get).structAt id
  let word := (← get).target.wordType struct.loc
  changeStruct id fun state => state.sealWith id word
  let infoName := struct.name ++ "_type"
  if ((← get).moduleAt module).hasGlobal infoName then
    return
  let typeName := struct.name ++ "_type_name"
  let _ ← addConstant module
    (.declare typeName (Prelude.stringType struct.loc) (.value (.text struct.name)))
  addGlobal module
    { name := infoName
      ty := Prelude.typeInfoType struct.loc
      initializer := .typeInfo typeName (Kind.struct id).typeNumber }

/-- Register a struct. The first module to do so owns it. -/
def addStruct (module : ModuleId) (id : StructId) : Edit Unit := do
  let name := ((← get).structAt id).name
  changeModule module fun state => state.addStruct name id
  modify fun session => session.modifyStruct id fun struct =>
    { struct with owner := struct.owner.or (some (.module module)) }
  describeStruct module id

def addObject (module : ModuleId) (id : ObjectId) : Edit Unit := do
  let name := ((← get).objectAt id).name
  changeModule module fun state => state.addObject name id
  modify fun session => session.modifyObject id fun object =>
    { object with owner := some module }

/-- Register a function with its parameters and the variables of its blocks. -/
def addFunc (module : ModuleId) (id : FuncId) : Edit Unit := do
  let func := (← get).funcAt id
  changeModule module fun state => state.addFunc func.name id
  modify fun session => session.modifyFunc id fun state =>
    { state with parent := some (.module module) }
  addStruct module func.inbound
  addStruct module func.outbound
  func.blocks.forM fun block => do
    describeStruct module ((← get).blockAt block).vars

/-- Describe a built-in kind in a module that does not describe it yet. -/
def describeKind (module : ModuleId) (kind : Kind) : Edit Unit := do
  let infoName := kind.spelling ++ "_type"
  if ((← get).moduleAt module).hasGlobal infoName then
    return
  let typeName ← findString module kind.spelling .builtin
  addGlobal module
    { name := infoName
      ty := Prelude.typeInfoType .builtin
      initializer := .typeInfo typeName kind.typeNumber }

/-- Register the runtime structs and describe the built-in kinds. -/
def installPrelude (module : ModuleId) : Edit Unit := do
  Prelude.structIds.forM (addStruct module)
  Prelude.describedKinds.forM (describeKind module)

end Edit

end Assay
