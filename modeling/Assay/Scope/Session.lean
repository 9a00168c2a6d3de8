import Assay.Scope.Module

/-!
Contract: all definitions of one run, each in the arena of its sort.

Owns:
- functions, whose parameters are two structs, and blocks, whose variables are one;
- allocation of definitions, which never moves or removes one;
- attachment of blocks to functions.

Does not own: registration in modules and the search for names. A handle that was never allocated
reads as a blank definition, and changes to it have no effect.
-/

namespace Assay

structure Func where
  own : FuncId
  name : String
  loc : Location
  require : Option BlockId := none
  mainline : Option BlockId := none
  ensure : Option BlockId := none
  inbound : StructId
  outbound : StructId
  /-- The scope around the function. -/
  parent : Option ScopeId := none
deriving DecidableEq, Repr, Inhabited

/-- The blocks that are attached, in the order they run. -/
def Func.blocks (func : Func) : List BlockId :=
  [func.require, func.mainline, func.ensure].filterMap id

/-- The three places of a function that take a block. -/
inductive BlockRole where
  | require
  | mainline
  | ensure
deriving DecidableEq, Repr

def Func.setBlock (func : Func) (role : BlockRole) (block : BlockId) : Func :=
  match role with
  | .require => { func with require := some block }
  | .mainline => { func with mainline := some block }
  | .ensure => { func with ensure := some block }

structure Block where
  own : BlockId
  name : String
  loc : Location
  vars : StructId
  /-- The expression each variable starts from. -/
  init : List (String × ExprId) := []
  parent : Option ScopeId := none
deriving DecidableEq, Repr, Inhabited

/-- Set the expression a variable starts from. -/
def Block.setInit (block : Block) (name : String) (expr : ExprId) : Block :=
  { block with init := Table.enter name expr block.init }

structure Session where
  target : Target
  modules : Array Module := #[]
  structs : Array Struct
  funcs : Array Func := #[]
  blocks : Array Block := #[]
  objects : Array Object := #[]
deriving Repr, Inhabited

namespace Session

/-- A session that holds the runtime structs only. -/
def ofTarget (target : Target) : Session :=
  { target := target, structs := (Prelude.structs target).toArray }

/-! ## Reading -/

def moduleAt (session : Session) (id : ModuleId) : Module :=
  (session.modules[id.index]?).getD default

def structAt (session : Session) (id : StructId) : Struct :=
  (session.structs[id.index]?).getD default

def funcAt (session : Session) (id : FuncId) : Func :=
  (session.funcs[id.index]?).getD default

def blockAt (session : Session) (id : BlockId) : Block :=
  (session.blocks[id.index]?).getD default

def objectAt (session : Session) (id : ObjectId) : Object :=
  (session.objects[id.index]?).getD default

/-! ## Change in place -/

def modifyModule (session : Session) (id : ModuleId) (f : Module → Module) : Session :=
  { session with modules := session.modules.modify id.index f }

def modifyStruct (session : Session) (id : StructId) (f : Struct → Struct) : Session :=
  { session with structs := session.structs.modify id.index f }

def modifyFunc (session : Session) (id : FuncId) (f : Func → Func) : Session :=
  { session with funcs := session.funcs.modify id.index f }

def modifyBlock (session : Session) (id : BlockId) (f : Block → Block) : Session :=
  { session with blocks := session.blocks.modify id.index f }

def modifyObject (session : Session) (id : ObjectId) (f : Object → Object) : Session :=
  { session with objects := session.objects.modify id.index f }

def setModule (session : Session) (id : ModuleId) (module : Module) : Session :=
  session.modifyModule id fun _ => module

def setStruct (session : Session) (id : StructId) (struct : Struct) : Session :=
  session.modifyStruct id fun _ => struct

/-! ## Allocation -/

def allocModule (name : String) (loc : Location := .builtin) : StateM Session ModuleId :=
  modifyGet fun session =>
    let own : ModuleId := ⟨session.modules.size⟩
    (own, { session with modules := session.modules.push { own := own, name := name, loc := loc } })

def allocStruct (name : String) (loc : Location) (packed : Bool := false) :
    StateM Session StructId :=
  modifyGet fun session =>
    (⟨session.structs.size⟩,
      { session with
        structs := session.structs.push { name := name, loc := loc, packed := packed } })

def inboundName (func : String) : String :=
  "__" ++ func ++ "_inbound"

def outboundName (func : String) : String :=
  "__" ++ func ++ "_outbound"

/-- A function with the structs of its parameters. -/
def allocFunc (name : String) (loc : Location) : StateM Session FuncId := do
  let inbound ← allocStruct (inboundName name) loc
  let outbound ← allocStruct (outboundName name) loc
  modifyGet fun session =>
    let own : FuncId := ⟨session.funcs.size⟩
    (own,
      { session with
        funcs := session.funcs.push
          { own := own, name := name, loc := loc, inbound := inbound, outbound := outbound } })

/-- The name of a block that was declared without one. -/
def unnamedBlock (loc : Location) : String :=
  "__block_" ++ toString loc.line ++ "_" ++ toString loc.column

/-- A block with the struct of its variables, whose types are looked up from inside the block. -/
def allocBlock (name? : Option String) (loc : Location) : StateM Session BlockId := do
  let name := name?.getD (unnamedBlock loc)
  let vars ← allocStruct name loc
  let id : BlockId := ⟨(← get).blocks.size⟩
  modify fun session =>
    { session with
      blocks := session.blocks.push { own := id, name := name, loc := loc, vars := vars } }
  modify fun session =>
    session.modifyStruct vars fun struct => { struct with owner := some (.block id) }
  return id

def allocObject (name : String) (loc : Location) : StateM Session ObjectId :=
  modifyGet fun session =>
    (⟨session.objects.size⟩,
      { session with objects := session.objects.push { name := name, loc := loc } })

/-! ## Blocks of a function -/

def attachBlock (session : Session) (func : FuncId) (role : BlockRole) (block : BlockId) :
    Session :=
  (session.modifyBlock block fun state => { state with parent := some (.func func) }).modifyFunc func
    fun state => state.setBlock role block

end Session

end Assay
