import Assay.Scope.Prelude
import Assay.Scope.Symbol
import Assay.Scope.Table

/-!
Contract: modules, the only scopes that own definitions of types.

Owns:
- the names a module defines, with the order in which constants and globals were added;
- the string table, in which equal texts share one place, and the place of each text;
- the names of constants that were declared without one.

Does not own: the definitions that handles stand for.
-/

namespace Assay

structure Module where
  /-- The handle under which the module was allocated. -/
  own : ModuleId
  name : String
  loc : Location := .builtin
  imports : List (String × ModuleId) := []
  structs : List (String × StructId) := []
  objects : List (String × ObjectId) := []
  funcs : List (String × FuncId) := []
  constantTable : List (String × Constant) := []
  /-- The names of the constants, in the order they were added. -/
  constantOrder : List String := []
  globalTable : List (String × Global) := []
  globalOrder : List String := []
  strings : List String := []
  /-- The place of each text in the string table. -/
  stringIndices : List (String × Nat) := []
  /-- For each text the first constant that held it. -/
  stringConstants : List (String × String) := []
  /-- The number that the next unnamed constant tries first. -/
  unnamed : Nat := 0
deriving Repr, Inhabited

namespace Module

def import? (module : Module) (name : String) : Option ModuleId :=
  module.imports.lookup name

def struct? (module : Module) (name : String) : Option StructId :=
  module.structs.lookup name

def object? (module : Module) (name : String) : Option ObjectId :=
  module.objects.lookup name

def func? (module : Module) (name : String) : Option FuncId :=
  module.funcs.lookup name

def constant? (module : Module) (name : String) : Option Constant :=
  module.constantTable.lookup name

def global? (module : Module) (name : String) : Option Global :=
  module.globalTable.lookup name

def constants (module : Module) : List Constant :=
  module.constantTable.map Prod.snd

def globals (module : Module) : List Global :=
  module.globalTable.map Prod.snd

/-- The constants in the order they were added. -/
def listedConstants (module : Module) : List Constant :=
  module.constantOrder.filterMap module.constant?

def listedGlobals (module : Module) : List Global :=
  module.globalOrder.filterMap module.global?

def hasConstant (module : Module) (name : String) : Bool :=
  (module.constant? name).isSome

def hasGlobal (module : Module) (name : String) : Bool :=
  (module.global? name).isSome

/-- Whether a type may be written as `name` in this module. -/
def defines (module : Module) (name : String) : Bool :=
  (module.struct? name).isSome || (module.object? name).isSome || (module.func? name).isSome ||
    module.hasConstant name || module.hasGlobal name

/-! ## Strings -/

/-- The constant that holds `text`, if there is one. -/
def stringConstant? (module : Module) (text : String) : Option String :=
  module.stringConstants.lookup text

def stringIndex? (module : Module) (text : String) : Option Nat :=
  module.stringIndices.lookup text

/-- The place of `text` in the string table, which grows if the text is new. -/
def intern (module : Module) (text : String) : Nat × Module :=
  match module.stringIndex? text with
  | some index => (index, module)
  | none =>
      let index := module.strings.length
      (index,
        { module with
          strings := module.strings ++ [text]
          stringIndices := Table.enter text index module.stringIndices })

/-- Remember that the constant `name` holds `text`, unless another one did before. -/
def noteString (module : Module) (text name : String) : Module :=
  if (module.stringConstant? text).isSome then module
  else { module with stringConstants := module.stringConstants ++ [(text, name)] }

/-! ## Constants -/

/-- The name of the unnamed constant with a given number. -/
def unnamedName (number : Nat) : String :=
  "__CO" ++ toString number

/-- The first number from `number` on whose name is not taken, among `fuel` of them and the one
after. -/
def freeNumber (module : Module) : Nat → Nat → Nat
  | 0, number => number
  | fuel + 1, number =>
      if module.hasConstant (unnamedName number) then module.freeNumber fuel (number + 1)
      else number

/-- The number of the next unnamed constant. Of one more candidate than there are constants, one
is free. -/
def nextUnnamed (module : Module) : Nat :=
  module.freeNumber module.constantTable.length module.unnamed

/-- Give a constant its name. -/
def nameConstant (module : Module) (constant : Constant) : Constant × Module :=
  if constant.name = "" then
    let number := module.nextUnnamed
    ({ constant with name := unnamedName number }, { module with unnamed := number + 1 })
  else
    (constant, module)

/-- Move the text of a string constant into the string table. -/
def internConstant (module : Module) (constant : Constant) : Constant × Module :=
  match constant.ty.isString, constant.initializer with
  | true, .value (.text text) =>
      let (index, interned) := module.intern text
      ({ constant with initializer := .stringIndex index }, interned.noteString text constant.name)
  | _, _ => (constant, module)

/-- String constants are values of the runtime struct. -/
def constantType (ty : Ty) : Ty :=
  if ty.isString && !ty.isStruct then (Prelude.stringType ty.loc).asConst else ty

def insertConstant (module : Module) (constant : Constant) : Module :=
  { module with
    constantTable := Table.enter constant.name constant module.constantTable
    constantOrder := module.constantOrder ++ [constant.name] }

/-- Add a constant whose name is empty or new, and say how it is called. -/
def install (module : Module) (own : ModuleId) (constant : Constant) :
    String × Module :=
  let typed := { constant with ty := constantType constant.ty }
  let (named, numbered) := module.nameConstant typed
  let (held, interned) := numbered.internConstant named
  (held.name, interned.insertConstant { held with owner := some own })

def addConstant (module : Module) (own : ModuleId) (constant : Constant) :
    Except Fault (String × Module) :=
  if constant.name ≠ "" ∧ module.hasConstant constant.name then
    .error (.duplicateDefinition constant.name)
  else
    .ok (module.install own constant)

/-- The constant that holds `text`, which is added if there is none. -/
def findString (module : Module) (own : ModuleId) (text : String) (loc : Location) :
    String × Module :=
  match module.stringConstant? text with
  | some name => (name, module)
  | none => module.install own (.declare "" (Prelude.stringType loc) (.value (.text text)))

/-! ## Other definitions -/

def insertGlobal (module : Module) (global : Global) : Module :=
  { module with
    globalTable := Table.enter global.name global module.globalTable
    globalOrder := module.globalOrder ++ [global.name] }

def addGlobal (module : Module) (own : ModuleId) (global : Global) :
    Except Fault Module :=
  if module.hasGlobal global.name then
    .error (.duplicateDefinition global.name)
  else
    .ok (module.insertGlobal { global with owner := some own })

def addImport (module : Module) (name : String) (imported : ModuleId) :
    Except Fault Module :=
  if (module.import? name).isSome then
    .error (.duplicateDefinition name)
  else
    .ok { module with imports := module.imports ++ [(name, imported)] }

def addStruct (module : Module) (name : String) (id : StructId) : Except Fault Module :=
  if (module.struct? name).isSome then
    .error (.duplicateDefinition name)
  else
    .ok { module with structs := module.structs ++ [(name, id)] }

def addObject (module : Module) (name : String) (id : ObjectId) : Except Fault Module :=
  if (module.object? name).isSome then
    .error (.duplicateDefinition name)
  else
    .ok { module with objects := module.objects ++ [(name, id)] }

def addFunc (module : Module) (name : String) (id : FuncId) : Except Fault Module :=
  if (module.func? name).isSome then
    .error (.duplicateDefinition name)
  else
    .ok { module with funcs := module.funcs ++ [(name, id)] }

end Module

end Assay
