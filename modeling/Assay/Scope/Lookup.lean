import Assay.Diagnostic
import Assay.Scope.Session
import Assay.Text.Qualified

/-!
Contract: the search for names from a scope outwards.

Owns:
- the scopes around a scope, nearest first;
- values by name;
- type names, first located in a module and then given the kind of their definition.

Does not own: any change to the session. A search returns the type it found or what to report.
-/

namespace Assay

/-- What a value name stands for. The value is known for literal constants only. -/
structure NamedValue where
  ty : Ty
  value : Option Literal := none
deriving Repr, Inhabited

/-- A constant before a global; a string constant stands for its text. -/
def Module.value? (module : Module) (name : String) : Option NamedValue :=
  match module.constant? name with
  | some constant =>
      let value :=
        match constant.initializer with
        | .value literal => some literal
        | .stringIndex index => (module.strings[index]?).map Literal.text
        | _ => none
      some ⟨constant.ty, value⟩
  | none => (module.global? name).map fun global => ⟨global.ty, none⟩

namespace Session

variable (session : Session)

/-! ## Scopes -/

def parent? : ScopeId → Option ScopeId
  | .module _ => none
  | .func id => (session.funcAt id).parent
  | .block id => (session.blockAt id).parent

/-- The scope itself and the scopes around it, nearest first, up to a number of them. -/
def scopesUpTo : Nat → ScopeId → List ScopeId
  | 0, _ => []
  | limit + 1, scope =>
      scope ::
        match session.parent? scope with
        | some around => scopesUpTo limit around
        | none => []

/-- The scope itself and all scopes around it. A way outwards that comes to no scope twice has each
function and each block once at most, and ends at the latest with a module. -/
def scopes (scope : ScopeId) : List ScopeId :=
  session.scopesUpTo (session.funcs.size + session.blocks.size + 1) scope

def moduleOf? (scope : ScopeId) : Option ModuleId :=
  (session.scopes scope).findSome? fun
    | .module id => some id
    | _ => none

/-! ## Values -/

/-- The type of a parameter: inbound before outbound. -/
def parameterType? (func : Func) (name : String) : Option Ty :=
  ((session.structAt func.inbound).declaredType? name).or
    ((session.structAt func.outbound).declaredType? name)

def variableType? (block : Block) (name : String) : Option Ty :=
  (session.structAt block.vars).declaredType? name

/-- Whether the scope itself declares a value of this name. -/
def declares (scope : ScopeId) (name : String) : Bool :=
  match scope with
  | .module id => (session.moduleAt id).hasGlobal name || (session.moduleAt id).hasConstant name
  | .func id => (session.parameterType? (session.funcAt id) name).isSome
  | .block id => (session.variableType? (session.blockAt id) name).isSome

/-- The value that the scope itself declares under this name. -/
def ownValue? (scope : ScopeId) (name : String) : Option NamedValue :=
  match scope with
  | .module id => (session.moduleAt id).value? name
  | .func id => (session.parameterType? (session.funcAt id) name).map fun ty => ⟨ty, none⟩
  | .block id => (session.variableType? (session.blockAt id) name).map fun ty => ⟨ty, none⟩

def sees (scope : ScopeId) (name : String) : Bool :=
  (session.scopes scope).any fun inner => session.declares inner name

/-- The value of this name in the nearest scope that declares one. -/
def value? (scope : ScopeId) (name : String) : Option NamedValue :=
  (session.scopes scope).findSome? fun inner => session.ownValue? inner name

/-! ## Type names -/

/-- Follow imports from a module. Fails with the first name that is not imported where it is
looked for. -/
def followImports (start : ModuleId) : List String → Except String ModuleId
  | [] => .ok start
  | name :: rest =>
      match (session.moduleAt start).import? name with
      | some next => followImports next rest
      | none => .error name

/-- Find the module that defines an unresolved type name, and keep the bare name. The only thing
to report is an import that is missing. -/
def locate (scope : ScopeId) (ty : Ty) : Except (List Entry) Ty :=
  if !ty.isUnresolved then .ok ty
  else
    match session.moduleOf? scope with
    | none => .error []
    | some start =>
        match session.followImports start (Text.qualifiers ty.name) with
        | .error missing => .error [.error ty.loc (.missingImport ty.name missing)]
        | .ok owner =>
            let name := Text.baseName ty.name
            if (session.moduleAt owner).defines name then
              .ok { ty with definedIn := some owner, name := name }
            else
              .error []

/-- Take over the kind and shape of a declared type. -/
def adopt (ty declared : Ty) : Except Entry Ty :=
  if declared.isUnresolved then
    .error (.internal ty.loc (.unclassifiableDefinition ty.name))
  else
    .ok { ty with kind := declared.kind, count := declared.count, readOnly := declared.readOnly }

/-- The kind of the definition that a module has under the name of a type. Structs come before
objects, functions, constants and globals. -/
def classifyIn (module : Module) (ty : Ty) : Except Entry Ty :=
  match module.struct? ty.name with
  | some id => .ok (ty.asStruct id)
  | none =>
  match module.object? ty.name with
  | some id => .ok (ty.asObject id)
  | none =>
  match module.func? ty.name with
  | some id => .ok (ty.asFunction id)
  | none =>
  match module.constant? ty.name with
  | some constant => (adopt ty constant.ty).map Ty.asConst
  | none =>
  match module.global? ty.name with
  | some global => adopt ty global.ty
  | none => .error (.error ty.loc (.definitionNotFound ty.name))

/-- Give a located type the kind of its definition. -/
def classify (scope : ScopeId) (ty : Ty) : Except Entry Ty :=
  if !ty.isUnresolved then .ok ty
  else
    match session.moduleOf? scope, ty.definedIn with
    | some _, some owner => classifyIn (session.moduleAt owner) ty
    | _, _ => .error (.error ty.loc (.noDefinitionScope ty.name))

/-- Locate and classify a type. `missing` is reported if it has no definition. -/
def resolveType (scope : ScopeId) (ty : Ty) (missing : Entry) : Except (List Entry) Ty :=
  match session.locate scope ty with
  | .error entries => .error (entries ++ [missing])
  | .ok located =>
      match session.classify scope located with
      | .error entry => .error [entry]
      | .ok classified => .ok classified

end Session

end Assay
