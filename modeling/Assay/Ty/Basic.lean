import Assay.Location
import Assay.Ty.Kind

/-!
Contract: types as declarations and expressions carry them.

Owns:
- a kind with its written name and qualifiers;
- when two types are the same and when a slot takes a value;
- the written form of a type and its runtime flags.

Does not own: the search for the definition behind an unresolved name.
-/

namespace Assay

/-- A type. `count` is zero for a scalar, positive for a sized array or vector and `-1` for an
unbounded array; `definedIn` is the module in which a successful search found the name. -/
structure Ty where
  kind : Kind
  name : String
  isRef : Bool := false
  isConst : Bool := false
  readOnly : Bool := true
  count : Int := 0
  definedIn : Option ModuleId := none
  loc : Location
deriving DecidableEq, Repr, Inhabited

namespace Ty

/-- The type written as `name`. A leading `@` makes a reference; a name that is no built-in
spelling starts unresolved. -/
def ofName (name : String) (loc : Location) : Ty :=
  let (isRef, bare) :=
    match name.toList with
    | '@' :: rest => (true, String.ofList rest)
    | _ => (false, name)
  { kind := (Kind.ofSpelling? bare).getD .unresolved
    name := bare
    isRef := isRef
    loc := loc }

def ofKind (kind : Kind) (loc : Location) : Ty :=
  ofName kind.spelling loc

/-- The type of what has no type yet. It is never const. -/
def null : Ty :=
  ofKind .null .builtin

def ofStruct (id : StructId) (name : String) (loc : Location) : Ty :=
  { ofName name loc with kind := .struct id }

def refToStruct (id : StructId) (name : String) (loc : Location) : Ty :=
  { ofStruct id name loc with isRef := true }

/-! ## Qualifiers -/

def asConst (ty : Ty) : Ty :=
  { ty with isConst := true, readOnly := true }

def asRef (ty : Ty) : Ty :=
  { ty with isRef := true }

def asArray (ty : Ty) (count : Int) : Ty :=
  { ty with count := count, readOnly := false }

def asUnboundedArray (ty : Ty) : Ty :=
  ty.asArray (-1)

def asStruct (ty : Ty) (id : StructId) : Ty :=
  { ty with kind := .struct id }

def asObject (ty : Ty) (id : ObjectId) : Ty :=
  { ty with kind := .object id }

/-- A function is only ever held by reference. -/
def asFunction (ty : Ty) (id : FuncId) : Ty :=
  { ty with kind := .function id, isRef := true }

/-- The type of an element. -/
def element (ty : Ty) : Ty :=
  { ty with count := 0 }

/-! ## Classes of types -/

def isNull (ty : Ty) : Bool :=
  ty.kind = .null

def isUnresolved (ty : Ty) : Bool :=
  ty.kind = .unresolved

def isArray (ty : Ty) : Bool :=
  ty.count ≠ 0 && !ty.readOnly

def isVector (ty : Ty) : Bool :=
  0 < ty.count && ty.readOnly

def struct? (ty : Ty) : Option StructId :=
  match ty.kind with
  | .struct id => some id
  | _ => none

def isStruct (ty : Ty) : Bool :=
  ty.struct?.isSome

def isObject (ty : Ty) : Bool :=
  match ty.kind with
  | .object _ => true
  | _ => false

def isFunction (ty : Ty) : Bool :=
  match ty.kind with
  | .function _ => true
  | _ => false

/-- Strings are the built-in kind and the runtime struct of the same name. -/
def isString (ty : Ty) : Bool :=
  ty.kind = .string || (ty.isStruct && ty.name = Kind.string.spelling)

def isIndexable (ty : Ty) : Bool :=
  ty.isArray || ty.isString || ty.isVector

/-! ## Agreement -/

/-- Two types are the same if kind, definition and qualifiers agree. Any two strings agree. -/
def same (left right : Ty) : Bool :=
  (left.isString && right.isString) ||
    (left.kind = right.kind && left.isRef = right.isRef && left.isArray = right.isArray &&
      left.isVector = right.isVector && left.isConst = right.isConst)

def promotesTo (value slot : Ty) : Bool :=
  slot.kind ∈ value.kind.promotions

/-- A slot takes a value of its own type, whatever the constness of the value, and a value that
widens to the kind of the slot. -/
def accepts (slot value : Ty) : Bool :=
  slot.same { value with isConst := slot.isConst } || value.promotesTo slot

/-! ## Written forms -/

/-- The kind's spelling, or the name where the kind carries a definition. -/
def definitionName (ty : Ty) : String :=
  match ty.kind with
  | .struct _ | .object _ | .function _ => ty.name
  | kind => kind.spelling

/-- The global that describes the type at run time. -/
def infoName (ty : Ty) : String :=
  ty.definitionName ++ "_type"

/-- The flags of a type in the runtime tables: reference 1, read-only 2, const 4. -/
def flags (ty : Ty) : Nat :=
  ty.isRef.toNat + 2 * ty.readOnly.toNat + 4 * ty.isConst.toNat

def text (ty : Ty) : String :=
  (if ty.isConst then "const " else "") ++
  (if ty.isRef then "@" else "") ++
  (if ty.isUnresolved then ty.name else ty.definitionName) ++
  (if ty.isArray then "[" ++ toString ty.count ++ "]" else "") ++
  (if ty.isVector then "<" ++ toString ty.count ++ ">" else "")

end Ty

end Assay
