import Assay.Fault

/-!
Contract: structs as ordered lists of named members.

Owns:
- appending members, each of which keeps its place;
- sealing, which appends the two bookkeeping members of the runtime;
- what of a struct is visible to names.

Does not own: the search for the types of members.
-/

namespace Assay

structure Member where
  name : String
  ty : Ty
deriving DecidableEq, Repr, Inhabited

/-- A struct. Once `sealed` it takes no more members; once `bound` all its members have definite
types and its attribute table exists. -/
structure Struct where
  name : String
  loc : Location
  packed : Bool := false
  /-- The scope in which the types of members are looked up. -/
  owner : Option ScopeId := none
  members : List Member := []
  isSealed : Bool := false
  isBound : Bool := false
deriving DecidableEq, Repr, Inhabited

namespace Struct

def referenceCount : String := "reference_count"

def previousCopy : String := "previous_copy"

def contains (struct : Struct) (name : String) : Bool :=
  struct.members.any fun member => member.name = name

def idxOf? (struct : Struct) (name : String) : Option Nat :=
  struct.members.findIdx? fun member => member.name = name

def memberType? (struct : Struct) (name : String) : Option Ty :=
  (struct.members.find? fun member => member.name = name).map Member.ty

/-- How many members were declared, the bookkeeping members not counted. -/
def declaredCount (struct : Struct) : Nat :=
  if struct.isSealed then struct.members.length - 2 else struct.members.length

def declared (struct : Struct) : List Member :=
  struct.members.take struct.declaredCount

/-- The type of a declared member. -/
def declaredType? (struct : Struct) (name : String) : Option Ty :=
  (struct.declared.find? fun member => member.name = name).map Member.ty

/-- The names of the other structs that members refer to. -/
def dependencies (struct : Struct) (own : StructId) : List String :=
  (struct.members.filter fun member => member.ty.struct?.any (· ≠ own)).map fun member =>
    member.ty.name

/-- Append a member whose name is new. -/
def push (struct : Struct) (name : String) (ty : Ty) : Except Fault Struct :=
  if struct.contains name then
    .error (.duplicateDefinition (struct.name ++ "." ++ name))
  else
    .ok { struct with members := struct.members ++ [⟨name, ty⟩] }

/-- Append a declared member. A sealed struct takes none, and no struct takes the names of the
bookkeeping members. -/
def addMember (struct : Struct) (name : String) (ty : Ty) : Except Fault Struct :=
  if struct.isSealed then
    .error (.sealedStruct struct.name name)
  else if name = referenceCount ∨ name = previousCopy then
    .error (.reservedMember struct.name name)
  else
    struct.push name ty

/-- Append the bookkeeping members, once. -/
def sealWith (struct : Struct) (own : StructId) (word : Ty) : Except Fault Struct :=
  if struct.isSealed then
    .ok struct
  else do
    let counted ← struct.push referenceCount word
    let linked ← counted.push previousCopy (.refToStruct own struct.name struct.loc)
    return { linked with isSealed := true }

end Struct

end Assay
