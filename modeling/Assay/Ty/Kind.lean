import Assay.Handle

/-!
Contract: what a type is, apart from its qualifiers.

Owns:
- the built-in kinds with their spellings, sizes and runtime numbers;
- the kinds that carry a definition (structs, functions, objects);
- implicit widening between the numeric kinds.

Does not own: references, constness, arrays and names of types.
-/

namespace Assay

inductive Kind where
  | null
  | uint8
  | sint8
  | uint16
  | sint16
  | uint32
  | sint32
  | uint64
  | sint64
  | float32
  | float64
  | object (id : ObjectId)
  | function (id : FuncId)
  | bool
  | string
  | typeInfo
  | struct (id : StructId)
  | opaqueData
  | unresolved
deriving DecidableEq, Repr, Inhabited

namespace Kind

/-- The spelling of a kind. Kinds that carry a definition share one spelling each. -/
def spelling : Kind → String
  | .null => "null_t"
  | .uint8 => "uint8_t"
  | .sint8 => "sint8_t"
  | .uint16 => "uint16_t"
  | .sint16 => "sint16_t"
  | .uint32 => "uint32_t"
  | .sint32 => "sint32_t"
  | .uint64 => "uint64_t"
  | .sint64 => "sint64_t"
  | .float32 => "float32_t"
  | .float64 => "float64_t"
  | .object _ => "object_t"
  | .function _ => "function_t"
  | .bool => "bool_t"
  | .string => "string_t"
  | .typeInfo => "type_t"
  | .struct _ => "struct_t"
  | .opaqueData => "opaque_t"
  | .unresolved => "unresolved_t"

/-- The kinds that a program can name without defining anything. -/
def builtins : List Kind :=
  [.null, .bool, .uint8, .sint8, .uint16, .sint16, .uint32, .sint32, .uint64, .sint64,
    .float32, .float64, .string, .typeInfo, .opaqueData]

def ofSpelling? (name : String) : Option Kind :=
  builtins.find? (fun kind => kind.spelling = name)

/-- The number of a kind in the runtime type tables. -/
def typeNumber : Kind → Nat
  | .null => 0
  | .uint8 => 1
  | .sint8 => 2
  | .uint16 => 3
  | .sint16 => 4
  | .uint32 => 5
  | .sint32 => 6
  | .uint64 => 7
  | .sint64 => 8
  | .float32 => 9
  | .float64 => 10
  | .object _ => 11
  | .function _ => 12
  | .bool => 13
  | .string => 14
  | .typeInfo => 15
  | .struct _ => 16
  | .opaqueData => 17
  | .unresolved => 0xffffffff

/-- The size in bytes of the kinds that have a fixed machine size. -/
def size? : Kind → Option Nat
  | .null => some 0
  | .uint8 | .sint8 | .bool => some 1
  | .uint16 | .sint16 => some 2
  | .uint32 | .sint32 | .float32 => some 4
  | .uint64 | .sint64 | .float64 => some 8
  | _ => none

/-- The kinds a kind widens to without being asked, narrowest first. -/
def promotions : Kind → List Kind
  | .sint8 => [.sint16, .sint32, .sint64, .float32, .float64]
  | .uint8 => [.uint16, .sint16, .uint32, .sint32, .uint64, .sint64, .float32, .float64]
  | .sint16 => [.sint32, .sint64, .float32, .float64]
  | .uint16 => [.uint32, .sint32, .uint64, .sint64, .float32, .float64]
  | .sint32 => [.sint64, .float32, .float64]
  | .uint32 => [.uint64, .sint64, .float32, .float64]
  | .sint64 | .uint64 | .float32 => [.float64]
  | _ => []

def integers : List Kind :=
  [.sint8, .uint8, .sint16, .uint16, .sint32, .uint32, .sint64, .uint64]

def floats : List Kind :=
  [.float32, .float64]

def isInteger (kind : Kind) : Bool :=
  kind ∈ integers

def isFloat (kind : Kind) : Bool :=
  kind ∈ floats

def isSigned : Kind → Bool
  | .sint8 | .sint16 | .sint32 | .sint64 => true
  | _ => false

/-- The least integer kind for a value: unsigned for a value from zero up, signed below zero. A
value beyond the 64-bit kinds takes the widest unsigned one. -/
def ofInt (value : Int) : Kind :=
  if 0 ≤ value then
    if value < 0x100 then .uint8
    else if value < 0x10000 then .uint16
    else if value < 0x100000000 then .uint32
    else .uint64
  else if -0x80 ≤ value then .sint8
  else if -0x8000 ≤ value then .sint16
  else if -0x80000000 ≤ value then .sint32
  else if -0x8000000000000000 ≤ value then .sint64
  else .uint64

end Kind

end Assay
