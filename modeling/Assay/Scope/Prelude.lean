import Assay.Scope.Struct
import Assay.Target

/-!
Contract: the structs that the runtime shares with every program.

Owns: strings, type descriptions and member descriptions, as the first three structs of a session.

Does not own: their registration in a module.
-/

namespace Assay.Prelude

def string : StructId := ⟨0⟩

def typeInfo : StructId := ⟨1⟩

def typeNode : StructId := ⟨2⟩

def structIds : List StructId :=
  [string, typeInfo, typeNode]

def stringType (loc : Location) : Ty :=
  .ofStruct string "string_t" loc

def typeInfoType (loc : Location) : Ty :=
  .ofStruct typeInfo "type_t" loc

def typeNodeType (loc : Location) : Ty :=
  .ofStruct typeNode "type_node_t" loc

private def declare (name : String) (members : List Member) : Struct :=
  { name := name, loc := .builtin, members := members }

/-- The runtime structs in the order of their handles. -/
def structs (target : Target) : List Struct :=
  let loc := Location.builtin
  let word := target.wordType loc
  [ declare "string_t"
      [⟨"flags", word⟩,
       ⟨"length", word⟩,
       ⟨"data", (target.characterType loc).asUnboundedArray⟩],
    declare "type_t"
      [⟨"name", (stringType loc).asRef⟩,
       ⟨"type_id", .ofKind .uint8 loc⟩,
       ⟨"attr_count", word⟩,
       ⟨"attrs", (typeNodeType loc).asRef⟩,
       ⟨"msg_table_size", word⟩,
       ⟨"msgs", (typeInfoType loc).asRef⟩],
    declare "type_node_t"
      [⟨"name", (stringType loc).asRef⟩,
       ⟨"type_info", (typeInfoType loc).asRef⟩,
       ⟨"flags", word⟩] ]

/-- The built-in kinds that have a type description of their own. -/
def describedKinds : List Kind :=
  Kind.integers ++ Kind.floats ++ [.null]

end Assay.Prelude
