import Assay.Literal

/-!
Contract: constants, globals and objects of a module.

Owns: their data, and how a constant or global starts out.

Does not own: the module that holds them.
-/

namespace Assay

/-- One member of a struct as the runtime tables describe it: the constant that holds its name, the
global that describes its type and the flags of that type. -/
structure AttrRow where
  member : String
  name : String
  typeInfo : String
  flags : Nat
deriving DecidableEq, Repr, Inhabited

/-- How a constant or global starts out. -/
inductive Initializer where
  | none
  | value (literal : Literal)
  /-- One literal for each argument supplied. -/
  | aggregate (literals : List Literal)
  /-- A place in the string table of the module. -/
  | stringIndex (index : Nat)
  /-- The runtime description of a type. -/
  | typeInfo (name : String) (number : Nat)
  /-- The runtime description of a struct's members, in their order. -/
  | attrTable (rows : List AttrRow)
deriving Repr, Inhabited

def Initializer.literal? : Initializer → Option Literal
  | .value literal => some literal
  | _ => Option.none

/-- A constant. A module names it if its own name is empty. -/
structure Constant where
  name : String
  ty : Ty
  initializer : Initializer
  docstring : String := ""
  owner : Option ModuleId := none
deriving Repr, Inhabited

namespace Constant

/-- The type of a constant is const whatever was declared. -/
def declare (name : String) (ty : Ty) (initializer : Initializer) : Constant :=
  { name := name, ty := ty.asConst, initializer := initializer }

def literal? (constant : Constant) : Option Literal :=
  constant.initializer.literal?

end Constant

structure Global where
  name : String
  ty : Ty
  initializer : Initializer
  owner : Option ModuleId := none
deriving Repr, Inhabited

/-- A protocol. Only its name takes part in the search for types. -/
structure Object where
  name : String
  loc : Location
  owner : Option ModuleId := none
deriving DecidableEq, Repr, Inhabited

end Assay
