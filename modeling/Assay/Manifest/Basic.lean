import Assay.Diagnostic
import Assay.Target

/-!
Contract: declarations as a manifest lists them.

Owns: modules with their imports, objects, structs, functions and constants, and expressions in the
form of trees.

Does not own: the text of a manifest, and any judgement on its declarations.
-/

namespace Assay.Manifest

/-- An expression of a manifest. Integers are words of 64 bits. Operators of a chain apply strictly
from the left and are kept as written. -/
inductive Expr where
  | int (value : Int64)
  | real (value : Float)
  | text (value : String)
  | bool (value : Bool)
  | name (spelling : String)
  | group (inner : Expr)
  | ref (inner : Expr)
  | list (values : List Expr)
  | chain (first : Expr) (rest : List (String × Expr))
  | construct (type : String) (values : List Expr)
  | index (source subscript : Expr)
deriving Repr, Inhabited

/-- A named slot: a member of a struct or a parameter. -/
structure Slot where
  name : String
  type : String
deriving DecidableEq, Repr, Inhabited

structure Struct where
  name : String
  packed : Bool := false
  members : List Slot := []
deriving DecidableEq, Repr, Inhabited

/-- A variable of the mainline block of a function. -/
structure Variable where
  name : String
  type : String
  init : Option Expr := none
deriving Repr, Inhabited

structure Func where
  name : String
  inbound : List Slot := []
  outbound : List Slot := []
  locals : List Variable := []
deriving Repr, Inhabited

/-- A constant, unnamed if its name is empty. Without a declared type it takes that of its
value. -/
structure Constant where
  name : String := ""
  type : Option String := none
  docstring : String := ""
  value : Expr
deriving Repr, Inhabited

structure Module where
  name : String
  imports : List String := []
  objects : List String := []
  structs : List Struct := []
  functions : List Func := []
  constants : List Constant := []
deriving Repr, Inhabited

end Assay.Manifest

namespace Assay

/-- The settings of a run. Messages at or below `ignore` are not kept. -/
structure Settings where
  target : Target := {}
  ignore : Option Severity := none
  debug : Bool := false
deriving DecidableEq, Repr, Inhabited

structure Manifest where
  settings : Settings := {}
  modules : List Manifest.Module := []
deriving Repr, Inhabited

end Assay
