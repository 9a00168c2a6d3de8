import Assay.Expr.Arena
import Assay.Manifest.Basic

/-!
Contract: expressions of a manifest as nodes of an arena.

Owns: the order in which nodes are allocated, operands before operators and from left to right, and
the refusal of operators that do not exist.

Does not own: the meaning of names and types.
-/

namespace Assay.Manifest.Expr

/-- Allocates nodes, or stops at an operator symbol that does not exist. -/
abbrev Lowering (α : Type) : Type :=
  ExceptT String (StateM Arena) α

/-- The operator with a given symbol. -/
def operator (symbol : String) : Lowering BinOp :=
  match BinOp.ofSymbol? symbol with
  | some op => pure op
  | none => throw symbol

mutual

/-- Allocate an expression with all its nodes at one place. -/
def lower (loc : Location) : Expr → Lowering ExprId
  | .int value => Arena.addLiteral (.int value.toInt) loc
  | .real value => Arena.addLiteral (.real value) loc
  | .text value => Arena.addLiteral (.text value) loc
  | .bool value => Arena.addLiteral (.bool value) loc
  | .name spelling => Arena.add (.name spelling) loc
  | .group inner => do
      let child ← lower loc inner
      Arena.add (.unary .group child) loc
  | .ref inner => do
      let child ← lower loc inner
      Arena.add (.unary .ref child) loc
  | .list values => do
      let elements ← lowerAll loc values
      Arena.add (.list elements) loc
  | .chain first rest => do
      let start ← lower loc first
      let links ← lowerRest loc rest
      Arena.addChain start links
  | .construct type values => do
      let elements ← lowerAll loc values
      let arguments ← Arena.add (.list elements) loc
      Arena.add (.construct (.ofName type loc) arguments) loc
  | .index source subscript => do
      let sourceId ← lower loc source
      let subscriptId ← lower loc subscript
      Arena.add (.index sourceId subscriptId) loc

def lowerAll (loc : Location) : List Expr → Lowering (List ExprId)
  | [] => return []
  | value :: rest => do
      let first ← lower loc value
      let others ← lowerAll loc rest
      return first :: others

/-- The operands of a chain. A symbol is looked at before its operand. -/
def lowerRest (loc : Location) : List (String × Expr) → Lowering (List (BinOp × ExprId))
  | [] => return []
  | (symbol, operand) :: rest => do
      let op ← operator symbol
      let first ← lower loc operand
      let others ← lowerRest loc rest
      return (op, first) :: others

end

end Assay.Manifest.Expr
