/-!
Contract: the operators of expressions.

Owns: binary, unary and step operators with their symbols.

Does not own: what an operator computes.
-/

namespace Assay

inductive BinOp where
  | add
  | sub
  | mul
  | div
  | mod
  | xor
  | and
  | or
  /-- Member access. -/
  | dot
deriving DecidableEq, Repr, Inhabited

namespace BinOp

def all : List BinOp :=
  [.add, .sub, .mul, .div, .mod, .xor, .and, .or, .dot]

def symbol : BinOp → String
  | .add => "+"
  | .sub => "-"
  | .mul => "*"
  | .div => "/"
  | .mod => "%"
  | .xor => "^"
  | .and => "&"
  | .or => "|"
  | .dot => "."

def ofSymbol? (symbol : String) : Option BinOp :=
  all.find? (fun op => op.symbol = symbol)

@[simp] theorem ofSymbol?_symbol (op : BinOp) : ofSymbol? op.symbol = some op := by
  cases op <;> rfl

end BinOp

inductive UnaryOp where
  /-- A parenthesised expression. -/
  | group
  /-- Taking a reference. -/
  | ref
deriving DecidableEq, Repr, Inhabited

/-- An operator written after its operand. -/
inductive StepOp where
  | increment
  | decrement
deriving DecidableEq, Repr, Inhabited

def StepOp.symbol : StepOp → String
  | .increment => "++"
  | .decrement => "--"

end Assay
