import Assay.Literal
import Assay.Operator

/-!
Contract: one layer of an expression, over any type of operands.

Owns:
- the eight forms of expression and their operands in order;
- the label of a form;
- replacing one operand.

Does not own: how layers are tied into whole expressions.
-/

namespace Assay

/-- One layer of an expression whose operands are of type `α`. -/
inductive Shape (α : Type) where
  | literal (value : Literal)
  | name (spelling : String)
  | list (elements : List α)
  | unary (op : UnaryOp) (child : α)
  | construct (target : Ty) (child : α)
  | binary (op : BinOp) (left right : α)
  | step (op : StepOp) (child : α)
  | index (source subscript : α)
deriving Repr, Inhabited

namespace Shape

variable {α β : Type}

def map (f : α → β) : Shape α → Shape β
  | .literal value => .literal value
  | .name spelling => .name spelling
  | .list elements => .list (elements.map f)
  | .unary op child => .unary op (f child)
  | .construct target child => .construct target (f child)
  | .binary op left right => .binary op (f left) (f right)
  | .step op child => .step op (f child)
  | .index source subscript => .index (f source) (f subscript)

/-- The operands from left to right. -/
def children : Shape α → List α
  | .literal _ | .name _ => []
  | .list elements => elements
  | .unary _ child | .construct _ child | .step _ child => [child]
  | .binary _ left right => [left, right]
  | .index source subscript => [source, subscript]

@[simp] theorem children_map (f : α → β) (shape : Shape α) :
    (shape.map f).children = shape.children.map f := by
  cases shape <;> rfl

@[simp] theorem map_id (shape : Shape α) : shape.map id = shape := by
  cases shape <;> simp [map]

/-- What is done to a form depends on its operands only. -/
theorem map_congr {f g : α → β} {shape : Shape α}
    (agrees : ∀ child ∈ shape.children, f child = g child) :
    shape.map f = shape.map g := by
  cases shape <;> simp_all [map, children]

/-- How many values the form consumes. A list consumes none: it passes its elements on. -/
def arity : Shape α → Nat
  | .literal _ | .name _ | .list _ => 0
  | .unary _ _ | .construct _ _ | .step _ _ => 1
  | .binary _ _ _ | .index _ _ => 2

def label : Shape α → String
  | .literal _ => "lit"
  | .name _ => "name"
  | .list _ => "\x7b\x7d"
  | .unary .group _ => "()"
  | .unary .ref _ => "@"
  | .construct _ _ => "construct"
  | .binary op _ _ => op.symbol
  | .step op _ => op.symbol
  | .index _ _ => "[]"

def literal? : Shape α → Option Literal
  | .literal value => some value
  | _ => none

/-- Operators whose value can replace them once their operands are known. -/
def isOperator : Shape α → Bool
  | .unary _ _ | .step _ _ | .binary _ _ _ => true
  | _ => false

/-- Whether the type of the form follows from its operands. -/
def typeIsDerived : Shape α → Bool
  | .literal _ | .name _ | .construct _ _ => false
  | _ => true

/-- The form with the first operand that equals `old` replaced, if there is one. -/
def replaceFirst? [DecidableEq α] (old new : α) : Shape α → Option (Shape α)
  | .literal _ | .name _ => none
  | .list elements => if old ∈ elements then some (.list (elements.replace old new)) else none
  | .unary op child => if child = old then some (.unary op new) else none
  | .construct target child => if child = old then some (.construct target new) else none
  | .binary op left right =>
      if left = old then some (.binary op new right)
      else if right = old then some (.binary op left new)
      else none
  | .step op child => if child = old then some (.step op new) else none
  | .index source subscript =>
      if source = old then some (.index new subscript)
      else if subscript = old then some (.index source new)
      else none

end Shape

end Assay
