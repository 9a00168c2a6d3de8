import Assay.Fault

/-!
Contract: arithmetic on literals.

Owns:
- the value of a binary operator on two literals;
- the violations for operands that have no value;
- machine words, and the operations on them that overflow or trap.

Does not own: the expressions that hold the operands.
-/

namespace Assay

/-- Why folding stops: a violation to report, or a trap that ends the whole run. -/
inductive FoldStop where
  | fault (fault : FoldFault)
  | trap
deriving Repr, Inhabited

namespace Fold

/-- Integers are computed in machine words of this many bits. -/
abbrev wordBits : Nat := 128

/-- The least and the greatest machine word. -/
def leastWord : Int := -(1 <<< (wordBits - 1))

def greatestWord : Int := (1 <<< (wordBits - 1)) - 1

/-- The least and the greatest value an integer constant may take: those of the signed and of the
unsigned 64-bit kind. -/
def leastInt : Int := -0x8000000000000000

def greatestInt : Int := 0xFFFFFFFFFFFFFFFF

/-! ## Machine words -/

/-- An operation on the two's-complement words of two integers. -/
def onWords
    (op : BitVec wordBits → BitVec wordBits → BitVec wordBits)
    (left right : Int) : Int :=
  (op (.ofInt wordBits left) (.ofInt wordBits right)).toInt

/-- The result of an operation on words. One that is no word itself stops the operation. -/
def word (stop : FoldStop) (result : Int) : Except FoldStop Int :=
  if leastWord ≤ result ∧ result ≤ greatestWord then .ok result else .error stop

/-- The remainder of a division that rounds toward zero. The machine divides to find it, and traps
where the quotient is no word. -/
def remainder (left right : Int) : Except FoldStop Int := do
  let _ ← word .trap (left.tdiv right)
  return left.tmod right

/-- Division that rounds down, from one that rounds toward zero. -/
def floorQuotient (left right : Int) : Except FoldStop Int :=
  if right = 0 then
    .error (.fault .divisionByZero)
  else do
    let quotient ← word (.fault .overflow) (left.tdiv right)
    let rest ← remainder left right
    if rest ≠ 0 ∧ ¬ (left < 0 ↔ right < 0) then
      word .trap (quotient - 1)
    else
      return quotient

/-- The remainder that has the sign of the divisor, from one that has that of the dividend. -/
def floorRemainder (left right : Int) : Except FoldStop Int :=
  if right = 0 then
    .error (.fault .divisionByZero)
  else do
    let rest ← remainder left right
    if rest ≠ 0 ∧ ¬ (rest < 0 ↔ right < 0) then
      word .trap (rest + right)
    else
      return rest

/-! ## Operators -/

/-- The result of an integer operator before its range is checked. Sums, differences and products
that are no words overflow. -/
def intResult (op : BinOp) (left right : Int) : Except FoldStop Int :=
  match op with
  | .add => word (.fault .overflow) (left + right)
  | .sub => word (.fault .overflow) (left - right)
  | .mul => word (.fault .overflow) (left * right)
  | .div => floorQuotient left right
  | .mod => floorRemainder left right
  | .xor => .ok (onWords (· ^^^ ·) left right)
  | .and => .ok (onWords (· &&& ·) left right)
  | .or => .ok (onWords (· ||| ·) left right)
  | .dot => .error (.fault (.unsupported .dot (.int left) (.int right)))

def ints (op : BinOp) (left right : Int) : Except FoldStop Literal := do
  let result ← intResult op left right
  if leastInt ≤ result ∧ result ≤ greatestInt then
    return .int result
  else
    throw (.fault .overflow)

def reals
    (op : BinOp)
    (left right : Float)
    (unsupported : FoldFault) : Except FoldStop Literal :=
  match op with
  | .add => .ok (.real (left + right))
  | .sub => .ok (.real (left - right))
  | .mul => .ok (.real (left * right))
  | .div =>
      if right == 0.0 then .error (.fault .divisionByZero) else .ok (.real (left / right))
  | .mod =>
      if right == 0.0 then .error (.fault .divisionByZero)
      else .ok (.real (Number.floorRemainder left right))
  | _ => .error (.fault unsupported)

def bools
    (op : BinOp)
    (left right : Bool)
    (unsupported : FoldFault) : Except FoldStop Literal :=
  match op with
  | .and => .ok (.bool (left && right))
  | .or => .ok (.bool (left || right))
  | .xor => .ok (.bool (left != right))
  | _ => .error (.fault unsupported)

def texts
    (op : BinOp)
    (left right : String)
    (unsupported : FoldFault) : Except FoldStop Literal :=
  match op with
  | .add => .ok (.text (left ++ right))
  | _ => .error (.fault unsupported)

/-- The value of an operator on two literals. Two integers stay integers; an integer beside a real
is read as a real. -/
def binary (op : BinOp) (left right : Literal) : Except FoldStop Literal :=
  let unsupported := FoldFault.unsupported op left right
  match left, right with
  | .int l, .int r => ints op l r
  | .int l, .real r => reals op (.ofInt l) r unsupported
  | .real l, .int r => reals op l (.ofInt r) unsupported
  | .real l, .real r => reals op l r unsupported
  | .text l, .text r => texts op l r unsupported
  | .bool l, .bool r => bools op l r unsupported
  | _, _ => .error (.fault unsupported)

end Fold

end Assay
