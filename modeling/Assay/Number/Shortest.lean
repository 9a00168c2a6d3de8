import Assay.Number.Scaled

/-!
Contract: the fewest decimal digits that read back as a given floating-point number.

Owns:
- the interval of reals that round to a number;
- the search for the shortest decimal in that interval, nearest to the number.

Does not own: how the digits are laid out as text.

Everything is exact integer arithmetic.
-/

namespace Assay.Number

/-- Which of two equally near decimals is taken. -/
inductive Tie where
  | up
  | even
deriving DecidableEq, Repr

/-- The number `digits * 10 ^ exponent`. -/
structure Decimal where
  digits : Nat
  exponent : Int
deriving DecidableEq, Repr

/-- The reals that round to a number, in units of `2 ^ exponent`: those between `low` and `high`
around `mid`, with both ends if `closed`. -/
structure Interval where
  low : Nat
  mid : Nat
  high : Nat
  closed : Bool
  exponent : Int
deriving DecidableEq, Repr

namespace Scaled

/-- Half way to both neighbours. Below a power of two the lower neighbour is nearer. A real at
half distance rounds to the even significand. -/
def interval (x : Scaled) : Interval :=
  let below := if x.significand = 1 <<< 52 ∧ -1074 < x.exponent then 1 else 2
  { low := 4 * x.significand - below
    mid := 4 * x.significand
    high := 4 * x.significand + 2
    closed := x.significand % 2 = 0
    exponent := x.exponent - 2 }

/-- The exponent of the first decimal digit of a number other than zero. -/
def decimalExponent (x : Scaled) : Int :=
  let places := (-x.exponent).toNat
  let shifted := (x.significand * Nat.pow 5 places) <<< x.exponent.toNat
  ((Nat.toDigits 10 shifted).length : Int) - 1 - places

end Scaled

namespace Interval

/-- The multiple of `10 ^ place` that lies in the interval, nearest to its middle. -/
def nearestAt (tie : Tie) (interval : Interval) (place : Int) : Option Nat :=
  let scale := Nat.pow 10 (-place).toNat <<< interval.exponent.toNat
  let unit := Nat.pow 10 place.toNat <<< (-interval.exponent).toNat
  let contains (multiple : Nat) : Bool :=
    if interval.closed then
      interval.low * scale ≤ multiple * unit && multiple * unit ≤ interval.high * scale
    else
      interval.low * scale < multiple * unit && multiple * unit < interval.high * scale
  let below := interval.mid * scale / unit
  let above := below + 1
  let nearer :=
    match compare (2 * (interval.mid * scale)) ((below + above) * unit) with
    | .lt => below
    | .gt => above
    | .eq =>
        match tie with
        | .up => above
        | .even => if below % 2 = 0 then below else above
  match contains below, contains above with
  | true, true => some nearer
  | true, false => some below
  | false, true => some above
  | false, false => none

end Interval

/-- The same number without trailing zeros in its digits. The fuel bounds their count. -/
def Decimal.trim : Nat → Decimal → Decimal
  | 0, x => x
  | fuel + 1, x =>
      if x.digits ≠ 0 ∧ x.digits % 10 = 0 then
        trim fuel ⟨x.digits / 10, x.exponent + 1⟩
      else x

/-- The shortest decimal that rounds to a number other than zero. Seventeen digits always
suffice. -/
def Scaled.shortest (tie : Tie) (x : Scaled) : Decimal :=
  let lead := x.decimalExponent
  let found := (List.range 17).findSome? fun (extra : Nat) =>
    let place := lead - extra
    (x.interval.nearestAt tie place).map fun digits => Decimal.mk digits place
  Decimal.trim 17 (found.getD ⟨x.significand, x.exponent⟩)

end Assay.Number
