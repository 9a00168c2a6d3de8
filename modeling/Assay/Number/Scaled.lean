/-!
Contract: finite floating-point numbers as exact multiples of a power of two.

Owns:
- the exact value of a finite number and the number with a given exact value;
- the remainder of a division, which is exact, and its variant with the divisor's sign.

Does not own: decimal digits.
-/

namespace Assay.Number

/-- The number `± significand * 2 ^ exponent`. -/
structure Scaled where
  negative : Bool
  significand : Nat
  exponent : Int
deriving DecidableEq, Repr

namespace Scaled

/-- The exact value of a number, unless it is infinite or not a number. -/
def ofFloat? (x : Float) : Option Scaled :=
  let bits := x.toBits.toNat
  let negative := bits >>> 63 = 1
  let field : Nat := (bits >>> 52) % 0x800
  let fraction : Nat := bits % (1 <<< 52)
  if field = 2047 then none
  else if field = 0 then some ⟨negative, fraction, -1074⟩
  else some ⟨negative, (1 <<< 52) + fraction, (field : Int) - 1075⟩

/-- The number with a given exact value. The value must be representable: the significand has at
most 53 bits and the exponent is at least `-1074`. -/
def toFloat (x : Scaled) : Float :=
  let sign := if x.negative then 1 <<< 63 else 0
  let lead : Int := x.significand.log2 + x.exponent
  let magnitude :=
    if x.significand = 0 then 0
    else if lead < -1022 then x.significand <<< (x.exponent + 1074).toNat
    else ((lead + 1022).toNat <<< 52) + (x.significand <<< (52 - x.significand.log2))
  Float.ofBits (UInt64.ofNat (sign + magnitude))

/-- What is left of `x` after the largest multiple of `y` not beyond it, with the sign of `x`. -/
def remainder (x y : Scaled) : Scaled :=
  let exponent := min x.exponent y.exponent
  let dividend := x.significand <<< (x.exponent - exponent).toNat
  let divisor := y.significand <<< (y.exponent - exponent).toNat
  ⟨x.negative, dividend % divisor, exponent⟩

end Scaled

def notANumber : Float :=
  0.0 / 0.0

/-- The remainder of the division that rounds its quotient towards zero. -/
def remainder (x y : Float) : Float :=
  match Scaled.ofFloat? x, Scaled.ofFloat? y with
  | some dividend, some divisor =>
      if divisor.significand = 0 then notANumber else (dividend.remainder divisor).toFloat
  | some _, none => if y.isNaN then notANumber else x
  | none, _ => notANumber

/-- The remainder moved to the side of the divisor's sign. -/
def floorRemainder (x y : Float) : Float :=
  let rest := remainder x y
  if rest != 0.0 && decide (rest < 0.0) != decide (y < 0.0) then rest + y else rest

end Assay.Number
