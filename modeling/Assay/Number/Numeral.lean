/-!
Contract: the values of decimal numerals.

Owns: the integer and the floating-point reading of a numeral with optional sign, fraction and
exponent.

Does not own: the grammar of numerals. Texts outside it have no meaning here.
-/

namespace Assay.Number

/-- The number `± digits * 10 ^ exponent`, and whether it was written without fraction and
exponent. -/
structure Numeral where
  negative : Bool
  digits : Nat
  exponent : Int
  isInteger : Bool
deriving DecidableEq, Repr

namespace Numeral

def digitsValue (digits : List Char) : Nat :=
  digits.foldl (fun value c => 10 * value + (c.toNat - '0'.toNat)) 0

/-- The exponent after its mark. -/
def exponentValue : List Char → Int
  | '-' :: digits => -(digitsValue digits : Int)
  | '+' :: digits => digitsValue digits
  | digits => digitsValue digits

def ofText (text : String) : Numeral :=
  let (negative, unsigned) :=
    match text.toList with
    | '-' :: rest => (true, rest)
    | cs => (false, cs)
  let integer := unsigned.takeWhile Char.isDigit
  let afterInteger := unsigned.dropWhile Char.isDigit
  let (fraction, mark) :=
    match afterInteger with
    | '.' :: rest => (rest.takeWhile Char.isDigit, rest.dropWhile Char.isDigit)
    | rest => ([], rest)
  { negative := negative
    digits := digitsValue (integer ++ fraction)
    exponent := exponentValue (mark.drop 1) - fraction.length
    isInteger := afterInteger.isEmpty }

/-- The value of an integer numeral. A zero with a sign is not one. -/
def int? (numeral : Numeral) : Option Int :=
  if !numeral.isInteger || (numeral.negative && numeral.digits = 0) then none
  else if numeral.negative then some (-(numeral.digits : Int))
  else some numeral.digits

/-- The floating-point number nearest to a numeral, infinite if it lies beyond the finite ones.
Digits far to either side of the finite range settle the matter at once. -/
def toFloat (numeral : Numeral) : Float :=
  let lead := ((Nat.toDigits 10 numeral.digits).length : Int) + numeral.exponent
  let magnitude : Float :=
    if numeral.digits = 0 ∨ lead < -400 then 0.0
    else if 400 < lead then 1.0 / 0.0
    else Float.ofScientific numeral.digits (numeral.exponent < 0) numeral.exponent.natAbs
  if numeral.negative then -magnitude else magnitude

end Numeral

end Assay.Number
