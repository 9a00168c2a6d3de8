import Assay.Number.Shortest

/-!
Contract: the written form of a floating-point number.

Owns: a record of the decisions a format makes, and the text it gives to each finite number.

Does not own: the choice of digits, and the texts for numbers that are not finite.
-/

namespace Assay.Number

/-- How a format writes numbers: the decimal exponents for which it writes all places, and the
sign of the exponent elsewhere. -/
structure Layout where
  plainFrom : Int
  plainTo : Int
  plusSign : Bool
  tie : Tie
deriving DecidableEq, Repr

namespace Layout

def zeros (count : Nat) : String :=
  String.ofList (List.replicate count '0')

/-- All places, with at least one on either side of the point. -/
def positional (digits : List Char) (exponent : Int) : String :=
  if 0 ≤ exponent then
    String.ofList digits ++ zeros exponent.toNat ++ ".0"
  else
    let lead := (digits.length : Int) + exponent
    if 0 < lead then
      String.ofList (digits.take lead.toNat) ++ "." ++ String.ofList (digits.drop lead.toNat)
    else
      "0." ++ zeros (-lead).toNat ++ String.ofList digits

/-- One digit before the point, and an exponent. -/
def scientific (layout : Layout) (digits : List Char) (lead : Int) : String :=
  let fraction :=
    match digits.drop 1 with
    | [] => ""
    | rest => "." ++ String.ofList rest
  let sign := if lead < 0 then "-" else if layout.plusSign then "+" else ""
  String.ofList (digits.take 1) ++ fraction ++ "e" ++ sign ++
    String.ofList (Nat.toDigits 10 lead.natAbs)

def finite (layout : Layout) (x : Scaled) : String :=
  let sign := if x.negative then "-" else ""
  if x.significand = 0 then sign ++ "0.0"
  else
    let decimal := x.shortest layout.tie
    let digits := Nat.toDigits 10 decimal.digits
    let lead := (digits.length : Int) - 1 + decimal.exponent
    sign ++
      if layout.plainFrom ≤ lead ∧ lead ≤ layout.plainTo then
        positional digits decimal.exponent
      else
        layout.scientific digits lead

/-- The text of a finite number. -/
def finite? (layout : Layout) (x : Float) : Option String :=
  (Scaled.ofFloat? x).map layout.finite

end Layout

end Assay.Number
