import Assay.Number.Layout
import Assay.Text.Quoted
import Assay.Ty.Basic

/-!
Contract: values known before a program runs.

Owns:
- the four sorts of literal and the type each has by itself;
- the numeric readings of a literal;
- the written form of a literal.

Does not own: arithmetic on literals.
-/

namespace Assay

/-- A value known before the program runs. Integers are wider than every integer kind, so that a
result which fits none can be told apart. -/
inductive Literal where
  | bool (value : Bool)
  | int (value : Int)
  | real (value : Float)
  | text (value : String)
deriving Repr, Inhabited

namespace Literal

def kind : Literal → Kind
  | .bool _ => .bool
  | .int value => .ofInt value
  | .real _ => .float64
  | .text _ => .string

/-- The const type of a literal that no context has touched. -/
def naturalType (literal : Literal) (loc : Location) : Ty :=
  (Ty.ofKind literal.kind loc).asConst

def int? : Literal → Option Int
  | .int value => some value
  | _ => none

/-- The nearest floating-point number. -/
def real? : Literal → Option Float
  | .real value => some value
  | .int value => some (Float.ofInt value)
  | _ => none

/-- Real literals keep all places from `0.0001` up to sixteen digits before the point. -/
def realLayout : Number.Layout :=
  { plainFrom := -4
    plainTo := 15
    plusSign := false
    tie := .up }

def realText (x : Float) : String :=
  (realLayout.finite? x).getD <|
    if x.isNaN then "NaN" else if x < 0.0 then "-inf" else "inf"

/-- A literal as a program writes it. -/
def render : Literal → String
  | .bool value => if value then "true" else "false"
  | .int value => toString value
  | .real value => realText value
  | .text value => Text.quoted value

end Literal

end Assay
