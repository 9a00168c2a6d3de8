import Assay.Text.Runs

/-!
Contract: the characters that leave no trace where they are not supported.

Owns: the code points with the property Default_Ignorable_Code_Point, as of Unicode 17.
-/

namespace Assay.Text

/-- Fillers, joiners, variation selectors and the like. -/
def ignorable : Runs :=
  [173, 1, 673, 1, 716, 1, 2882, 2, 1619, 2, 85, 5, 2043, 5, 26, 5, 49, 16, 4340, 1, 52379, 16, 239,
    1, 160, 1, 79, 9, 48295, 4, 5327, 8, 798341, 4096]

def isIgnorable (c : Char) : Bool :=
  Runs.contains ignorable c.toNat

end Assay.Text
