/-!
Contract: sets of code points as runs.

Owns: membership in such a set.
-/

namespace Assay.Text

/-- The lengths of runs of code points from U+0000 on, which are left out of the set and in it by
turns. -/
abbrev Runs := List Nat

/-- Whether a code point lies in the set, when it is counted from the start of the first run. -/
def Runs.contains : Runs → Nat → Bool
  | left :: taken :: rest, point =>
      if point < left then false
      else point < left + taken || Runs.contains rest (point - (left + taken))
  | _, _ => false

end Assay.Text
