/-!
Contract: where a declaration or a message stands in an input.

Owns:
- positions by file, line and column;
- places known only by a path inside a file, which have no position;
- the written form of a place.

Does not own: the messages that point at a place.
-/

namespace Assay

/-- A place in an input. Lines and columns count from one; line zero means that no position is
known. -/
structure Location where
  file : String
  line : Nat
  column : Nat
deriving DecidableEq, Repr, Inhabited

namespace Location

/-- The place of a declaration that is known only by its path inside `file`. -/
def item (file path : String) : Location :=
  ⟨file ++ "#" ++ path, 0, 0⟩

/-- The place of every definition that no input wrote. -/
def builtin : Location :=
  ⟨"-builtin-", 1, 1⟩

def hasPosition (loc : Location) : Bool :=
  0 < loc.line

/-- `file:line:column`, or the file alone when no position is known. -/
def text (loc : Location) : String :=
  if loc.hasPosition then
    loc.file ++ ":" ++ toString loc.line ++ ":" ++ toString loc.column
  else
    loc.file

end Location

end Assay
