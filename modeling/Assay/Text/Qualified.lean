/-!
Contract: names qualified by the modules on the way to a definition.

Owns: the segments of a name between the marks `::`, taken from the left.
-/

namespace Assay.Text

/-- The segments of a name. There is always at least one. -/
def segments : List Char → List (List Char)
  | [] => [[]]
  | ':' :: ':' :: rest => [] :: segments rest
  | c :: rest =>
      match segments rest with
      | [] => [[c]]
      | head :: tail => (c :: head) :: tail

@[simp] theorem segments_ne_nil (cs : List Char) : segments cs ≠ [] := by
  fun_induction segments cs <;> simp_all

/-- The modules a name goes through, in order. -/
def qualifiers (name : String) : List String :=
  (segments name.toList).dropLast.map String.ofList

/-- The name of the definition itself. -/
def baseName (name : String) : String :=
  String.ofList ((segments name.toList).getLastD [])

def isQualified (name : String) : Bool :=
  !(qualifiers name).isEmpty

end Assay.Text
