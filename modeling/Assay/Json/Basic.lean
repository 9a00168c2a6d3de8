/-!
Contract: JSON values.

Owns: the values that a JSON text denotes, with numbers as they are written.

Does not own: reading and printing.
-/

namespace Assay

/-- A JSON value. Numbers keep their text. A string that escapes half of a surrogate pair denotes
no text, and the fields of an object keep their order. -/
inductive Json where
  | null
  | bool (value : Bool)
  | number (text : String)
  | string (text : Option String)
  | array (elements : List Json)
  | object (fields : List (Option String × Json))
deriving Repr, Inhabited

namespace Json

def ofText (text : String) : Json :=
  .string (some text)

def ofNat (n : Nat) : Json :=
  .number (toString n)

def ofInt (n : Int) : Json :=
  .number (toString n)

/-- An object whose fields are given in order. -/
def record (fields : List (String × Json)) : Json :=
  .object (fields.map fun (key, value) => (some key, value))

end Json

end Assay
