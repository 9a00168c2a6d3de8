import Assay.Text.Combining
import Assay.Text.Ignorable
import Assay.Text.Unprintable

/-!
Contract: text between double quotes, with every character visible.

Owns: which characters are written as escapes, and the escapes.
-/

namespace Assay.Text

/-- The code point in hexadecimal between braces. -/
def escapedCodePoint (c : Char) : String :=
  "\\u\x7b" ++ String.ofList (Nat.toDigits 16 c.toNat) ++ "\x7d"

/-- Whether a character would be lost to the eye wherever it stands. -/
def isHidden (c : Char) : Bool :=
  isUnprintable c || isIgnorable c

/-- One character of a quoted text. A combining character has nothing to extend at the start of
the text and is escaped there. -/
def quotedChar (atStart : Bool) (c : Char) : String :=
  match c with
  | '\x00' => "\\0"
  | '\t' => "\\t"
  | '\r' => "\\r"
  | '\n' => "\\n"
  | '\\' => "\\\\"
  | '\x27' => "\\'"
  | '\x22' => "\\\""
  | c =>
      if (atStart && isCombining c) || isHidden c then escapedCodePoint c
      else String.singleton c

def quoted (text : String) : String :=
  let body :=
    match text.toList with
    | [] => ""
    | first :: rest => quotedChar true first ++ String.join (rest.map (quotedChar false))
  "\"" ++ body ++ "\""

end Assay.Text
