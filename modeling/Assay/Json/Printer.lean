import Assay.Json.Basic
import Assay.Number.Layout

/-!
Contract: JSON texts laid out over lines.

Owns:
- the escapes of strings;
- the layout, two blanks for each level and one entry on each line;
- the written form of floating-point numbers.
-/

namespace Assay.Json

/-! ## Scalars -/

def hexByte (n : Nat) : String :=
  let digits := Nat.toDigits 16 n
  String.ofList (List.replicate (2 - digits.length) '0' ++ digits)

def printChar (c : Char) : String :=
  match c with
  | '\x22' => "\\\""
  | '\\' => "\\\\"
  | '\x08' => "\\b"
  | '\x0c' => "\\f"
  | '\n' => "\\n"
  | '\r' => "\\r"
  | '\t' => "\\t"
  | c => if c.toNat < 0x20 then "\\u00" ++ hexByte c.toNat else String.singleton c

def printText (text : String) : String :=
  "\"" ++ String.join (text.toList.map printChar) ++ "\""

/-- Numbers keep all places from `0.00001` up to sixteen digits before the point. -/
def numberLayout : Number.Layout :=
  { plainFrom := -5
    plainTo := 15
    plusSign := true
    tie := .even }

/-- A number that is not finite has no JSON form. -/
def ofFloat (x : Float) : Json :=
  match numberLayout.finite? x with
  | some text => .number text
  | none => .null

/-! ## Layout -/

def indent (level : Nat) : String :=
  "\n" ++ String.ofList (List.replicate (2 * level) ' ')

/-- Entries between brackets, one on each line. -/
def bracket (opening closing : String) (level : Nat) (entries : List String) : String :=
  if entries.isEmpty then
    opening ++ closing
  else
    opening ++ indent (level + 1) ++ String.intercalate ("," ++ indent (level + 1)) entries ++
      indent level ++ closing

mutual

/-- A value that starts at a level of nesting. -/
def printAt (level : Nat) : Json → String
  | .null => "null"
  | .bool value => if value then "true" else "false"
  | .number text => text
  | .string text => printText (text.getD "")
  | .array elements => bracket "[" "]" level (printElements (level + 1) elements)
  | .object fields => bracket "\x7b" "\x7d" level (printFields (level + 1) fields)

def printElements (level : Nat) : List Json → List String
  | [] => []
  | element :: rest => printAt level element :: printElements level rest

def printFields (level : Nat) : List (Option String × Json) → List String
  | [] => []
  | (key, value) :: rest =>
      (printText (key.getD "") ++ ": " ++ printAt level value) :: printFields level rest

end

def print (value : Json) : String :=
  printAt 0 value

end Assay.Json
