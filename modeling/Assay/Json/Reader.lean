import Assay.Json.Basic

/-!
Contract: the value of a JSON text.

Owns: the grammar of JSON, with nothing before or after the value but blanks.

Does not own: limits on nesting, and what a value has to look like. Numbers are not evaluated, so
their size is not limited here either.
-/

namespace Assay.Json

/-! ## Blanks and words -/

def isBlank (c : Char) : Bool :=
  c = ' ' || c = '\n' || c = '\t' || c = '\r'

def skipBlanks (cs : List Char) : List Char :=
  cs.dropWhile isBlank

/-- What follows a word, if the word stands first. -/
def readWord : List Char → List Char → Option (List Char)
  | [], cs => some cs
  | w :: word, c :: cs => if w = c then readWord word cs else none
  | _ :: _, [] => none

/-! ## Numbers -/

/-- Decimal digits, at least one. -/
def readDigits (cs : List Char) : Option (List Char × List Char) :=
  match cs.takeWhile Char.isDigit with
  | [] => none
  | digits => some (digits, cs.dropWhile Char.isDigit)

/-- An integer part has no leading zero. -/
def readInteger (cs : List Char) : Option (List Char × List Char) :=
  match readDigits cs with
  | some ('0' :: _ :: _, _) => none
  | other => other

def readFraction (cs : List Char) : Option (List Char × List Char) :=
  match cs with
  | '.' :: rest => (readDigits rest).map fun (digits, after) => ('.' :: digits, after)
  | _ => some ([], cs)

def readExponentSign (cs : List Char) : List Char × List Char :=
  match cs with
  | '+' :: rest => (['+'], rest)
  | '-' :: rest => (['-'], rest)
  | _ => ([], cs)

def readExponent (cs : List Char) : Option (List Char × List Char) :=
  match cs with
  | c :: rest =>
      if c = 'e' || c = 'E' then
        let (sign, digits) := readExponentSign rest
        (readDigits digits).map fun (size, after) => (c :: sign ++ size, after)
      else
        some ([], cs)
  | [] => some ([], [])

/-- The text of a number, and what follows it. -/
def readNumber (cs : List Char) : Option (List Char × List Char) := do
  let (sign, unsigned) :=
    match cs with
    | '-' :: rest => (['-'], rest)
    | _ => ([], cs)
  let (integer, afterInteger) ← readInteger unsigned
  let (fraction, afterFraction) ← readFraction afterInteger
  let (exponent, after) ← readExponent afterFraction
  return (sign ++ integer ++ fraction ++ exponent, after)

/-! ## Strings -/

def hexDigit? (c : Char) : Option Nat :=
  if '0' ≤ c ∧ c ≤ '9' then some (c.toNat - '0'.toNat)
  else if 'a' ≤ c ∧ c ≤ 'f' then some (c.toNat - 'a'.toNat + 10)
  else if 'A' ≤ c ∧ c ≤ 'F' then some (c.toNat - 'A'.toNat + 10)
  else none

/-- The unit that four hexadecimal digits write. -/
def hexUnit? (a b c d : Char) : Option Nat := do
  return (((← hexDigit? a) * 16 + (← hexDigit? b)) * 16 + (← hexDigit? c)) * 16 + (← hexDigit? d)

def isHighSurrogate (unit : Nat) : Bool :=
  0xd800 ≤ unit && unit < 0xdc00

def isLowSurrogate (unit : Nat) : Bool :=
  0xdc00 ≤ unit && unit < 0xe000

def joinSurrogates (high low : Nat) : Char :=
  Char.ofNat (0x10000 + (high - 0xd800) * 0x400 + (low - 0xdc00))

/-- The character that a one-letter escape stands for. -/
def escaped? : Char → Option Char
  | '\x22' => some '\x22'
  | '\\' => some '\\'
  | '/' => some '/'
  | 'b' => some '\x08'
  | 'f' => some '\x0c'
  | 'n' => some '\n'
  | 'r' => some '\r'
  | 't' => some '\t'
  | _ => none

/-- A part of a string: a character as written, or a unit that an escape writes. -/
inductive Piece where
  | char (c : Char)
  | unit (code : Nat)
deriving DecidableEq, Repr

/-- The parts of a string up to the closing quote, and what follows the quote. `seen` holds the
parts read so far, last first. -/
def readPieces : List Char → List Piece → Option (List Piece × List Char)
  | [], _ => none
  | '\x22' :: rest, seen => some (seen.reverse, rest)
  | '\\' :: 'u' :: a :: b :: c :: d :: rest, seen =>
      match hexUnit? a b c d with
      | none => none
      | some code => readPieces rest (.unit code :: seen)
  | '\\' :: c :: rest, seen =>
      match escaped? c with
      | none => none
      | some char => readPieces rest (.char char :: seen)
  | c :: rest, seen =>
      if c.toNat < 0x20 || c = '\\' then none else readPieces rest (.char c :: seen)

/-- The characters of a string, unless half of a surrogate pair stands alone. -/
def joinPieces : List Piece → Option (List Char)
  | [] => some []
  | .char c :: rest => (joinPieces rest).map (c :: ·)
  | .unit high :: .unit low :: rest =>
      if isHighSurrogate high then
        if isLowSurrogate low then (joinPieces rest).map (joinSurrogates high low :: ·) else none
      else if isLowSurrogate high then none
      else (joinPieces (.unit low :: rest)).map (Char.ofNat high :: ·)
  | .unit code :: rest =>
      if isHighSurrogate code || isLowSurrogate code then none
      else (joinPieces rest).map (Char.ofNat code :: ·)

/-- The text up to the closing quote, and what follows the quote. -/
def readString (cs : List Char) : Option (Option String × List Char) :=
  (readPieces cs []).map fun (pieces, rest) => ((joinPieces pieces).map String.ofList, rest)

/-! ## Values -/

mutual

/-- A value after blanks, and what follows it. -/
def readValue : Nat → List Char → Option (Json × List Char)
  | 0, _ => none
  | fuel + 1, cs =>
      match skipBlanks cs with
      | 'n' :: rest => (readWord ['u', 'l', 'l'] rest).map fun after => (.null, after)
      | 't' :: rest => (readWord ['r', 'u', 'e'] rest).map fun after => (.bool true, after)
      | 'f' :: rest =>
          (readWord ['a', 'l', 's', 'e'] rest).map fun after => (.bool false, after)
      | '\x22' :: rest => (readString rest).map fun (text, after) => (.string text, after)
      | '[' :: rest =>
          match skipBlanks rest with
          | ']' :: after => some (.array [], after)
          | _ => (readElements fuel rest).map fun (elements, after) => (.array elements, after)
      | '\x7b' :: rest =>
          match skipBlanks rest with
          | '\x7d' :: after => some (.object [], after)
          | _ => (readFields fuel rest).map fun (fields, after) => (.object fields, after)
      | other =>
          (readNumber other).map fun (text, after) => (.number (String.ofList text), after)

/-- The elements of an array up to its closing bracket. -/
def readElements : Nat → List Char → Option (List Json × List Char)
  | 0, _ => none
  | fuel + 1, cs => do
      let (first, rest) ← readValue fuel cs
      match skipBlanks rest with
      | ']' :: after => return ([first], after)
      | ',' :: more =>
          let (others, after) ← readElements fuel more
          return (first :: others, after)
      | _ => none

/-- The fields of an object up to its closing brace. -/
def readFields : Nat → List Char → Option (List (Option String × Json) × List Char)
  | 0, _ => none
  | fuel + 1, cs =>
      match skipBlanks cs with
      | '\x22' :: afterQuote => do
          let (key, afterKey) ← readString afterQuote
          match skipBlanks afterKey with
          | ':' :: afterColon =>
              let (value, rest) ← readValue fuel afterColon
              match skipBlanks rest with
              | '\x7d' :: after => return ([(key, value)], after)
              | ',' :: more =>
                  let (others, after) ← readFields fuel more
                  return ((key, value) :: others, after)
              | _ => none
          | _ => none
      | _ => none

end

/-- The value of a whole text. Every call consumes a character or hands the text on once, so twice
the length of the text is room enough. -/
def parse (text : String) : Option Json :=
  let cs := text.toList
  match readValue (2 * cs.length + 2) cs with
  | some (value, rest) => if (skipBlanks rest).isEmpty then some value else none
  | none => none

end Assay.Json
