import Assay.Json.Reader
import Assay.Manifest.Basic
import Assay.Number.Numeral

/-!
Contract: manifests from JSON.

Owns:
- which fields a declaration has and what stands for those left out;
- records written as objects or as arrays of their fields;
- the limit on nesting.

Does not own: the grammar of JSON. What is not asked for is skipped unseen.
-/

namespace Assay.Manifest

/-- Reads a value that may hold `room` more levels of arrays and objects. -/
abbrev Decoder (α : Type) : Type :=
  Nat → Json → Option α

namespace Decoder

variable {α β : Type}

def text : Decoder String
  | _, .string text => text
  | _, _ => none

def bool : Decoder Bool
  | _, .bool value => some value
  | _, _ => none

/-- An integer of 64 bits, written as one. -/
def int : Decoder Int64
  | _, .number text => do
      let value ← (Number.Numeral.ofText text).int?
      if -0x8000000000000000 ≤ value ∧ value < 0x8000000000000000 then some (.ofInt value) else none
  | _, _ => none

/-- Any number within the finite range. -/
def real : Decoder Float
  | _, .number text =>
      let value := (Number.Numeral.ofText text).toFloat
      if value.isFinite then some value else none
  | _, _ => none

def optional (item : Decoder α) : Decoder (Option α)
  | _, .null => some none
  | room, value => (item room value).map some

def list (item : Decoder α) : Decoder (List α)
  | room + 1, .array elements => elements.mapM (item room)
  | _, _ => none

def pair (first : Decoder α) (second : Decoder β) : Decoder (α × β)
  | room + 1, .array [x, y] => do return (← first room x, ← second room y)
  | _, _ => none

/-! ## Records -/

/-- The fields of a record that were given, and the room inside it. -/
structure Fields where
  room : Nat
  given : List (String × Json)

/-- A record is an object, in which a known field stands at most once, or an array of its first
fields in order. -/
def fields (names : List String) : Decoder Fields
  | room + 1, .object entries => do
      let keyed ← entries.mapM fun (key, value) => key.map fun name => (name, value)
      let given := keyed.filter fun (name, _) => name ∈ names
      if (given.map Prod.fst).Nodup then some ⟨room, given⟩ else none
  | room + 1, .array elements =>
      if elements.length ≤ names.length then some ⟨room, names.zip elements⟩ else none
  | _, _ => none

def Fields.required (fields : Fields) (name : String) (item : Decoder α) : Option α := do
  item fields.room (← fields.given.lookup name)

def Fields.withDefault (fields : Fields) (name : String) (item : Decoder α) (default : α) :
    Option α :=
  match fields.given.lookup name with
  | none => some default
  | some value => item fields.room value

/-- A value tagged by its one key. -/
def tagged (item : String → Decoder α) : Decoder α
  | room + 1, .object [(some tag, value)] => item tag room value
  | _, _ => none

/-! ## Expressions -/

/-- An expression with at most `depth` others around a part of it. -/
def exprWithin : Nat → Decoder Expr
  | 0 => fun _ _ => none
  | depth + 1 =>
      let inner := exprWithin depth
      tagged fun tag room value =>
        match tag with
        | "int" => (int room value).map .int
        | "float" => (real room value).map .real
        | "str" => (text room value).map .text
        | "bool" => (bool room value).map .bool
        | "name" => (text room value).map .name
        | "group" => (inner room value).map .group
        | "ref" => (inner room value).map .ref
        | "list" => (list inner room value).map .list
        | "chain" => do
            let given ← fields ["first", "rest"] room value
            return .chain
              (← given.required "first" inner)
              (← given.required "rest" (list (pair text inner)))
        | "construct" => do
            let given ← fields ["type", "values"] room value
            return .construct
              (← given.required "type" text)
              (← given.required "values" (list inner))
        | "index" => do
            let given ← fields ["source", "subscript"] room value
            return .index
              (← given.required "source" inner)
              (← given.required "subscript" inner)
        | _ => none

/-- An expression. Each one takes a level of nesting, so the room bounds its depth. -/
def expr : Decoder Expr := fun room value =>
  exprWithin room room value

/-! ## Declarations -/

def member : Decoder Slot := fun room value => do
  let given ← fields ["name", "type"] room value
  return { name := ← given.required "name" text
           type := ← given.required "type" text }

def struct : Decoder Struct := fun room value => do
  let given ← fields ["name", "packed", "docstring", "members"] room value
  let _ ← given.withDefault "docstring" text ""
  return { name := ← given.required "name" text
           packed := ← given.withDefault "packed" bool false
           members := ← given.withDefault "members" (list member) [] }

def blockVariable : Decoder Variable := fun room value => do
  let given ← fields ["name", "type", "init"] room value
  return { name := ← given.required "name" text
           type := ← given.required "type" text
           init := ← given.withDefault "init" (optional expr) none }

def func : Decoder Func := fun room value => do
  let given ← fields ["name", "inbound", "outbound", "locals"] room value
  return { name := ← given.required "name" text
           inbound := ← given.withDefault "inbound" (list member) []
           outbound := ← given.withDefault "outbound" (list member) []
           locals := ← given.withDefault "locals" (list blockVariable) [] }

def constant : Decoder Constant := fun room value => do
  let given ← fields ["name", "type", "docstring", "value"] room value
  return { name := ← given.withDefault "name" text ""
           type := ← given.withDefault "type" (optional text) none
           docstring := ← given.withDefault "docstring" text ""
           value := ← given.required "value" expr }

def module : Decoder Module := fun room value => do
  let names :=
    ["name", "docstring", "imports", "objects", "structs", "functions", "constants"]
  let given ← fields names room value
  let _ ← given.withDefault "docstring" text ""
  return { name := ← given.required "name" text
           imports := ← given.withDefault "imports" (list text) []
           objects := ← given.withDefault "objects" (list text) []
           structs := ← given.withDefault "structs" (list struct) []
           functions := ← given.withDefault "functions" (list func) []
           constants := ← given.withDefault "constants" (list constant) [] }

/-! ## Settings -/

/-- The name of a severity, alone or as the key of a null. -/
def severity : Decoder Severity
  | _, .string (some name) => Severity.ofName? name
  | _ + 1, .object [(some name, .null)] => Severity.ofName? name
  | _, _ => none

def target : Decoder Target := fun room value => do
  let given ← fields ["word", "character"] room value
  let usual : Target := {}
  return { word := ← given.withDefault "word" text usual.word
           character := ← given.withDefault "character" text usual.character }

def settings : Decoder Settings := fun room value => do
  let given ← fields ["target", "ignore_level", "debug"] room value
  return { target := ← given.withDefault "target" target {}
           ignore := ← given.withDefault "ignore_level" (optional severity) none
           debug := ← given.withDefault "debug" bool false }

def manifest : Decoder Manifest := fun room value => do
  let given ← fields ["config", "modules"] room value
  return { settings := ← given.withDefault "config" settings {}
           modules := ← given.withDefault "modules" (list module) [] }

end Decoder

/-- Arrays and objects may be nested this deep. -/
def maxDepth : Nat := 127

/-- The manifest that a text holds. -/
def parse (text : String) : Option Manifest := do
  Decoder.manifest maxDepth (← Json.parse text)

/-- The expression that a text holds. -/
def Expr.parse (text : String) : Option Expr := do
  Decoder.expr maxDepth (← Json.parse text)

end Assay.Manifest
