import Assay.Check.Document
import Assay.Manifest.Decode

/-!
Contract: the command line, from arguments to printed text.

Owns:
- the grammar of the arguments;
- settings of the command line that take precedence over those of a manifest;
- the text of a report and the exit codes.

Does not own: files. The content of a file is asked for by name.
-/

namespace Assay

/-- What `check` is asked to do. -/
structure CheckOptions where
  manifest : String
  json : Bool := false
  debug : Bool := false
  ignore : Option Severity := none
  word : Option String := none
  character : Option String := none
deriving DecidableEq, Repr, Inhabited

inductive Command where
  | check (options : CheckOptions)
  | version
  /-- The version flag, which prints the name and the number alone. -/
  | versionFlag
deriving DecidableEq, Repr, Inhabited

namespace Command

/-! ## Arguments -/

/-- The options of `check` read so far. Each may be given once. -/
structure Draft where
  manifest : Option String := none
  json : Bool := false
  debug : Bool := false
  ignore : Option Severity := none
  word : Option String := none
  character : Option String := none
deriving DecidableEq, Repr

namespace Draft

/-- The argument that is no option names the manifest. -/
def setManifest (draft : Draft) (value : String) : Option Draft :=
  if draft.manifest.isSome || value.isEmpty then none
  else some { draft with manifest := some value }

def setFlag (draft : Draft) (name : String) : Option Draft :=
  match name with
  | "--json" => if draft.json then none else some { draft with json := true }
  | "--debug" => if draft.debug then none else some { draft with debug := true }
  | _ => none

def setValue (draft : Draft) (name value : String) : Option Draft :=
  match name with
  | "--ignore-level" => do
      let level ← Severity.ofName? value
      if draft.ignore.isSome then none else some { draft with ignore := some level }
  | "--word" => if draft.word.isSome then none else some { draft with word := some value }
  | "--character" =>
      if draft.character.isSome then none else some { draft with character := some value }
  | _ => none

def options? (draft : Draft) : Option CheckOptions := do
  return { manifest := ← draft.manifest
           json := draft.json
           debug := draft.debug
           ignore := draft.ignore
           word := draft.word
           character := draft.character }

end Draft

/-- The options that take a value. -/
def valueOptions : List String :=
  ["--ignore-level", "--word", "--character"]

/-- Anything that starts with a dash, but not a dash alone. -/
def isOption (arg : String) : Bool :=
  match arg.toList with
  | '-' :: _ :: _ => true
  | _ => false

/-- An argument as the name of an option and the value attached to it by `=`. -/
def splitOption (arg : String) : String × Option String :=
  let cs := arg.toList
  match cs.dropWhile (· ≠ '=') with
  | _ :: value => (String.ofList (cs.takeWhile (· ≠ '=')), some (String.ofList value))
  | [] => (arg, none)

/-- The arguments of `check`, in any order. After `--` no argument is an option. -/
def readOptions : List String → Draft → Option Draft
  | [], draft => some draft
  | arg :: rest, draft =>
      if arg = "--" then
        rest.foldlM Draft.setManifest draft
      else if !isOption arg then
        (draft.setManifest arg).bind (readOptions rest)
      else
        match splitOption arg with
        | (name, some value) => (draft.setValue name value).bind (readOptions rest)
        | (name, none) =>
            if name ∈ valueOptions then
              match rest with
              | value :: more =>
                  if isOption value then none
                  else (draft.setValue name value).bind (readOptions more)
              | [] => none
            else
              (draft.setFlag name).bind (readOptions rest)

/-- The version flag. Short flags may stand together behind one dash, and this one is obeyed
before those after it are looked at. -/
def isVersionFlag (arg : String) : Bool :=
  match arg.toList with
  | '-' :: 'V' :: _ => true
  | _ => arg = "--version"

/-- The command that the arguments ask for, unless they are misused. -/
def parse : List String → Option Command
  | "check" :: rest => ((readOptions rest {}).bind Draft.options?).map .check
  | ["version"] | ["version", "--"] => some .version
  | arg :: _ => if isVersionFlag arg then some .versionFlag else none
  | [] => none

/-! ## Results -/

/-- What a command prints, and its exit code. -/
structure Outcome where
  code : Nat
  stdout : String := ""
  stderr : String := ""
deriving DecidableEq, Repr, Inhabited

def Outcome.failure (code : Nat) (message : String) : Outcome :=
  { code := code, stderr := "Error: " ++ message ++ "\n" }

/-- Why the content of a file is not to be had. -/
inductive FileError where
  | notFound
  | isDirectory
  | notText
  | other (message : String)
deriving DecidableEq, Repr

def FileError.message : FileError → String
  | .notFound => "No such file or directory (os error 2)"
  | .isDirectory => "Is a directory (os error 21)"
  | .notText => "stream did not contain valid UTF-8"
  | .other message => message

def program : String := "metalc 0.1.0"

def usage : String :=
  "Usage: metalc <check <MANIFEST> | version>\n"

/-! ## Reports -/

def lines (texts : List String) : String :=
  String.join (texts.map (· ++ "\n"))

def moduleLine (mark : String) (module : Report.Module) : String :=
  "  [" ++ mark ++ "] module " ++ module.name ++ ": " ++
    toString module.structs.length ++ " structs, " ++
    toString module.constants.length ++ " constants, " ++
    toString module.globals.length ++ " globals"

def summaryLine (report : Report) : String :=
  if report.hasErrors then
    toString report.errors ++ " error(s), " ++ toString report.warnings ++ " warning(s)"
  else
    "✅ No errors found"

/-- A report for a reader: the messages, a line for each module and a summary. -/
def reportText (report : Report) : String :=
  let mark := if report.hasErrors then "!" else "✓"
  lines <|
    report.diagnostics.map (fun diagnostic => diagnostic.entry.text) ++
    report.modules.map (moduleLine mark) ++
    [summaryLine report]

/-! ## Execution -/

/-- The settings of a manifest under those of the command line. -/
def CheckOptions.override (options : CheckOptions) (settings : Settings) : Settings :=
  { target :=
      { word := options.word.getD settings.target.word
        character := options.character.getD settings.target.character }
    ignore := options.ignore.or settings.ignore
    debug := settings.debug || options.debug }

def checkFile (options : CheckOptions) (content : Except FileError String) : Outcome :=
  let file := options.manifest
  match content with
  | .error reason => .failure 2 ("cannot read " ++ file ++ ": " ++ reason.message)
  | .ok text =>
      match Manifest.parse text with
      | none => .failure 2 ("in " ++ file ++ ": invalid manifest")
      | some manifest =>
          let settings := CheckOptions.override options manifest.settings
          match { manifest with settings := settings }.check file with
          | .error (.target fault) => .failure 2 ("cannot check " ++ file ++ ": " ++ fault.message)
          | .error .trap => .failure 101 ("cannot check " ++ file)
          | .ok report =>
              { code := if report.hasErrors then 1 else 0
                stdout := if options.json then report.toJson.print ++ "\n" else reportText report }

/-- Run a command, given the contents of files by name. -/
def run (command : Command) (content : String → Except FileError String) : Outcome :=
  match command with
  | .check options => checkFile options (content options.manifest)
  | .version => { code := 0, stdout := lines [program, "metal semantic core"] }
  | .versionFlag => { code := 0, stdout := lines [program] }

/-- The outcome for arguments that ask for no command. -/
def misuse : Outcome :=
  { code := 2, stderr := usage }

end Command

end Assay
