import Assay.Command

/-!
Contract: the program.

Owns: reading the manifest, printing and the exit code.

Does not own: any decision about them.
-/

namespace Assay.Command

/-- The content of a file, or why it is not to be had. -/
def readContent (path : String) : IO (Except FileError String) := do
  try
    let bytes ← IO.FS.readBinFile path
    return (String.fromUTF8? bytes).elim (.error .notText) .ok
  catch
    | .noFileOrDirectory _ _ _ => return .error .notFound
    | .inappropriateType _ _ _ => return .error .isDirectory
    | reason => return .error (.other (toString reason))

def execute (args : List String) : IO Outcome := do
  match parse args with
  | none => return misuse
  | some (.check options) =>
      let content ← readContent options.manifest
      return run (.check options) fun _ => content
  | some command => return command.run fun _ => .error .notFound

end Assay.Command

def main (args : List String) : IO UInt32 := do
  let outcome ← Assay.Command.execute args
  IO.print outcome.stdout
  IO.eprint outcome.stderr
  return UInt32.ofNat outcome.code
