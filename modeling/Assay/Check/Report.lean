import Assay.Check.Run

/-!
Contract: what a run hands on.

Owns:
- the definitions of each module as they stand at the end of a run;
- the messages that were kept;
- the check of a manifest as a whole.

Does not own: the written form of a report.
-/

namespace Assay

namespace Report

structure Struct where
  name : String
  packed : Bool
  bound : Bool
  /-- Members in order, each with its type. -/
  members : List (String × String)
  dependencies : List String
  attrTable : List AttrRow
deriving Repr, Inhabited

/-- A constant or global with its type and how it starts out. -/
structure Symbol where
  name : String
  type : String
  initializer : Initializer
deriving Repr, Inhabited

/-- A local variable with what it starts from after folding. -/
structure Variable where
  func : String
  name : String
  type : String
  init : Option String
deriving Repr, Inhabited

structure Module where
  name : String
  structs : List Struct
  constants : List Symbol
  globals : List Symbol
  strings : List String
  locals : List Variable
deriving Repr, Inhabited

def Module.constant? (report : Module) (name : String) : Option Symbol :=
  report.constants.find? fun constant => constant.name = name

def Module.struct? (report : Module) (name : String) : Option Struct :=
  report.structs.find? fun struct => struct.name = name

end Report

structure Report where
  modules : List Report.Module
  warnings : Nat
  errors : Nat
  diagnostics : List Diagnostic
deriving Repr, Inhabited

namespace Report

def hasErrors (report : Report) : Bool :=
  0 < report.errors

/-- The first module of a name. -/
def module? (report : Report) (name : String) : Option Module :=
  report.modules.find? fun module => module.name = name

end Report

namespace Run

def structReport (session : Session) (id : StructId) : Report.Struct :=
  let struct := session.structAt id
  { name := struct.name
    packed := struct.packed
    bound := struct.isBound
    members := struct.members.map fun member => (member.name, member.ty.text)
    dependencies := struct.dependencies id
    attrTable := (session.attrTable? id).getD [] }

def localReport (run : Run) (entry : Frame) (spec : Manifest.Variable) : Report.Variable :=
  let block := run.session.blockAt entry.block
  { func := entry.func
    name := spec.name
    type := (((run.session.structAt block.vars).memberType? spec.name).map Ty.text).getD ""
    init := (block.init.lookup spec.name).map run.arena.render }

/-- Attribute tables are reported with their struct. -/
def isAttrTable : Initializer → Bool
  | .attrTable _ => true
  | _ => false

def moduleReport (run : Run) (id : ModuleId) : Report.Module :=
  let module := run.session.moduleAt id
  let structs := (module.structs.map Prod.snd).filter fun struct => struct ∉ Prelude.structIds
  let globals := module.listedGlobals.filter fun global => !isAttrTable global.initializer
  let blocks := run.blocks.filter fun entry => entry.module = id
  { name := module.name
    structs := structs.map (structReport run.session)
    constants := module.listedConstants.map fun constant =>
      ⟨constant.name, constant.ty.text, constant.initializer⟩
    globals := globals.map fun global => ⟨global.name, global.ty.text, global.initializer⟩
    strings := module.strings
    locals := blocks.flatMap fun entry => entry.locals.map (run.localReport entry) }

def report (run : Run) : Report :=
  { modules := run.modules.map fun (id, _) => run.moduleReport id
    warnings := run.log.warnings
    errors := run.log.errors
    diagnostics := run.log.kept }

end Run

/-- Why a manifest has no report. -/
inductive CheckFailure where
  | target (fault : Fault)
  | trap
deriving DecidableEq, Repr

namespace Manifest

/-- Check a manifest that is called `file` in messages. -/
def check (manifest : Manifest) (file : String) : Except CheckFailure Report :=
  match manifest.settings.target.validate with
  | .error fault => .error (.target fault)
  | .ok () =>
      let run := Run.ofManifest manifest file
      if run.trapped then .error .trap else .ok run.report

end Manifest

end Assay
