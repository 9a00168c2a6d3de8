import Assay.Fault

/-!
Contract: messages about a program, and the log that keeps them.

Owns:
- severities in ascending order;
- a message as its cause, its place and its severity;
- the log, which counts every message and keeps those above a level.

Does not own: the passes that raise messages, and what they make of the counts.
-/

namespace Assay

inductive Severity where
  | trace
  | warning
  | error
  | fatal
  | internal
deriving DecidableEq, Repr, Inhabited

namespace Severity

def all : List Severity :=
  [.trace, .warning, .error, .fatal, .internal]

def rank : Severity → Nat
  | .trace => 0
  | .warning => 1
  | .error => 2
  | .fatal => 3
  | .internal => 4

def name : Severity → String
  | .trace => "trace"
  | .warning => "warning"
  | .error => "error"
  | .fatal => "fatal"
  | .internal => "internal"

def ofName? (name : String) : Option Severity :=
  all.find? (fun severity => severity.name = name)

@[simp] theorem ofName?_name (severity : Severity) : ofName? severity.name = some severity := by
  cases severity <;> rfl

def header : Severity → String
  | .trace => "[TRACE   ]"
  | .warning => "[WARNING ]"
  | .error => "[ERROR   ]"
  | .fatal => "[FATAL   ]"
  | .internal => "[INTERNAL]"

/-- Errors, fatal errors and internal errors count as errors. -/
def isError (severity : Severity) : Bool :=
  Severity.error.rank ≤ severity.rank

end Severity

/-- What a message is about. -/
inductive Cause where
  | note (text : String)
  | binding (struct : String)
  | fault (fault : Fault)
  | fold (fault : FoldFault)
deriving Repr, Inhabited

def Cause.message : Cause → String
  | .note text => text
  | .binding struct => "binding members for struct " ++ struct
  | .fault violation => violation.message
  | .fold violation => violation.message

/-- A message as a pass raises it. -/
structure Entry where
  severity : Severity
  location : Option Location
  cause : Cause
deriving Repr, Inhabited

namespace Entry

def error (loc : Location) (fault : Fault) : Entry :=
  ⟨.error, some loc, .fault fault⟩

def foldError (loc : Location) (fault : FoldFault) : Entry :=
  ⟨.error, some loc, .fold fault⟩

def internal (loc : Location) (fault : Fault) : Entry :=
  ⟨.internal, some loc, .fault fault⟩

def trace (loc : Location) (cause : Cause) : Entry :=
  ⟨.trace, some loc, cause⟩

def message (entry : Entry) : String :=
  entry.cause.message

def isInternal (entry : Entry) : Bool :=
  entry.severity = .internal

def text (entry : Entry) : String :=
  match entry.location with
  | some loc => entry.severity.header ++ " @" ++ loc.text ++ ": " ++ entry.message
  | none => entry.severity.header ++ " " ++ entry.message

end Entry

/-- A message that was kept, and whether its call site was recorded with it. -/
structure Diagnostic where
  entry : Entry
  origin : Bool
deriving Repr, Inhabited

/-- The log of a run. Messages at or below `ignore` are counted and not kept. -/
structure Log where
  ignore : Option Severity := none
  debug : Bool := false
  counts : Severity → Nat := fun _ => 0
  kept : List Diagnostic := []

namespace Log

def ignores (log : Log) (severity : Severity) : Bool :=
  log.ignore.any fun level => severity.rank ≤ level.rank

def record (log : Log) (entry : Entry) : Log :=
  let counts severity :=
    if severity = entry.severity then log.counts severity + 1 else log.counts severity
  let kept :=
    if log.ignores entry.severity then log.kept
    else log.kept ++ [⟨entry, log.debug && entry.severity.isError⟩]
  { log with counts := counts, kept := kept }

def recordAll (log : Log) (entries : List Entry) : Log :=
  entries.foldl record log

@[simp] theorem recordAll_nil (log : Log) : log.recordAll [] = log :=
  rfl

theorem recordAll_append (log : Log) (first second : List Entry) :
    log.recordAll (first ++ second) = (log.recordAll first).recordAll second :=
  List.foldl_append

def warnings (log : Log) : Nat :=
  log.counts .warning

def errors (log : Log) : Nat :=
  log.counts .error + log.counts .fatal + log.counts .internal

def total (log : Log) : Nat :=
  (Severity.all.map log.counts).foldl (· + ·) 0

def hasErrors (log : Log) : Bool :=
  0 < log.errors

def hasInternal (log : Log) : Bool :=
  0 < log.counts .internal

end Log

end Assay
