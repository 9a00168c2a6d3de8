import Assay.Expr.View
import Assay.Scope.Lookup

/-!
Contract: what a resolved expression has to satisfy.

Owns:
- sources of index operations and arguments of constructors;
- the demand for a value that is known before the program runs.

Does not own: the search for names. Nothing here changes an arena.
-/

namespace Assay

/-- Whether a check passed, and what it had to say. -/
structure Verdict where
  ok : Bool
  entries : List Entry

namespace Verdict

def pass : Verdict :=
  ⟨true, []⟩

def fail (entry : Entry) : Verdict :=
  ⟨false, [entry]⟩

def ensure (ok : Bool) (entry : Entry) : Verdict :=
  if ok then pass else fail entry

/-- Both checks, the first speaking first. -/
def and (first second : Verdict) : Verdict :=
  ⟨first.ok && second.ok, first.entries ++ second.entries⟩

def all (verdicts : List Verdict) : Verdict :=
  verdicts.foldr and pass

end Verdict

namespace Arena

/-! ## Constructors and indices -/

/-- The arguments of a constructor against the members of its struct, both in order. -/
def checkArguments (loc : Location) (values members : List Ty) : Verdict :=
  .all <| (values.zip members).mapIdx fun index (value, member) =>
    .ensure (member.accepts value)
      (.error loc (.argumentTypeMismatch index member.text value.text))

/-- A constructor supplies at most the declared members, each with a value it accepts. -/
def checkConstructor
    (arena : Arena)
    (session : Session)
    (loc : Location)
    (target : Ty)
    (child : ExprId) : Verdict :=
  match target.struct? with
  | none => .fail (.error loc (.notAStruct target.text))
  | some id =>
      let struct := session.structAt id
      let values := (arena.outputs child).map arena.typeOf
      if struct.declaredCount < values.length then
        .fail (.error loc (.tooManyInitializers values.length struct.declaredCount))
      else
        checkArguments loc values (struct.members.map Member.ty)

/-- What a single node has to satisfy. -/
def checkNode (arena : Arena) (session : Session) (node : Node) : Verdict :=
  match node.shape with
  | .index source _ =>
      let ty := arena.typeOf source
      .ensure ty.isIndexable (.error node.loc (.notIndexable ty.text))
  | .construct target child => arena.checkConstructor session node.loc target child
  | _ => .pass

/-- Check every node of an expression, operands first. -/
def check (arena : Arena) (session : Session) : ExprId → Verdict :=
  arena.fold .pass fun _ node operands =>
    (Verdict.all operands.children).and (arena.checkNode session node)

/-! ## Constants -/

/-- The first output whose type is not const. -/
def checkOutputs (arena : Arena) (outputs : List ExprId) : Verdict :=
  match outputs.findIdx? fun output => !(arena.typeOf output).isConst with
  | none => .pass
  | some index =>
      let output := outputs.getD index default
      .fail (.error (arena.locAt output)
        (.nonConstInitializer index (arena.typeOf output).text))

/-- Demand a value that is known before the program runs. Of constructors and lists every output
must have a const type. -/
def requireConst (arena : Arena) (id : ExprId) : Verdict :=
  match arena.shapeAt id with
  | .construct _ child => arena.checkOutputs (arena.outputs child)
  | .list elements => arena.checkOutputs elements
  | shape =>
      .ensure (arena.isConst id) (.error (arena.locAt id) (.notConstant shape.label))

end Arena

end Assay
