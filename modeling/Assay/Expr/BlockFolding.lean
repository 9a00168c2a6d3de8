import Assay.Expr.Folding
import Assay.Scope.Register

/-!
Contract: folding what the variables of a block start from.

Owns: the order of the variables, and what happens to an expression that cannot be folded.

Does not own: the folding of a single expression.
-/

namespace Assay.Session

/-- A session and its expressions after the folding of a block. `trapped` means that the whole run
ends. -/
structure Folded where
  session : Session
  arena : Arena
  entries : List Entry := []
  ok : Bool := true
  trapped : Bool := false

/-- Fold what one variable starts from, if it is constant once names are replaced. -/
def foldInit (block : BlockId) (state : Folded) (name : String) (init : ExprId) : Folded :=
  let (_, inlined) := Rooted.inlineNames state.session (.block block) ⟨state.arena, init⟩
  if inlined.arena.isConst inlined.root then
    match inlined.simplify with
    | (.ok folded, solved) =>
        { state with
          session := state.session.modifyBlock block fun state => state.setInit name folded
          arena := solved.arena }
    | (.error (.fault fault), solved) =>
        { state with
          arena := solved.arena
          entries := state.entries ++ [.foldError (solved.arena.locAt inlined.root) fault]
          ok := false }
    | (.error .trap, solved) =>
        { state with arena := solved.arena, ok := false, trapped := true }
  else
    { state with arena := inlined.arena }

/-- What the variables of a block start from, in the order of the variables. -/
def initsInOrder (session : Session) (block : BlockId) : List (String × ExprId) :=
  let state := session.blockAt block
  (session.structAt state.vars).members.filterMap fun member =>
    (state.init.lookup member.name).map fun init => (member.name, init)

/-- Fold every constant expression that a variable of a block starts from. -/
def foldBlock (session : Session) (arena : Arena) (block : BlockId) : Folded :=
  (session.initsInOrder block).foldl
    (fun state (name, init) => foldInit block state name init)
    { session := session, arena := arena }

end Assay.Session
