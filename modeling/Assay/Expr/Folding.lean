import Assay.Expr.View
import Assay.Fold
import Assay.Scope.Lookup

/-!
Contract: folding the constant parts of an expression.

Owns:
- the value of a constant expression as a new literal node;
- the choice of the branch that is folded next;
- splicing a node into an expression;
- names of literal constants replaced by their values.

Does not own: arithmetic on literals.
-/

namespace Assay

/-- An expression under change: its arena and its root. -/
structure Rooted where
  arena : Arena
  root : ExprId
deriving Repr, Inhabited

namespace Arena

/-! ## Value of an expression -/

/-- The node that stands for the value of `id`, within a number of nodes on each path. Operators
become new literals; groups, references and steps stand for their operand. -/
def solveWithin : Nat → ExprId → ExceptT FoldStop (StateM Arena) ExprId
  | 0, id => pure id
  | depth + 1, id => do
      let node := (← get).nodeAt id
      match node.shape with
      | .unary _ child | .step _ child => solveWithin depth child
      | .binary op left right => do
          let leftValue ← solveWithin depth left
          let rightValue ← solveWithin depth right
          match (← get).literal? leftValue, (← get).literal? rightValue with
          | some x, some y =>
              match Fold.binary op x y with
              | .ok value => addLiteral value node.loc
              | .error stop => throw stop
          | _, _ => throw (.fault (.notLiteral op))
      | _ => pure id

/-- The node that stands for the value of `id`. Literals made on the way stay in the arena, also if
folding stops. -/
def solve (arena : Arena) (id : ExprId) : Except FoldStop ExprId × Arena :=
  (solveWithin arena.size id).run.run arena

/-! ## The next branch -/

/-- The later of two branches unless the earlier one is deeper. -/
def deeper (best found : Option (Nat × ExprId)) : Option (Nat × ExprId) :=
  match best, found with
  | some (bestDepth, _), some (depth, _) => if bestDepth ≤ depth then found else best
  | some _, none => best
  | none, _ => found

/-- The deepest constant operator below a node that no larger one contains, with its depth. -/
def branchStep (arena : Arena) (id : ExprId) (node : Node)
    (operands : Shape (Option (Nat × ExprId))) : Option (Nat × ExprId) :=
  if node.shape.isOperator && arena.isConst id then
    some (0, id)
  else
    (operands.children.map (Option.map fun (depth, branch) => (depth + 1, branch))).foldl
      deeper none

/-- The deepest constant operator that no larger one contains. Of equally deep ones the last. -/
def constBranch? (arena : Arena) (root : ExprId) : Option ExprId :=
  (arena.fold none arena.branchStep root).map Prod.snd

/-- How often an operator occurs in an expression, a shared one once for each path to it. -/
def operatorCount (arena : Arena) : ExprId → Nat :=
  arena.fold 0 fun _ node operands =>
    node.shape.isOperator.toNat + operands.children.foldl (· + ·) 0

/-! ## Paths and names -/

/-- The nodes from `root` to the parent of the first occurrence of `target` below it. -/
def pathTo? (arena : Arena) (root target : ExprId) : Option (List ExprId) :=
  arena.fold none (fun id node operands =>
    (node.shape.children.zip operands.children).findSome? fun (child, below) =>
      if child = target then some [id] else below.map (id :: ·)) root

/-- The names in an expression from left to right, each with its node. -/
def names (arena : Arena) : ExprId → List (ExprId × String) :=
  arena.fold [] fun id node operands =>
    let own :=
      match node.shape with
      | .name name => [(id, name)]
      | _ => []
    own ++ operands.children.flatten

end Arena

namespace Rooted

/-- Put `new` in the place of the first occurrence of `old`, and forget the types above it. The
root itself is never replaced. -/
def splice? (expr : Rooted) (old new : ExprId) : Option Rooted := do
  if old = expr.root then
    none
  else
    let path ← expr.arena.pathTo? expr.root old
    let parent ← path.getLast?
    let spliced ← expr.arena.replaceOperand? parent old new
    return { expr with arena := path.foldl Arena.forgetType spliced }

/-- As `splice?`, but no node takes its own place. -/
def exchange? (expr : Rooted) (old new : ExprId) : Option Rooted :=
  if new = old then none else expr.splice? old new

/-- Fold branches until none is left, the root itself was folded or a branch cannot be replaced, at
most `rounds` times. -/
def simplifyWithin : Nat → Rooted → Except FoldStop ExprId × Rooted
  | 0, expr => (.ok expr.root, expr)
  | rounds + 1, expr =>
      match expr.arena.constBranch? expr.root with
      | none => (.ok expr.root, expr)
      | some branch =>
          match expr.arena.solve branch with
          | (.error stop, arena) => (.error stop, { expr with arena := arena })
          | (.ok folded, arena) =>
              if branch = expr.root then
                (.ok folded, ⟨arena, folded⟩)
              else
                match Rooted.exchange? { expr with arena := arena } branch folded with
                | some spliced => simplifyWithin rounds spliced
                | none => (.ok expr.root, { expr with arena := arena })

/-- Fold branches until none is left or the root itself was folded, and return the root. Each round
removes an occurrence of an operator, so that there are rounds enough. -/
def simplify (expr : Rooted) : Except FoldStop ExprId × Rooted :=
  simplifyWithin (expr.arena.operatorCount expr.root) expr

/-- Put the literal value of one name in its place. Says whether it did. -/
def inlineName (session : Session) (scope : ScopeId) (expr : Rooted) (id : ExprId)
    (name : String) : Bool × Rooted :=
  match session.value? scope name with
  | some ⟨ty, some value⟩ =>
      let (literal, grown) := (Arena.addLiteral value (expr.arena.locAt id)).run expr.arena
      let typed := { expr with arena := grown.setType literal ty }
      if id = expr.root then
        (true, { typed with root := literal })
      else
        match typed.splice? id literal with
        | some spliced => (true, spliced)
        | none => (false, typed)
  | _ => (false, expr)

/-- Put the values of literal constants in the places of their names. Counts those replaced. -/
def inlineNames (session : Session) (scope : ScopeId) (expr : Rooted) : Nat × Rooted :=
  (expr.arena.names expr.root).foldl
    (fun (count, current) (id, name) =>
      let (replaced, next) := inlineName session scope current id name
      (count + replaced.toNat, next))
    (0, expr)

end Rooted

end Assay
