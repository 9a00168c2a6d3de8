import Assay.Expr.View
import Assay.Scope.Lookup

/-!
Contract: binding the names in an expression to the values and types of a scope.

Owns: the search for every name below a node, which goes on after a failure so that all undefined
names are reported.

Does not own: what resolved expressions have to satisfy.
-/

namespace Assay.Arena

/-- An arena after resolution, with what resolution had to say and whether all names were found. -/
structure Resolution where
  arena : Arena
  entries : List Entry
  ok : Bool

/-- Resolve expressions from left to right. -/
def resolveEach (resolve : ExprId → Arena → Resolution) : List ExprId → Arena → Resolution
  | [], arena => ⟨arena, [], true⟩
  | id :: rest, arena =>
      let first := resolve id arena
      let others := resolveEach resolve rest first.arena
      ⟨others.arena, first.entries ++ others.entries, first.ok && others.ok⟩

/-- The struct that a constructor builds. -/
def resolveTarget (session : Session) (scope : ScopeId) (loc : Location) (target : Ty) :
    Except (List Entry) Ty := do
  let missing := Entry.error loc (.undefinedConstructorType target.name)
  let found ← session.resolveType scope target missing
  if found.isStruct then
    return found
  else
    throw [.error loc (.notAStruct found.text)]

/-- Set the target of a constructor, which is also its type. -/
def setTarget (arena : Arena) (id : ExprId) (target : Ty) (child : ExprId) : Arena :=
  (arena.setShape id (.construct target child)).setType id target

/-- Resolve what lies below `id`, within a number of nodes on each path. -/
def resolveWithin (session : Session) (scope : ScopeId) : Nat → ExprId → Arena → Resolution
  | 0, _, arena => ⟨arena, [], false⟩
  | depth + 1, id, arena =>
      match arena.node? id with
      | none => ⟨arena, [], false⟩
      | some node =>
          match node.shape with
          | .literal _ => ⟨arena, [], true⟩
          | .name name =>
              match session.value? scope name with
              | some value => ⟨arena.setType id value.ty, [], true⟩
              | none => ⟨arena, [.error node.loc (.undefinedName name)], false⟩
          | .construct target child =>
              let inner := resolveWithin session scope depth child arena
              if inner.ok then
                match resolveTarget session scope node.loc target with
                | .error entries => ⟨inner.arena, inner.entries ++ entries, false⟩
                | .ok found => ⟨inner.arena.setTarget id found child, inner.entries, true⟩
              else
                inner
          | shape =>
              let operands :=
                resolveEach (resolveWithin session scope depth) shape.children arena
              if operands.ok then
                { operands with arena := operands.arena.rememberType id }
              else
                operands

/-- Resolve every name of an expression and remember the types that become known. -/
def resolve (arena : Arena) (session : Session) (scope : ScopeId) (id : ExprId) : Resolution :=
  resolveWithin session scope arena.size id arena

end Assay.Arena
