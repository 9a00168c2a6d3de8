import Assay.Proofs.Expr.Remembering

/-!
Contract: an expression of a manifest as it is allocated.
-/

namespace Assay.Manifest.Expr

theorem lower_fresh {loc : Location} {expr : Expr} {arena after : Arena} {root : ExprId}
    (acyclic : arena.Acyclic) (lowered : (lower loc expr).run.run arena = (.ok root, after)) :
    Rooted.Fresh ⟨after, root⟩ := by
  have yields := yields_of_lower lowered
  have planted := (yields.result rfl).1.single
  exact ⟨yields.extension.acyclic acyclic, planted.allocated .refl, planted.tree, planted.untyped⟩

/-- Remembered types never go stale. An expression of a manifest is allocated as a tree in which
nothing is remembered yet; and once such a tree is resolved, whether all its names are found or not,
the type of each of its nodes is the one derived from the literals, the names and the targets of
constructors alone, in whatever order types are read, checks are made, names inlined and constants
folded from then on. -/
theorem typeOf_eq_inferType_after_acts :
    (∀ (loc : Location) (written : Expr) (base after : Arena) (root : ExprId), base.Acyclic →
      (lower loc written).run.run base = (.ok root, after) → Rooted.Fresh ⟨after, root⟩) ∧
    ∀ expr : Rooted, expr.Fresh → ∀ (session : Session) (scope : ScopeId) (acts : List Rooted.Act),
      let last := acts.foldl (Rooted.act session scope) (expr.resolved session scope)
      ∀ id, last.arena.Within id last.root → last.arena.typeOf id = last.arena.inferType id :=
  ⟨fun _ _ _ _ _ acyclic lowered => lower_fresh acyclic lowered,
    fun _ fresh _ _ acts _ within => (fresh.upToDate.acts acts).typeOf_eq within⟩

def widening : Expr :=
  .list [.group (.chain (.name "n") [("+", .int 300)]), .int 1]

def wideningArena : Arena :=
  ((lower .builtin widening).run.run {}).2

theorem typeOf_eq_inferType_after_acts_widening :
    (lower .builtin widening).run.run {} = (.ok ⟨5⟩, wideningArena) ∧
    let resolved := Rooted.resolved ⟨wideningArena, ⟨5⟩⟩ fourSession (.module ⟨0⟩)
    let last := [Rooted.Act.check, .inline, .readType ⟨5⟩, .simplify].foldl
      (Rooted.act fourSession (.module ⟨0⟩)) resolved
    (resolved.arena.node? ⟨5⟩).map (fun node => node.ty.kind) = some .uint8 ∧
      last.arena.typeOf last.root = last.arena.inferType last.root ∧
      (last.arena.inferType last.root).kind = .uint16 := by
  have lowered : (lower .builtin widening).run.run {} = (.ok ⟨5⟩, wideningArena) := rfl
  have fresh := typeOf_eq_inferType_after_acts.1 .builtin widening {} wideningArena ⟨5⟩
    (.of_ordered (by decide)) lowered
  have upToDate := typeOf_eq_inferType_after_acts.2 ⟨wideningArena, ⟨5⟩⟩ fresh fourSession
    (.module ⟨0⟩) [.check, .inline, .readType ⟨5⟩, .simplify]
  exact ⟨lowered, rfl, upToDate _ .refl, rfl⟩

end Assay.Manifest.Expr
