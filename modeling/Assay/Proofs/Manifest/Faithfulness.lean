import Assay.Proofs.Expr.Relocation
import Assay.Proofs.Manifest.Building
import Assay.Proofs.Manifest.Freshness

/-!
Contract: allocating an expression of a manifest loses nothing of it.
-/

namespace Assay.Manifest.Expr

/-! ## Operator symbols -/

mutual

/-- The operator symbols from left to right, in a chain each before its own operand. -/
def symbols : Expr → List String
  | .int _ | .real _ | .text _ | .bool _ | .name _ => []
  | .group inner | .ref inner => symbols inner
  | .list values | .construct _ values => symbolsAll values
  | .chain first rest => symbols first ++ symbolsRest rest
  | .index source subscript => symbols source ++ symbols subscript

def symbolsAll : List Expr → List String
  | [] => []
  | value :: rest => symbols value ++ symbolsAll rest

def symbolsRest : List (String × Expr) → List String
  | [] => []
  | (symbol, operand) :: rest => symbol :: (symbols operand ++ symbolsRest rest)

end

def firstUnknown? (symbols : List String) : Option String :=
  symbols.find? fun symbol => (BinOp.ofSymbol? symbol).isNone

/-- Wherever it starts, the computation stops at the first unknown symbol, if there is one. -/
def StopsAt {α : Type} (symbols : List String) (lowering : Lowering α) : Prop :=
  ∀ arena symbol, (lowering.run.run arena).1 = .error symbol ↔ firstUnknown? symbols = some symbol

namespace StopsAt

variable {α β : Type} {symbols others : List String} {lowering : Lowering α} {rest : α → Lowering β}

theorem pure (value : α) : StopsAt [] (Pure.pure value : Lowering α) :=
  fun _ _ => ⟨nofun, nofun⟩

theorem lift (computation : StateM Arena α) : StopsAt [] (liftM computation : Lowering α) :=
  fun _ _ => ⟨nofun, nofun⟩

theorem operator (symbol : String) : StopsAt [symbol] (operator symbol) := by
  intro arena other
  unfold Manifest.Expr.operator
  cases known : BinOp.ofSymbol? symbol with
  | none =>
    have isFirst : firstUnknown? [symbol] = some symbol := by simp [firstUnknown?, known]
    rw [isFirst]
    exact ⟨fun stopped => by cases stopped; rfl, fun same => by cases same; rfl⟩
  | some op =>
    have noneUnknown : firstUnknown? [symbol] = none := by simp [firstUnknown?, known]
    rw [noneUnknown]
    exact ⟨nofun, nofun⟩

theorem bind (first : StopsAt symbols lowering) (later : ∀ value, StopsAt others (rest value)) :
    StopsAt (symbols ++ others) (lowering >>= rest) := by
  intro arena symbol
  have atFirst := first arena
  rw [Stopping.run_bind, firstUnknown?, List.find?_append]
  generalize lowering.run.run arena = outcome at atFirst ⊢
  rcases outcome with ⟨stop | value, middle⟩
  · have isFirst : symbols.find? _ = some stop := (atFirst stop).mp rfl
    rw [isFirst]
    exact ⟨fun stopped => by cases stopped; rfl, fun unknown => by cases unknown; rfl⟩
  · have known : symbols.find? _ = none := Option.eq_none_iff_forall_ne_some.mpr fun stop unknown => by
      cases (atFirst stop).mpr unknown
    rw [known]
    exact later value middle symbol

theorem finish (first : StopsAt symbols lowering) (later : ∀ value, StopsAt [] (rest value)) :
    StopsAt symbols (lowering >>= rest) := by
  simpa using first.bind later

end StopsAt

mutual

theorem lower_stopsAt (loc : Location) : ∀ expr : Expr, StopsAt expr.symbols (lower loc expr)
  | .int _ | .real _ | .text _ | .bool _ | .name _ => by
    rw [lower, symbols]
    exact .lift _
  | .group inner | .ref inner => by
    rw [lower, symbols]
    exact (lower_stopsAt loc inner).finish fun _ => .lift _
  | .list values => by
    rw [lower, symbols]
    exact (lowerAll_stopsAt loc values).finish fun _ => .lift _
  | .chain first rest => by
    rw [lower, symbols]
    exact (lower_stopsAt loc first).bind fun _ => (lowerRest_stopsAt loc rest).finish fun _ =>
      .lift _
  | .construct _ values => by
    rw [lower, symbols]
    exact (lowerAll_stopsAt loc values).finish fun _ => (StopsAt.lift _).finish fun _ => .lift _
  | .index source subscript => by
    rw [lower, symbols]
    exact (lower_stopsAt loc source).bind fun _ => (lower_stopsAt loc subscript).finish fun _ =>
      .lift _

theorem lowerAll_stopsAt (loc : Location) : ∀ values : List Expr,
    StopsAt (symbolsAll values) (lowerAll loc values)
  | [] => by
    rw [lowerAll, symbolsAll]
    exact .pure _
  | value :: rest => by
    rw [lowerAll, symbolsAll]
    exact (lower_stopsAt loc value).bind fun _ => (lowerAll_stopsAt loc rest).finish fun _ =>
      .pure _

theorem lowerRest_stopsAt (loc : Location) : ∀ rest : List (String × Expr),
    StopsAt (symbolsRest rest) (lowerRest loc rest)
  | [] => by
    rw [lowerRest, symbolsRest]
    exact .pure _
  | (symbol, operand) :: rest => by
    rw [lowerRest, symbolsRest]
    exact (StopsAt.operator symbol).bind fun _ => (lower_stopsAt loc operand).bind fun _ =>
      (lowerRest_stopsAt loc rest).finish fun _ => .pure _

end

mutual

/-- What denotes has no unknown operator. -/
theorem known_of_denote? {env : Environment} : ∀ {expr : Expr} {result : Except FoldStop Literal},
    denote? env expr = some result → ∀ symbol ∈ expr.symbols, (BinOp.ofSymbol? symbol).isSome
  | .int _, _, _ | .real _, _, _ | .text _, _, _ | .bool _, _, _ | .name _, _, _ => by simp [symbols]
  | .group inner, _, denotes | .ref inner, _, denotes => by
    have known := known_of_denote? (show denote? env inner = _ from denotes)
    rwa [symbols]
  | .chain first rest, _, denotes => by
    obtain ⟨value, denotesFirst, denotesRest⟩ := Option.bind_eq_some_iff.mp denotes
    exact List.forall_mem_append.mpr ⟨known_of_denote? denotesFirst, known_of_denoteRest? denotesRest⟩
  | .list _, _, denotes | .construct _ _, _, denotes | .index _ _, _, denotes => by cases denotes

theorem known_of_denoteRest? {env : Environment} : ∀ {rest : List (String × Expr)}
    {start result : Except FoldStop Literal}, denoteRest? env start rest = some result →
      ∀ symbol ∈ symbolsRest rest, (BinOp.ofSymbol? symbol).isSome
  | [], _, _, _ => by simp [symbolsRest]
  | (symbol, operand) :: rest, _, _, denotes => by
    obtain ⟨op, known, denotesLater⟩ := Option.bind_eq_some_iff.mp denotes
    obtain ⟨value, denotesOperand, denotesRest⟩ := Option.bind_eq_some_iff.mp denotesLater
    exact List.forall_mem_cons.mpr ⟨by simp [known], List.forall_mem_append.mpr
      ⟨known_of_denote? denotesOperand, known_of_denoteRest? denotesRest⟩⟩

end

theorem lower_succeeds (loc : Location) {env : Environment} {expr : Expr}
    {result : Except FoldStop Literal} (denotes : denote? env expr = some result) (arena : Arena) :
    ∃ root, ((lower loc expr).run.run arena).1 = .ok root := by
  cases lowered : ((lower loc expr).run.run arena).1 with
  | ok root => exact ⟨root, rfl⟩
  | error symbol =>
    have unknown := (lower_stopsAt loc expr arena symbol).mp lowered
    have known := known_of_denote? denotes symbol (List.mem_of_find?_eq_some unknown)
    have missing := List.find?_some unknown
    simp_all

/-! ## Reading back -/

/-- In whatever arena it is allocated, an expression combines to what is written. -/
theorem combine_lower {α : Type} (stop : α) (step : Shape α → α) {loc : Location} {expr : Expr}
    {before after : Arena} {root : ExprId}
    (lowered : (lower loc expr).run.run before = (.ok root, after)) :
    after.combine stop step root = expr.fold loc step := by
  have acyclic : ({} : Arena).Acyclic := .of_ordered (by decide)
  have moved := lower_behind before {} loc expr
  have extension := (lower_yields loc expr {}).extension
  rw [Arena.behind_empty, lowered] at moved
  rcases built : (lower loc expr).run.run {} with ⟨symbol | front, arena⟩
  · rw [built] at moved
    cases moved
  · rw [built] at moved extension
    cases moved
    rw [← combine_of_lower stop step loc acyclic built]
    exact (extension.acyclic acyclic).fold_behind fun _ _ _ _ => rfl

/-- Allocating an expression leaves the nodes that were there alone. It stops at the first symbol
that no operator has and else returns the root of a tree of new nodes, each on one path from the
root, whose layers are those of the expression: chains grouped from the left, and a constructor over
one list. -/
theorem lower_faithful (loc : Location) (expr : Expr) (before : Arena) :
    let outcome := (lower loc expr).run.run before
    (∀ {id node}, before.node? id = some node → outcome.2.node? id = some node) ∧
    (∀ symbol, outcome.1 = .error symbol ↔ firstUnknown? expr.symbols = some symbol) ∧
    ∀ root, outcome.1 = .ok root →
      (∀ id, outcome.2.Within id root → before.size ≤ id.index ∧ outcome.2.Allocated id) ∧
      outcome.2.Tree root ∧
      ∀ (α : Type) (stop : α) (step : Shape α → α),
        outcome.2.combine stop step root = expr.fold loc step := by
  intro outcome
  have yields := lower_yields loc expr before
  refine ⟨yields.extension.keeps, lower_stopsAt loc expr before, fun root isRoot => ?_⟩
  have planted := (yields.result isRoot).1.single
  refine ⟨fun id within => ?_, planted.tree, fun α stop step => ?_⟩
  · exact ⟨planted.recent within, planted.allocated within⟩
  · exact combine_lower stop step (Prod.ext isRoot rfl)

/-- `1 + (2 ? 3) ! 4` stops within the group. -/
theorem lower_faithful_twoUnknown :
    ((lower .builtin (.chain (.int 1) [("+", .group (.chain (.int 2) [("?", .int 3)])),
      ("!", .int 4)])).run.run {}).1 = .error "?" :=
  ((lower_faithful .builtin _ {}).2.1 "?").mpr (by decide +kernel)

end Assay.Manifest.Expr
