import Assay.Proofs.Expr.Inlining
import Assay.Proofs.Expr.Placement
import Assay.Proofs.Scope.Views

/-!
Contract: computations on expressions do not depend on where in an arena these stand.
-/

namespace Assay

open Assay.Computation

/-! ## Allocation -/

namespace Arena

variable {base arena : Arena} {id : ExprId}

abbrev IsBehind (base arena moved : Arena) : Prop :=
  moved = base.behind arena

theorem alloc_mirrors (base : Arena) (node : Node) :
    Mirrors base.IsBehind base.past (alloc node) (alloc (node.rename base.past)) := by
  rintro arena _ rfl
  rw [alloc_behind]
  exact ⟨rfl, rfl⟩

theorem add_mirrors (base : Arena) (shape : Shape ExprId) (loc : Location) :
    Mirrors base.IsBehind base.past (add shape loc) (add (shape.map base.past) loc) :=
  alloc_mirrors base _

theorem addLiteral_mirrors (base : Arena) (value : Literal) (loc : Location) :
    Mirrors base.IsBehind base.past (addLiteral value loc) (addLiteral value loc) :=
  alloc_mirrors base _

theorem addChain_mirrors (base : Arena) (first : ExprId) (rest : List (BinOp × ExprId)) :
    Mirrors base.IsBehind base.past (addChain first rest)
      (addChain (base.past first) (rest.map (Prod.map (fun op => op) base.past))) := by
  induction rest generalizing first with
  | nil => exact Mirrors.pure base.past first
  | cons link rest ih =>
    rintro arena _ rfl
    have chained : Mirrors base.IsBehind base.past
        (add (.binary link.1 first link.2) (arena.locAt first) >>= fun left => addChain left rest)
        (add ((Shape.binary link.1 first link.2).map base.past) (arena.locAt first) >>= fun left =>
          addChain left (rest.map (Prod.map (fun op => op) base.past))) :=
      Mirrors.bind (add_mirrors base _ _) ih
    have sameLoc : (addChain (base.past first)
        ((link :: rest).map (Prod.map (fun op => op) base.past))).run (base.behind arena) =
          (add ((Shape.binary link.1 first link.2).map base.past) (arena.locAt first) >>= fun left =>
            addChain left (rest.map (Prod.map (fun op => op) base.past))).run (base.behind arena) := by
      rw [← locAt_behind base]
      rfl
    rw [sameLoc]
    exact chained arena _ rfl

end Arena

namespace Manifest.Expr

open Arena (IsBehind)

variable {base : Arena}

mutual

theorem lower_mirrors (loc : Location) : ∀ expr : Expr,
    Stopping.Mirrors base.IsBehind base.past (lower loc expr) (lower loc expr)
  | .int _ | .real _ | .text _ | .bool _ => by
    rw [lower]
    exact .lift (Arena.addLiteral_mirrors base _ loc)
  | .name _ => by
    rw [lower]
    exact .lift (Arena.add_mirrors base _ loc)
  | .group inner | .ref inner => by
    rw [lower]
    exact (lower_mirrors loc inner).bind fun child => .lift (Arena.add_mirrors base (.unary _ child) loc)
  | .list values => by
    rw [lower]
    exact (lowerAll_mirrors loc values).bind fun elements =>
      .lift (Arena.add_mirrors base (.list elements) loc)
  | .chain first rest => by
    rw [lower]
    exact (lower_mirrors loc first).bind fun start => (lowerRest_mirrors loc rest).bind fun links =>
      .lift (Arena.addChain_mirrors base start links)
  | .construct type values => by
    rw [lower]
    exact (lowerAll_mirrors loc values).bind fun elements =>
      (Stopping.Mirrors.lift (Arena.add_mirrors base (.list elements) loc)).bind fun arguments =>
        .lift (Arena.add_mirrors base (.construct (.ofName type loc) arguments) loc)
  | .index source subscript => by
    rw [lower]
    exact (lower_mirrors loc source).bind fun sourceId =>
      (lower_mirrors loc subscript).bind fun subscriptId =>
        .lift (Arena.add_mirrors base (.index sourceId subscriptId) loc)

theorem lowerAll_mirrors (loc : Location) : ∀ values : List Expr,
    Stopping.Mirrors base.IsBehind (List.map base.past) (lowerAll loc values) (lowerAll loc values)
  | [] => by
    rw [lowerAll]
    exact .pure (List.map base.past) []
  | value :: rest => by
    rw [lowerAll]
    exact (lower_mirrors loc value).bind fun first => (lowerAll_mirrors loc rest).bind fun others =>
      .pure (List.map base.past) (first :: others)

theorem lowerRest_mirrors (loc : Location) : ∀ rest : List (String × Expr),
    Stopping.Mirrors base.IsBehind (List.map (Prod.map (fun op => op) base.past))
      (lowerRest loc rest) (lowerRest loc rest)
  | [] => by
    rw [lowerRest]
    exact .pure (List.map (Prod.map (fun op => op) base.past)) []
  | (symbol, operand) :: rest => by
    have operator : Stopping.Mirrors base.IsBehind (fun op => op) (operator symbol)
        (operator symbol) := by
      unfold Manifest.Expr.operator
      split <;> exact fun _ _ behind => ⟨rfl, behind⟩
    rw [lowerRest]
    exact operator.bind fun op => (lower_mirrors loc operand).bind fun first =>
      (lowerRest_mirrors loc rest).bind fun others =>
        .pure (List.map (Prod.map (fun op => op) base.past)) ((op, first) :: others)

end

theorem lower_behind (base arena : Arena) (loc : Location) (expr : Expr) :
    (expr.lower loc).run.run (base.behind arena) =
      (((expr.lower loc).run.run arena).1.map base.past,
        base.behind ((expr.lower loc).run.run arena).2) := by
  obtain ⟨isImage, isBehind⟩ := lower_mirrors loc expr arena (base.behind arena) rfl
  exact Prod.ext isImage isBehind

end Manifest.Expr

/-! ## Resolution -/

namespace Arena

variable {base arena origin : Arena} {id : ExprId} {first second : Session} {scope : ScopeId}
  {depth depthBehind : Nat}

def Resolution.behind (base : Arena) (resolution : Resolution) : Resolution :=
  { resolution with arena := base.behind resolution.arena }

theorem setTarget_behind (base arena : Arena) (id : ExprId) (target : Ty) (child : ExprId) :
    (base.behind arena).setTarget (base.past id) target (base.past child) =
      base.behind (arena.setTarget id target child) := by
  have shaped := setShape_behind base arena id (.construct target child)
  rw [setTarget, setTarget, ← setType_behind, ← shaped]
  rfl

def Resolution.remember (resolution : Resolution) (id : ExprId) : Resolution :=
  if resolution.ok then { resolution with arena := resolution.arena.rememberType id } else resolution

theorem Resolution.remember_behind {resolution : Resolution} (acyclic : resolution.arena.Acyclic)
    (base : Arena) (id : ExprId) :
    (resolution.behind base).remember (base.past id) = (resolution.remember id).behind base := by
  have moved := acyclic.rememberType_behind base id
  by_cases isOk : resolution.ok = true
  · rw [remember, remember, if_pos isOk, if_pos (show (resolution.behind base).ok = true from isOk)]
    exact congrArg (fun arena => (⟨arena, resolution.entries, resolution.ok⟩ : Resolution)) moved
  · rw [remember, remember, if_neg isOk, if_neg (show ¬ (resolution.behind base).ok = true from isOk)]

theorem resolveEach_behind {resolve resolveBehind : ExprId → Arena → Resolution} {ids : List ExprId}
    (each : ∀ id ∈ ids, ∀ arena, origin.SameForms arena →
      resolveBehind (base.past id) (base.behind arena) = (resolve id arena).behind base ∧
        origin.SameForms (resolve id arena).arena)
    (same : origin.SameForms arena) :
    resolveEach resolveBehind (ids.map base.past) (base.behind arena) =
      (resolveEach resolve ids arena).behind base := by
  induction ids generalizing arena with
  | nil => rfl
  | cons id ids ih =>
    obtain ⟨isFirst, others⟩ := List.forall_mem_cons.mp each
    obtain ⟨moved, sameNext⟩ := isFirst arena same
    have rest := ih others sameNext
    simp only [List.map_cons, resolveEach, moved]
    rw [show ((resolve id arena).behind base).arena = base.behind (resolve id arena).arena from rfl,
      rest]
    rfl

section

variable (view : Session.SameView scope first second)
include view

theorem resolveTarget_congr (loc : Location) (target : Ty) :
    resolveTarget second scope loc target = resolveTarget first scope loc target := by
  rw [resolveTarget, resolveTarget]
  simp only [view.type]

/-- Resolution goes by the forms of nodes, which it keeps, so the height of `id` in `origin` is the
room that it needs. -/
theorem resolveWithin_behind (acyclic : origin.Acyclic) (room : origin.rank id < depth)
    (roomBehind : origin.rank id < depthBehind) (same : origin.SameForms arena) :
    (resolveWithin second scope depthBehind (base.past id) (base.behind arena)) =
      (resolveWithin first scope depth id arena).behind base := by
  induction depth generalizing depthBehind id arena with
  | zero => omega
  | succ depth ih =>
    obtain ⟨depthBehind, rfl⟩ : ∃ less, depthBehind = less + 1 := ⟨depthBehind - 1, by omega⟩
    have acyclicNow := same.acyclic acyclic
    have operand : ∀ child, arena.Operand child id → ∀ now, origin.SameForms now →
        resolveWithin second scope depthBehind (base.past child) (base.behind now) =
          (resolveWithin first scope depth child now).behind base ∧
            origin.SameForms (resolveWithin first scope depth child now).arena := by
      intro child isOperand now sameNow
      have smaller := acyclic.rank_lt (same.operand_iff.mp isOperand)
      exact ⟨ih (by omega) (by omega) sameNow,
        sameNow.trans (resolveWithin_resolves depth child now).forms⟩
    rw [resolveWithin, resolveWithin, node?_behind]
    cases found : arena.node? id with
    | none => rfl
    | some node =>
      obtain ⟨loc, ty, shape⟩ := node
      have each := resolveEach_behind
        (fun child member => operand child (operand_of_mem found member)) same
      have resolved : Resolves first scope arena
          (resolveEach (resolveWithin first scope depth) shape.children arena).arena :=
        resolveEach_resolves (resolveWithin_resolves depth) _ arena
      have remembered := Resolution.remember_behind (resolved.forms.acyclic acyclicNow) base id
      rw [← each] at remembered
      cases shape with
      | literal value => rfl
      | name name =>
        dsimp only [Option.map_some, Node.rename, Shape.map]
        rw [view.value]
        cases first.value? scope name with
        | none => rfl
        | some value =>
          dsimp only
          rw [setType_behind]
          rfl
      | construct target child =>
        obtain ⟨moved, _⟩ := operand child
          (operand_of_mem found (List.mem_singleton_self _)) arena same
        dsimp only [Option.map_some, Node.rename, Shape.map]
        rw [moved, resolveTarget_congr view]
        generalize resolveWithin first scope depth child arena = inner
        show (if inner.ok then _ else _) = _
        split
        · next isOk =>
          cases resolveTarget first scope loc target with
          | error entries => rfl
          | ok found =>
            dsimp only
            exact congrArg (fun arena => (⟨arena, inner.entries, true⟩ : Resolution))
              (setTarget_behind base inner.arena id found child)
        · next failed => rfl
      | _ => exact remembered

theorem resolve_behind (acyclic : arena.Acyclic) (base : Arena) (id : ExprId) :
    (base.behind arena).resolve second scope (base.past id) =
      (arena.resolve first scope id).behind base := by
  by_cases allocated : arena.Allocated id
  · exact resolveWithin_behind view acyclic (acyclic.rank_lt_size allocated)
      (acyclic.rank_lt_size_behind allocated) (.refl arena)
  · have nothing : ∀ (session : Session) (arena : Arena) (id : ExprId), ¬ arena.Allocated id →
        arena.resolve session scope id = ⟨arena, [], false⟩ := by
      intro session arena id unallocated
      rw [resolve]
      cases arena.size with
      | zero => rfl
      | succ depth => rw [resolveWithin, node?_eq_none unallocated]
    rw [nothing _ _ _ allocated, nothing _ _ _ (not_allocated_behind allocated)]
    rfl

end

/-! ## Solving -/

/-- Solving goes by the nodes of `origin`, which stay as literals are added. -/
theorem solveWithin_behind (acyclic : origin.Acyclic) (allocated : origin.Allocated id)
    (room : origin.rank id < depth) (roomBehind : origin.rank id < depthBehind)
    (grows : origin.Grows arena) :
    (solveWithin depthBehind (base.past id)).run.run (base.behind arena) =
      Prod.map (Except.map base.past) base.behind ((solveWithin depth id).run.run arena) := by
  induction depth generalizing depthBehind id arena with
  | zero => omega
  | succ depth ih =>
    obtain ⟨depthBehind, rfl⟩ : ∃ less, depthBehind = less + 1 := ⟨depthBehind - 1, by omega⟩
    obtain ⟨node, found⟩ := exists_node? allocated
    have isShape : arena.shapeAt id = node.shape :=
      (grows.shapeAt_eq allocated).trans (shapeAt_of_node? found)
    have shapeBehind := shapeAt_behind base arena id
    have operand : ∀ child ∈ node.shape.children, ∀ now, origin.Grows now →
        (solveWithin depthBehind (base.past child)).run.run (base.behind now) =
          Prod.map (Except.map base.past) base.behind ((solveWithin depth child).run.run now) ∧
        origin.Grows ((solveWithin depth child).run.run now).2 := by
      intro child member now growsNow
      have isOperand := operand_of_mem found member
      have smaller := acyclic.rank_lt isOperand
      have heldChild := acyclic.allocated isOperand
      exact ⟨ih heldChild (by omega) (by omega) growsNow,
        growsNow.trans (solveWithin_outcome acyclic growsNow heldChild (by omega)).1⟩
    rw [isShape] at shapeBehind
    cases shape : node.shape with
    | unary op child =>
      rw [shape] at isShape shapeBehind operand
      rw [solveWithin_unary depth isShape, solveWithin_unary depthBehind shapeBehind]
      exact (operand child (List.mem_singleton_self _) arena grows).1
    | step op child =>
      rw [shape] at isShape shapeBehind operand
      rw [solveWithin_step depth isShape, solveWithin_step depthBehind shapeBehind]
      exact (operand child (List.mem_singleton_self _) arena grows).1
    | binary op left right =>
      rw [shape] at isShape shapeBehind operand
      rw [solveWithin_binary depth isShape, solveWithin_binary depthBehind shapeBehind]
      obtain ⟨leftMoved, leftGrows⟩ := operand left List.mem_cons_self arena grows
      rw [leftMoved]
      generalize (solveWithin depth left).run.run arena = leftResult at leftGrows ⊢
      obtain ⟨leftStop | leftValue, afterLeft⟩ := leftResult
      · rfl
      obtain ⟨rightMoved, rightGrows⟩ :=
        operand right (List.mem_cons_of_mem _ List.mem_cons_self) afterLeft leftGrows
      dsimp only [Prod.map, Except.map]
      rw [rightMoved]
      generalize (solveWithin depth right).run.run afterLeft = rightResult at rightGrows ⊢
      obtain ⟨rightStop | rightValue, grown⟩ := rightResult
      · rfl
      dsimp only [Prod.map, Except.map]
      rw [literal?_behind, literal?_behind, locAt_behind]
      cases grown.literal? leftValue with
      | none => rfl
      | some x =>
        cases grown.literal? rightValue with
        | none => rfl
        | some y =>
          dsimp only
          cases Fold.binary op x y with
          | error stop => rfl
          | ok value =>
            dsimp only
            obtain ⟨isNew, isBehind⟩ :=
              addLiteral_mirrors base value (arena.locAt id) grown _ rfl
            exact Prod.ext (congrArg Except.ok isNew) isBehind
    | _ =>
      have leaf : (arena.shapeAt id).isOperator = false := by
        rw [isShape, shape]
        rfl
      have leafBehind : ((base.behind arena).shapeAt (base.past id)).isOperator = false := by
        rw [shapeBehind, shape]
        rfl
      rw [solveWithin_leaf depth leaf, solveWithin_leaf depthBehind leafBehind]
      rfl

theorem Acyclic.solve_behind (acyclic : arena.Acyclic) (allocated : arena.Allocated id)
    (base : Arena) :
    (base.behind arena).solve (base.past id) =
      Prod.map (Except.map base.past) base.behind (arena.solve id) :=
  solveWithin_behind acyclic allocated (acyclic.rank_lt_size allocated)
    (acyclic.rank_lt_size_behind allocated) (.refl arena)

end Arena

/-! ## Rounds of folding -/

namespace Rooted

variable {expr : Rooted} {first second : Session} {scope : ScopeId} (base : Arena) {rounds : Nat}
  {branch folded : ExprId} {grown : Arena}

def behind (expr : Rooted) : Rooted :=
  ⟨base.behind expr.arena, base.past expr.root⟩

theorem splice?_behind (acyclic : expr.arena.Acyclic) (old new : ExprId) :
    (expr.behind base).splice? (base.past old) (base.past new) =
      (expr.splice? old new).map (behind base) := by
  by_cases isRoot : old = expr.root
  · simp [splice?, behind, isRoot]
  · have notRoot : base.past old ≠ (expr.behind base).root :=
      fun same => isRoot (base.past_injective same)
    rw [splice?_eq isRoot, splice?_eq notRoot]
    show ((base.behind expr.arena).pathTo? (base.past expr.root) (base.past old)).bind _ = _
    rw [acyclic.pathTo?_behind]
    cases expr.arena.pathTo? expr.root old with
    | none => rfl
    | some path =>
      rw [Option.map_some, Option.bind_some, Option.bind_some, List.getLast?_map]
      cases path.getLast? with
      | none => rfl
      | some parent =>
        rw [Option.map_some, Option.bind_some, Option.bind_some]
        show ((base.behind expr.arena).replaceOperand? _ _ _).map _ = _
        rw [Arena.replaceOperand?_behind]
        cases expr.arena.replaceOperand? parent old new with
        | none => rfl
        | some replaced =>
          simp only [Option.map_some, Arena.forgetTypes_behind]
          rfl

theorem exchange?_behind (acyclic : expr.arena.Acyclic) (old new : ExprId) :
    (expr.behind base).exchange? (base.past old) (base.past new) =
      (expr.exchange? old new).map (behind base) := by
  unfold exchange?
  by_cases same : new = old
  · rw [if_pos same, if_pos (congrArg base.past same)]
    rfl
  · rw [if_neg same, if_neg fun alike => same (base.past_injective alike)]
    exact splice?_behind base acyclic old new

theorem simplifyWithin_below (chosen : expr.arena.constBranch? expr.root = some branch)
    (solved : expr.arena.solve branch = (.ok folded, grown)) (notRoot : branch ≠ expr.root) :
    simplifyWithin (rounds + 1) expr =
      (Rooted.exchange? { expr with arena := grown } branch folded).elim
        (.ok expr.root, { expr with arena := grown }) (simplifyWithin rounds) := by
  simp only [simplifyWithin, chosen, solved, if_neg notRoot]
  cases Rooted.exchange? { expr with arena := grown } branch folded <;> rfl

abbrev nowhere : Environment :=
  fun _ => none

theorem simplifyWithin_behind (rounds : Nat) (acyclic : expr.arena.Acyclic)
    (allocated : expr.arena.Allocated expr.root) :
    simplifyWithin rounds (expr.behind base) =
      Prod.map (Except.map base.past) (behind base) (simplifyWithin rounds expr) := by
  induction rounds generalizing expr with
  | zero => rfl
  | succ rounds ih =>
    have chosenBehind : (expr.behind base).arena.constBranch? (expr.behind base).root =
        (expr.arena.constBranch? expr.root).map base.past :=
      acyclic.constBranch?_behind base expr.root
    cases chosen : expr.arena.constBranch? expr.root with
    | none =>
      rw [chosen] at chosenBehind
      simp only [simplifyWithin, chosen, chosenBehind, Option.map_none]
      rfl
    | some branch =>
      rw [chosen] at chosenBehind
      rcases solved : expr.arena.solve branch with ⟨result, grown⟩
      obtain ⟨kept, isBranch, _⟩ := branch_keepsMeaning nowhere acyclic allocated chosen solved
      have solvedBehind : (expr.behind base).arena.solve (base.past branch) = _ :=
        acyclic.solve_behind isBranch base
      rw [solved] at solvedBehind
      cases result with
      | error stop =>
        simp only [simplifyWithin, chosen, chosenBehind, Option.map_some, solved, solvedBehind]
        rfl
      | ok folded =>
        by_cases isRoot : branch = expr.root
        · simp only [simplifyWithin, chosen, chosenBehind, Option.map_some, solved, solvedBehind]
          rw [if_pos isRoot]
          exact if_pos (congrArg base.past isRoot)
        · have exchanged := exchange?_behind base
            (show Arena.Acyclic { expr with arena := grown }.arena from kept.acyclic) branch folded
          rw [simplifyWithin_below chosen solved isRoot, simplifyWithin_below chosenBehind
            solvedBehind fun same => isRoot (base.past_injective same)]
          refine (congrArg (Option.elim · _ _) exchanged).trans ?_
          cases isNext : Rooted.exchange? { expr with arena := grown } branch folded with
          | none => rfl
          | some spliced =>
            obtain ⟨keptSpliced, sameRoot⟩ := part_keepsMeaning nowhere acyclic allocated chosen
              solved (exchange?_eq_some_iff.mp isNext).2
            exact ih keptSpliced.acyclic (sameRoot ▸ keptSpliced.allocated allocated)

theorem simplify_behind (acyclic : expr.arena.Acyclic) (allocated : expr.arena.Allocated expr.root) :
    (expr.behind base).simplify = Prod.map (Except.map base.past) (behind base) expr.simplify := by
  have same : (expr.behind base).arena.operatorCount (expr.behind base).root =
      expr.arena.operatorCount expr.root := acyclic.operatorCount_behind base expr.root
  rw [simplify, simplify, same]
  exact simplifyWithin_behind base _ acyclic allocated

/-! ## Inlined names -/

section Inlining

variable {session : Session} {id : ExprId} {name : String} {ty : Ty} {value : Literal}

theorem inlineName_root (known : session.value? scope name = some ⟨ty, some value⟩)
    (isRoot : id = expr.root) :
    inlineName session scope expr id name =
      (true, ⟨expr.withLiteral id value ty, ⟨expr.arena.size⟩⟩) := by
  simp only [inlineName, known, if_pos isRoot]
  rfl

theorem inlineName_below (known : session.value? scope name = some ⟨ty, some value⟩)
    (notRoot : id ≠ expr.root) :
    inlineName session scope expr id name =
      (Rooted.splice? { expr with arena := expr.withLiteral id value ty } id
        ⟨expr.arena.size⟩).elim (false, { expr with arena := expr.withLiteral id value ty })
          (Prod.mk true) := by
  simp only [inlineName, known, if_neg notRoot]
  split
  next isGrown =>
    cases isGrown
    split
    · next isSpliced => exact (congrArg (Option.elim · _ _) isSpliced).symm
    · next refused => exact (congrArg (Option.elim · _ _) refused).symm

theorem withLiteral_behind (expr : Rooted) (id : ExprId) (value : Literal) (ty : Ty) :
    (expr.behind base).withLiteral (base.past id) value ty =
      base.behind (expr.withLiteral id value ty) := by
  have isLoc : (expr.behind base).arena.locAt (base.past id) = expr.arena.locAt id :=
    Arena.locAt_behind base expr.arena id
  obtain ⟨_, added⟩ := Arena.addLiteral_mirrors base value (expr.arena.locAt id) expr.arena
    (expr.behind base).arena rfl
  have isNew : (⟨(expr.behind base).arena.size⟩ : ExprId) = base.past ⟨expr.arena.size⟩ :=
    congrArg ExprId.mk (Arena.size_behind base expr.arena)
  rw [withLiteral, isLoc, added, isNew, Arena.setType_behind]
  rfl

theorem inlineName_behind (view : Session.SameView scope first second)
    (acyclic : expr.arena.Acyclic) (id : ExprId) (name : String) :
    inlineName second scope (expr.behind base) (base.past id) name =
      Prod.map (fun replaced => replaced) (behind base) (inlineName first scope expr id name) := by
  have isNew : (⟨(expr.behind base).arena.size⟩ : ExprId) = base.past ⟨expr.arena.size⟩ :=
    congrArg ExprId.mk (Arena.size_behind base expr.arena)
  rcases known : first.value? scope name with _ | ⟨ty, _ | value⟩
  · simp only [inlineName, view.value, known]
    rfl
  · simp only [inlineName, view.value, known]
    rfl
  · have knownBehind := (view.value name).trans known
    by_cases isRoot : id = expr.root
    · rw [inlineName_root known isRoot, inlineName_root knownBehind (congrArg base.past isRoot),
        withLiteral_behind, isNew]
      rfl
    · have spliced := splice?_behind base (show Arena.Acyclic
        { expr with arena := expr.withLiteral id value ty }.arena from
          (expr.grows_withLiteral id value ty).acyclic acyclic) id ⟨expr.arena.size⟩
      rw [inlineName_below known isRoot, inlineName_below knownBehind
        fun same => isRoot (base.past_injective same), withLiteral_behind, isNew]
      refine (congrArg (Option.elim · _ _) spliced).trans ?_
      cases Rooted.splice? { expr with arena := expr.withLiteral id value ty } id
        ⟨expr.arena.size⟩ <;> rfl

theorem inlineNames_behind (view : Session.SameView scope first second)
    (acyclic : expr.arena.Acyclic) (allocated : expr.arena.Allocated expr.root) :
    inlineNames second scope (expr.behind base) =
      Prod.map (fun count => count) (behind base) (inlineNames first scope expr) := by
  have areNames : ∀ id name, (id, name) ∈ expr.arena.names expr.root →
      expr.arena.shape? id = some (.name name) :=
    fun _ _ member => (acyclic.names_sound allocated member).2
  have namesBehind : (expr.behind base).arena.names (expr.behind base).root =
      (expr.arena.names expr.root).map (Prod.map base.past fun name => name) :=
    acyclic.names_behind base expr.root
  rw [inlineNames, inlineNames, namesBehind]
  clear namesBehind
  generalize expr.arena.names expr.root = found at areNames
  generalize 0 = count
  induction found generalizing expr count with
  | nil => rfl
  | cons head rest ih =>
    obtain ⟨id, name⟩ := head
    have step := inlineName_inlines (agrees_literals first scope) acyclic allocated
      (areNames id name List.mem_cons_self)
    have moved := inlineName_behind base view acyclic id name
    rw [List.map_cons, List.foldl_cons, List.foldl_cons]
    dsimp only [Prod.map]
    rw [moved]
    exact ih step.arena.acyclic step.root_allocated
      (fun other spelling member =>
        step.leaf (areNames other spelling (List.mem_cons_of_mem _ member)) rfl) _

end Inlining

end Rooted

end Assay
