import Assay.Proofs.Expr.Validity
import Assay.Proofs.Scope.Searching

/-!
Contract: what resolution and the checks of expressions report.
-/

namespace Assay

/-- Reports are made on failure only, and are errors in what was declared. -/
structure Explains (ok : Bool) (entries : List Entry) : Prop where
  silent : ok = true ↔ entries = []
  errors : ∀ entry ∈ entries, entry.IsError

namespace Explains

theorem success : Explains true [] :=
  ⟨by simp, by simp⟩

theorem failure {entry : Entry} (isError : entry.IsError) : Explains false [entry] :=
  ⟨by simp, List.forall_mem_singleton.mpr isError⟩

theorem failures {entries : List Entry} (some : entries ≠ [])
    (errors : ∀ entry ∈ entries, entry.IsError) : Explains false entries :=
  ⟨by simp [some], errors⟩

theorem and {first second : Bool} {earlier later : List Entry} (left : Explains first earlier)
    (right : Explains second later) : Explains (first && second) (earlier ++ later) := by
  refine ⟨?_, List.forall_mem_append.mpr ⟨left.errors, right.errors⟩⟩
  rw [Bool.and_eq_true, left.silent, right.silent, List.append_eq_nil_iff]

end Explains

/-! ## Checks -/

namespace Verdict

def Explained (verdict : Verdict) : Prop :=
  Explains verdict.ok verdict.entries

theorem explained_ensure (ok : Bool) {entry : Entry} (isError : entry.IsError) :
    (ensure ok entry).Explained := by
  cases ok
  · exact .failure isError
  · exact .success

theorem explained_all {verdicts : List Verdict}
    (explained : ∀ verdict ∈ verdicts, verdict.Explained) : (all verdicts).Explained := by
  induction verdicts with
  | nil => exact .success
  | cons first verdicts ih =>
    obtain ⟨head, tail⟩ := List.forall_mem_cons.mp explained
    exact Explains.and head (ih tail)

end Verdict

namespace Arena

variable {arena base current : Arena} {session : Session} {scope : ScopeId} {root : ExprId}

theorem checkConstructor_explained (loc : Location) (target : Ty) (child : ExprId) :
    (arena.checkConstructor session loc target child).Explained := by
  unfold checkConstructor
  split
  · exact .failure (Entry.isError_error _ _)
  · dsimp only
    split
    · exact .failure (Entry.isError_error _ _)
    · apply Verdict.explained_all
      intro verdict member
      obtain ⟨index, _, rfl⟩ := List.mem_mapIdx.mp member
      exact Verdict.explained_ensure _ (Entry.isError_error _ _)

theorem checkNode_explained (node : Node) : (arena.checkNode session node).Explained := by
  unfold checkNode
  split
  · exact Verdict.explained_ensure _ (Entry.isError_error _ _)
  · exact checkConstructor_explained _ _ _
  · exact .success

theorem check_explained (id : ExprId) : (arena.check session id).Explained := by
  unfold check fold
  generalize arena.size = depth
  induction depth generalizing id with
  | zero => exact .success
  | succ depth ih =>
    rw [foldWithin]
    split
    · exact .success
    · next node _ =>
      refine Explains.and (Verdict.explained_all fun verdict member => ?_)
        (checkNode_explained node)
      rw [Shape.children_map] at member
      obtain ⟨child, _, rfl⟩ := List.mem_map.mp member
      exact ih child

theorem requireConst_explained (id : ExprId) : (arena.requireConst id).Explained := by
  have outputs : ∀ ids, (arena.checkOutputs ids).Explained := by
    intro ids
    unfold checkOutputs
    split
    · exact .success
    · exact .failure (Entry.isError_error _ _)
  unfold requireConst
  split
  · exact outputs _
  · exact outputs _
  · exact Verdict.explained_ensure _ (Entry.isError_error _ _)

/-! ## Undefined names -/

/-- The reports that the names of an expression call for, from left to right. -/
def undefinedNames (arena : Arena) (session : Session) (scope : ScopeId) (id : ExprId) :
    List Entry :=
  ((arena.names id).filter fun found => (session.value? scope found.2).isNone).map fun found =>
    .error (arena.locAt found.1) (.undefinedName found.2)

theorem Acyclic.undefinedNames_name (acyclic : arena.Acyclic) {node : Node} {name : String}
    (isNode : arena.node? root = some node) (isName : node.shape = .name name) :
    arena.undefinedNames session scope root =
      if (session.value? scope name).isNone then
        [.error (arena.locAt root) (.undefinedName name)]
      else [] := by
  rw [undefinedNames, names, acyclic.fold_eq _ _ isNode, isName]
  cases known : session.value? scope name <;> simp [Shape.map, Shape.children, known]

theorem Acyclic.undefinedNames_operands (acyclic : arena.Acyclic) {node : Node}
    (isNode : arena.node? root = some node) (notName : ∀ name, node.shape ≠ .name name) :
    arena.undefinedNames session scope root =
      node.shape.children.flatMap (arena.undefinedNames session scope) := by
  have operands : arena.names root = (node.shape.children.map arena.names).flatten := by
    rw [names, acyclic.fold_eq _ _ isNode, Shape.children_map]
    cases form : node.shape with
    | name name => exact absurd form (notName name)
    | _ => rfl
  rw [undefinedNames, operands, List.filter_flatten, List.map_flatten, List.map_map, List.map_map]
  rfl

/-! ## Resolution -/

/-- What resolution reports: nothing on success and something on failure, among it exactly the names
that are missing, and given `settled` errors only. -/
structure Reports (settled : Prop) (missing : List Entry) (ok : Bool) (entries : List Entry) :
    Prop where
  silent : ok = true ↔ entries = []
  undefined : entries.filter Entry.isUndefinedName = missing
  errors : settled → ∀ entry ∈ entries, entry.IsError

namespace Reports

variable {settled : Prop}

theorem success : Reports settled [] true [] :=
  ⟨by simp, rfl, by simp⟩

theorem refused {entries : List Entry} (some : entries ≠ [])
    (concerns : ∀ entry ∈ entries, entry.ConcernsType settled) :
    Reports settled [] false entries := by
  refine ⟨by simp [some], ?_, fun settled entry member => (concerns entry member).isError settled⟩
  exact List.filter_eq_nil_iff.mpr fun entry member => by simp [(concerns entry member).notName]

theorem and {first second : Bool} {missing others earlier later : List Entry}
    (left : Reports settled missing first earlier) (right : Reports settled others second later) :
    Reports settled (missing ++ others) (first && second) (earlier ++ later) := by
  refine ⟨?_, ?_, fun settled =>
    List.forall_mem_append.mpr ⟨left.errors settled, right.errors settled⟩⟩
  · rw [Bool.and_eq_true, left.silent, right.silent, List.append_eq_nil_iff]
  · rw [List.filter_append, left.undefined, right.undefined]

end Reports

theorem resolveTarget_reports {loc : Location} {target : Ty} {entries : List Entry}
    (failed : resolveTarget session scope loc target = .error entries) :
    Reports (∀ module ∈ session.modules, module.Settled) [] false entries := by
  simp only [resolveTarget, bind, Except.bind] at failed
  split at failed
  · next refused =>
    cases failed
    exact .refused (Session.resolveType_error_ne_nil refused)
      (Session.resolveType_concerns (.error rfl) refused)
  · split at failed <;> cases failed
    exact .refused (by simp) (List.forall_mem_singleton.mpr (.error rfl))

theorem resolveEach_reports {settled : Prop} {resolve : ExprId → Arena → Resolution}
    (each : ∀ id arena, Resolves session scope arena (resolve id arena).arena) {ids : List ExprId}
    {missing : ExprId → List Entry}
    (reports : ∀ id ∈ ids, ∀ current, Resolves session scope base current →
      Reports settled (missing id) (resolve id current).ok (resolve id current).entries)
    {current : Arena} (resolved : Resolves session scope base current) :
    Reports settled (ids.flatMap missing) (resolveEach resolve ids current).ok
      (resolveEach resolve ids current).entries := by
  induction ids generalizing current with
  | nil => exact .success
  | cons first ids ih =>
    refine (reports first (by simp) current resolved).and ?_
    exact ih (fun id member => reports id (by simp [member])) (resolved.trans (each first current))

/-- Within the rank of an expression no name is passed over, and nothing in silence. -/
theorem resolveWithin_reports (acyclic : base.Acyclic) (allocated : base.Allocated root)
    ⦃current : Arena⦄ (resolved : Resolves session scope base current) {depth : Nat}
    (deep : base.rank root < depth) :
    Reports (∀ module ∈ session.modules, module.Settled) (base.undefinedNames session scope root)
      (resolveWithin session scope depth root current).ok
      (resolveWithin session scope depth root current).entries := by
  revert current depth
  refine acyclic.induction ?_ root allocated
  intro root node isNode operands current resolved depth deep
  obtain ⟨depth, rfl⟩ : ∃ smaller, depth = smaller + 1 := ⟨depth - 1, by omega⟩
  have ranked : ∀ child ∈ node.shape.children, base.rank child < depth := fun child member => by
    have smaller := acyclic.rank_lt (operand_of_mem isNode member)
    omega
  -- The form is that of the first arena, whatever has been resolved since.
  obtain ⟨shape, isShape, form⟩ :=
    resolved.forms.keeps (shape?_of_node? isNode)
  obtain ⟨now, isNow, rfl⟩ := shape?_eq_some_iff.mp isShape
  have missing : (∀ name, now.shape ≠ .name name) → base.undefinedNames session scope root =
      now.shape.children.flatMap (base.undefinedNames session scope) := by
    intro notName
    rw [← form.children_eq]
    refine acyclic.undefinedNames_operands isNode fun name isName => ?_
    rcases form with same | ⟨_, _, _, isConstruct, _⟩
    · exact notName name (same ▸ isName)
    · cases isName.symm.trans isConstruct
  rw [resolveWithin, isNow]
  dsimp only
  split
  · next value isLiteral =>
    rw [missing (by simp [isLiteral]), isLiteral]
    exact .success
  · next name isName =>
    have wasName : node.shape = .name name := by
      rcases form with same | ⟨_, _, _, _, isConstruct⟩
      · exact same.trans isName
      · cases isName.symm.trans isConstruct
    have place : base.locAt root = now.loc := by
      rw [← resolved.locs, locAt, nodeAt_of_node? isNow]
    rw [acyclic.undefinedNames_name isNode wasName, place]
    cases session.value? scope name with
    | none => exact ⟨by simp, rfl, fun _ => List.forall_mem_singleton.mpr rfl⟩
    | some value => exact .success
  · next target child isConstruct =>
    have isChild : child ∈ node.shape.children := by
      rw [form.children_eq, isConstruct]
      exact List.mem_singleton_self child
    have inner := operands child isChild resolved (ranked child isChild)
    rw [missing (by simp [isConstruct]), isConstruct]
    simp only [Shape.children, List.flatMap_singleton]
    split
    · next innerOk =>
      have silent := inner.silent.mp innerOk
      have none := inner.undefined
      rw [silent] at none ⊢
      rw [← none]
      split
      · next refused => exact resolveTarget_reports refused
      · exact .success
    · exact inner
  · next notName _ =>
    rw [missing notName]
    have each := resolveEach_reports (resolveWithin_resolves depth)
      (fun child member later resolved =>
        operands child (form.children_eq ▸ member) resolved
          (ranked child (form.children_eq ▸ member))) resolved
    split
    · exact each
    · exact each

theorem resolve_reports (acyclic : arena.Acyclic) (allocated : arena.Allocated root) :
    Reports (∀ module ∈ session.modules, module.Settled) (arena.undefinedNames session scope root)
      (arena.resolve session scope root).ok (arena.resolve session scope root).entries :=
  resolveWithin_reports acyclic allocated (.refl arena) (acyclic.rank_lt_size allocated)

theorem resolve_explained (settled : ∀ module ∈ session.modules, module.Settled)
    (acyclic : arena.Acyclic) (allocated : arena.Allocated root) :
    Explains (arena.resolve session scope root).ok (arena.resolve session scope root).entries :=
  ⟨(resolve_reports acyclic allocated).silent, (resolve_reports acyclic allocated).errors settled⟩

/-- Resolution reports on failure only. Of names it reports those that the scope does not know, from
left to right and as often as they occur, whatever else fails around them. After a success every
name has the type of its value, and every constructor that of the struct which is its target. -/
theorem resolve_complete (session : Session) (scope : ScopeId) (acyclic : arena.Acyclic)
    (allocated : arena.Allocated root) :
    ((arena.resolve session scope root).ok = true ↔
      (arena.resolve session scope root).entries = []) ∧
    (arena.resolve session scope root).entries.filter Entry.isUndefinedName =
      arena.undefinedNames session scope root ∧
    ((arena.resolve session scope root).ok = true → ∀ ⦃inner⦄, arena.Within inner root →
      ∃ node, (arena.resolve session scope root).arena.node? inner = some node ∧
        Bound session scope node) := by
  have reports := @resolve_reports _ session scope _ acyclic allocated
  refine ⟨reports.silent, reports.undefined, fun ok inner within => ?_⟩
  have resolves : Resolves session scope arena (arena.resolve session scope root).arena :=
    resolveWithin_resolves _ root arena
  obtain ⟨node, isNode⟩ :=
    exists_node? (resolves.forms.allocated_iff.mpr (within.allocated acyclic allocated))
  exact ⟨node, isNode, resolveWithin_bound ok (resolves.forms.within_iff.mpr within) isNode⟩

/-- Two names in a constructor of an unknown type, and one of them again beside it. -/
theorem resolve_complete_nested :
    let name (spelling : String) : Node := ⟨default, .null, .name spelling⟩
    let arena : Arena := ⟨#[name "x", name "y", ⟨default, .null, .list [⟨0⟩, ⟨1⟩]⟩,
      ⟨default, .null, .construct (.ofName "Nowhere" default) ⟨2⟩⟩,
      ⟨default, .null, .list [⟨3⟩, ⟨0⟩]⟩]⟩
    ((arena.resolve (.ofTarget {}) (.module ⟨0⟩) ⟨4⟩).entries.filter Entry.isUndefinedName).map
      Entry.message = ["Undefined name: x", "Undefined name: y", "Undefined name: x"] := by
  intro name arena
  have acyclic : arena.Acyclic := .of_ordered (by decide)
  have allocated : arena.Allocated ⟨4⟩ := by decide
  rw [(resolve_complete (.ofTarget {}) (.module ⟨0⟩) acyclic allocated).2.1]
  decide +kernel

end Arena

end Assay
