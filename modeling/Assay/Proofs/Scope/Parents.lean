import Assay.Scope.Lookup

/-!
Contract: the way from a scope outwards.

As far as its type goes, the parent of a function or block may be any scope, and a way outwards may
turn in circles. Where functions stand in modules and blocks in functions it ends after two steps, and
the limit that the walk is given is never felt.
-/

namespace Assay.Session

variable {session first second : Session} {scope around : ScopeId} {limit : Nat}
  {motive : ScopeId → Prop} {module : ModuleId}

/-! ## Parents -/

/-- Functions stand in modules and blocks in functions, if they stand anywhere. -/
structure Nested (session : Session) : Prop where
  funcs : ∀ id around, (session.funcAt id).parent = some around → ∃ module, around = .module module
  blocks : ∀ id around, (session.blockAt id).parent = some around → ∃ func, around = .func func

def depth : ScopeId → Nat
  | .module _ => 0
  | .func _ => 1
  | .block _ => 2

theorem depth_le (scope : ScopeId) : depth scope ≤ 2 := by
  cases scope <;> simp [depth]

theorem Nested.depth_parent? (nested : session.Nested)
    (isAround : session.parent? scope = some around) : depth around < depth scope := by
  cases scope with
  | module id => cases isAround
  | func id =>
    obtain ⟨module, rfl⟩ := nested.funcs id around isAround
    exact Nat.zero_lt_one
  | block id =>
    obtain ⟨func, rfl⟩ := nested.blocks id around isAround
    exact Nat.lt_succ_self 1

theorem Nested.ne_block (nested : session.Nested) (isAround : session.parent? scope = some around)
    (id : BlockId) : around ≠ .block id := by
  rintro rfl
  have nearer := nested.depth_parent? isAround
  have atMost := depth_le scope
  rw [depth] at nearer
  omega

/-- What stands somewhere has been allocated. -/
theorem heldFunc_of_parent {id : FuncId} (isAround : (session.funcAt id).parent = some around) :
    id.index < session.funcs.size := by
  refine Nat.lt_of_not_le fun unheld => ?_
  rw [funcAt, Array.getElem?_eq_none unheld] at isAround
  cases isAround

theorem heldBlock_of_parent {id : BlockId} (isAround : (session.blockAt id).parent = some around) :
    id.index < session.blocks.size := by
  refine Nat.lt_of_not_le fun unheld => ?_
  rw [blockAt, Array.getElem?_eq_none unheld] at isAround
  cases isAround

/-! ## Steps outwards -/

theorem scopes_module (session : Session) (id : ModuleId) :
    session.scopes (.module id) = [.module id] :=
  rfl

/-- What holds of a scope and is passed on to parents holds all the way. -/
theorem scopesUpTo_keeps
    (step : ∀ inner around, motive inner → session.parent? inner = some around → motive around)
    (holds : motive scope) : ∀ inner ∈ session.scopesUpTo limit scope, motive inner := by
  induction limit generalizing scope with
  | zero => exact List.forall_mem_nil _
  | succ limit ih =>
    refine List.forall_mem_cons.mpr ⟨holds, ?_⟩
    cases isAround : session.parent? scope with
    | none => exact List.forall_mem_nil _
    | some around => exact ih (step scope around holds isAround)

/-- Two ways are the same as long as the parents are. -/
theorem scopesUpTo_congr
    (step : ∀ inner around, motive inner → first.parent? inner = some around → motive around)
    (same : ∀ inner, motive inner → second.parent? inner = first.parent? inner)
    (holds : motive scope) : second.scopesUpTo limit scope = first.scopesUpTo limit scope := by
  induction limit generalizing scope with
  | zero => rfl
  | succ limit ih =>
    rw [scopesUpTo, scopesUpTo, same scope holds]
    cases isAround : first.parent? scope with
    | none => rfl
    | some around => exact congrArg _ (ih (step scope around holds isAround))

theorem scopes_congr (same : ∀ scope, second.parent? scope = first.parent? scope)
    (funcs : second.funcs.size = first.funcs.size) (blocks : second.blocks.size = first.blocks.size)
    (scope : ScopeId) : second.scopes scope = first.scopes scope := by
  rw [scopes, scopes, funcs, blocks]
  exact scopesUpTo_congr (motive := fun _ => True) (fun _ _ _ _ => trivial) (fun inner _ => same inner)
    trivial

theorem moduleOf?_module (session : Session) (id : ModuleId) :
    session.moduleOf? (.module id) = some id :=
  rfl

theorem moduleOf?_congr (funcs : second.funcs = first.funcs) (blocks : second.blocks = first.blocks)
    (scope : ScopeId) : second.moduleOf? scope = first.moduleOf? scope := by
  have same : ∀ inner, second.parent? inner = first.parent? inner := by
    intro inner
    cases inner with
    | module id => rfl
    | func id => rw [parent?, parent?, funcAt, funcAt, funcs]
    | block id => rw [parent?, parent?, blockAt, blockAt, blocks]
  rw [moduleOf?, moduleOf?,
    scopes_congr same (congrArg Array.size funcs) (congrArg Array.size blocks)]

theorem moduleOf?_modifyStruct (session : Session) (id : StructId) (change : Struct → Struct)
    (scope : ScopeId) :
    (session.modifyStruct id change).moduleOf? scope = session.moduleOf? scope := by
  apply moduleOf?_congr <;> rfl

namespace Nested

variable (nested : session.Nested)
include nested

/-- With room for all functions and blocks one more step of the limit makes no difference. -/
theorem scopesUpTo_succ (enough : session.funcs.size + session.blocks.size ≤ limit)
    (isAround : session.parent? scope = some around) :
    session.scopesUpTo limit around = session.scopesUpTo (limit + 1) around := by
  cases scope with
  | module id => cases isAround
  | func id =>
    obtain ⟨module, rfl⟩ := nested.funcs id around isAround
    have room := heldFunc_of_parent isAround
    obtain ⟨limit, rfl⟩ : ∃ less, limit = less + 1 := ⟨limit - 1, by omega⟩
    rfl
  | block id =>
    obtain ⟨func, rfl⟩ := nested.blocks id around isAround
    have room := heldBlock_of_parent isAround
    obtain ⟨limit, rfl⟩ : ∃ less, limit = less + 1 := ⟨limit - 1, by omega⟩
    rw [scopesUpTo, scopesUpTo]
    cases isModule : session.parent? (.func func) with
    | none => rfl
    | some outer =>
      obtain ⟨module, rfl⟩ := nested.funcs func outer isModule
      have more := heldFunc_of_parent isModule
      obtain ⟨limit, rfl⟩ : ∃ less, limit = less + 1 := ⟨limit - 1, by omega⟩
      rfl

/-- A scope comes first, and then what its parent sees. -/
theorem scopes_eq (scope : ScopeId) :
    session.scopes scope = scope :: ((session.parent? scope).map session.scopes).getD [] := by
  rw [scopes, scopesUpTo]
  cases isAround : session.parent? scope with
  | none => rfl
  | some around => exact congrArg _ (nested.scopesUpTo_succ (Nat.le_refl _) isAround)

/-- A larger limit lets nothing more be seen. -/
theorem scopesUpTo_eq (enough : session.funcs.size + session.blocks.size < limit)
    (scope : ScopeId) : session.scopesUpTo limit scope = session.scopes scope := by
  induction limit with
  | zero => cases enough
  | succ limit ih =>
    by_cases exactly : limit = session.funcs.size + session.blocks.size
    · rw [exactly, scopes]
    · rw [← ih (by omega)]
      obtain ⟨limit, rfl⟩ : ∃ less, limit = less + 1 := ⟨limit - 1, by omega⟩
      rw [scopesUpTo, scopesUpTo]
      cases isAround : session.parent? scope with
      | none => rfl
      | some around => exact congrArg _ (nested.scopesUpTo_succ (by omega) isAround).symm

/-- As many steps as the depth of the scope are enough. -/
theorem scopesUpTo_of_depth (enough : depth scope < limit) :
    session.scopesUpTo limit scope = session.scopes scope := by
  induction limit generalizing scope with
  | zero => cases enough
  | succ limit ih =>
    rw [scopesUpTo, nested.scopes_eq]
    cases isAround : session.parent? scope with
    | none => rfl
    | some around =>
      have nearer := nested.depth_parent? isAround
      exact congrArg _ (ih (by omega))

/-- Nothing is further than two steps from its module. -/
theorem length_scopes_le (scope : ScopeId) : (session.scopes scope).length ≤ depth scope + 1 := by
  induction isDepth : depth scope using Nat.strongRecOn generalizing scope with
  | ind bound ih =>
    rw [nested.scopes_eq]
    cases isAround : session.parent? scope with
    | none => exact Nat.succ_le_succ (Nat.zero_le _)
    | some around =>
      have nearer := nested.depth_parent? isAround
      have rest := ih (depth around) (isDepth ▸ nearer) around rfl
      exact Nat.succ_le_succ (Nat.le_trans rest (by omega))

/-! ## The module around a scope -/

theorem moduleOf?_func {id : FuncId} :
    session.moduleOf? (.func id) = some module ↔
      (session.funcAt id).parent = some (.module module) := by
  rw [moduleOf?, nested.scopes_eq, List.findSome?_cons]
  change ((((session.funcAt id).parent.map session.scopes).getD []).findSome? _) = _ ↔ _
  cases isAround : (session.funcAt id).parent with
  | none => simp
  | some around =>
    obtain ⟨outer, rfl⟩ := nested.funcs id around isAround
    simp [nested.scopes_eq (.module outer)]

theorem moduleOf?_block {id : BlockId} :
    session.moduleOf? (.block id) = some module ↔ ∃ func,
      (session.blockAt id).parent = some (.func func) ∧
        (session.funcAt func).parent = some (.module module) := by
  rw [moduleOf?, nested.scopes_eq, List.findSome?_cons]
  change ((((session.blockAt id).parent.map session.scopes).getD []).findSome? _) = _ ↔ _
  cases isAround : (session.blockAt id).parent with
  | none => simp
  | some around =>
    obtain ⟨func, rfl⟩ := nested.blocks id around isAround
    simp only [← nested.moduleOf?_func]
    simp [moduleOf?]

end Nested

end Assay.Session
