import Assay.Proofs.Scope.Searching

/-!
Contract: what the search for names depends on.
-/

namespace Assay

/-- Functions that agree on a list find the same in it. -/
theorem findSome?_congr {α β : Type} {items : List α} {find search : α → Option β}
    (agree : ∀ item ∈ items, find item = search item) :
    items.findSome? find = items.findSome? search := by
  induction items with
  | nil => rfl
  | cons item items ih =>
    obtain ⟨isFirst, others⟩ := List.forall_mem_cons.mp agree
    rw [List.findSome?_cons, List.findSome?_cons, isFirst, ih others]

def OnlyBlocks (may : Handle → Prop) : Prop :=
  ∀ handle, may handle → ∃ id, handle = .block id

theorem onlyBlocks_none : OnlyBlocks fun _ => False :=
  fun _ => False.elim

theorem OnlyBlocks.spared {may : Handle → Prop} (blocks : OnlyBlocks may) {handle : Handle}
    (other : ∀ id, handle ≠ .block id) : ¬ may handle :=
  fun allowed => (blocks handle allowed).elim other

namespace Session

variable {scope : ScopeId} {first second third session : Session} {may : Handle → Prop}
  {exprs : Nat} {bounds : Bounds}

/-- From the scope the same values and the same types are found. -/
structure SameView (scope : ScopeId) (first second : Session) : Prop where
  value : ∀ name, second.value? scope name = first.value? scope name
  type : ∀ ty missing, second.resolveType scope ty missing = first.resolveType scope ty missing

theorem SameView.trans (early : SameView scope first second) (late : SameView scope second third) :
    SameView scope first third :=
  ⟨fun name => (late.value name).trans (early.value name),
    fun ty missing => (late.type ty missing).trans (early.type ty missing)⟩

theorem CoveredBy.funcAt (covered : session.CoveredBy bounds) {id : FuncId}
    (held : id.index < session.funcs.size) : bounds.Covers (session.funcAt id).handles :=
  covered.funcs _ (getD_mem held)

theorem CoveredBy.blockAt (covered : session.CoveredBy bounds) {id : BlockId}
    (held : id.index < session.blocks.size) : bounds.Covers (session.blockAt id).handles :=
  covered.blocks _ (getD_mem held)

/-! ## Sessions with more definitions -/

namespace Spares

section Search

variable (spares : first.Spares may second) (blocks : OnlyBlocks may) {id : FuncId}

include spares blocks

theorem moduleAt {id : ModuleId} (held : id.index < first.modules.size) :
    second.moduleAt id = first.moduleAt id :=
  spares.modules id held (blocks.spared nofun)

theorem structAt {id : StructId} (held : id.index < first.structs.size) :
    second.structAt id = first.structAt id :=
  spares.structs id held (blocks.spared nofun)

theorem funcAt (held : id.index < first.funcs.size) : second.funcAt id = first.funcAt id :=
  spares.funcs id held (blocks.spared nofun)

variable (covered : first.CoveredBy (first.bounds exprs))

include covered

/-- Imports lead to modules of the smaller session. -/
theorem followImports {start : ModuleId} (held : start.index < first.modules.size)
    (names : List String) :
    second.followImports start names = first.followImports start names ∧
      ∀ owner, first.followImports start names = .ok owner → owner.index < first.modules.size := by
  induction names generalizing start with
  | nil =>
    refine ⟨rfl, fun owner isOwner => ?_⟩
    cases isOwner
    exact held
  | cons name names ih =>
    obtain ⟨imports, _⟩ := Module.covers_handles.mp (covered.moduleAt start)
    rw [Session.followImports, Session.followImports, spares.moduleAt blocks held]
    cases found : (first.moduleAt start).import? name with
    | none => exact ⟨rfl, fun _ absent => by cases absent⟩
    | some next =>
      exact ih (of_decide_eq_true (imports _ (Table.mem_of_lookup found)))

theorem ownValue? (held : (first.bounds exprs).holds scope.handle = true)
    (spared : ¬ may scope.handle) (name : String) :
    second.ownValue? scope name = first.ownValue? scope name := by
  cases scope with
  | module id =>
    rw [Session.ownValue?, Session.ownValue?, spares.moduleAt blocks (of_decide_eq_true held)]
  | func id =>
    have heldFunc : id.index < first.funcs.size := of_decide_eq_true held
    obtain ⟨inbound, outbound, _⟩ := Func.covers_handles.mp (covered.funcAt heldFunc)
    rw [Session.ownValue?, Session.ownValue?, spares.funcAt blocks heldFunc, parameterType?,
      parameterType?, spares.structAt blocks (of_decide_eq_true inbound),
      spares.structAt blocks (of_decide_eq_true outbound)]
  | block id =>
    have heldBlock : id.index < first.blocks.size := of_decide_eq_true held
    obtain ⟨vars, _⟩ := Block.covers_handles.mp (covered.blockAt heldBlock)
    rw [Session.ownValue?, Session.ownValue?, spares.blocks id heldBlock spared, variableType?,
      variableType?, spares.structAt blocks (of_decide_eq_true vars)]

variable (nested : first.Nested) (held : (first.bounds exprs).holds scope.handle = true)
  (spared : ¬ may scope.handle)
include nested held spared

omit spares held spared in
/-- The parent of a scope is held, and it is no block. -/
theorem parent {inner around : ScopeId} (isAround : first.parent? inner = some around) :
    (first.bounds exprs).holds around.handle = true ∧ ¬ may around.handle := by
  refine ⟨covered.parent? isAround, blocks.spared fun id isBlock => ?_⟩
  cases around with
  | block other => exact nested.ne_block isAround other rfl
  | _ => cases isBlock

omit spares in
/-- The scopes around a scope that is held and spared are so too. -/
theorem around : ∀ inner ∈ first.scopes scope,
    (first.bounds exprs).holds inner.handle = true ∧ ¬ may inner.handle :=
  scopesUpTo_keeps (fun _ _ _ isAround => parent blocks covered nested isAround) ⟨held, spared⟩

theorem scopes : second.scopes scope = first.scopes scope := by
  have funcs : first.funcs.size ≤ second.funcs.size := (spares.bounds 0).funcs
  have more : first.blocks.size ≤ second.blocks.size := (spares.bounds 0).blocks
  rw [← nested.scopesUpTo_eq (Nat.lt_succ_of_le (Nat.add_le_add funcs more)), Session.scopes]
  refine scopesUpTo_congr (fun _ _ _ isAround => parent blocks covered nested isAround)
    (fun inner apart => ?_) ⟨held, spared⟩
  obtain ⟨heldInner, sparedInner⟩ := apart
  cases inner with
  | module id => rfl
  | func id => exact congrArg Func.parent (spares.funcAt blocks (of_decide_eq_true heldInner))
  | block id =>
    exact congrArg Block.parent (spares.blocks id (of_decide_eq_true heldInner) sparedInner)

theorem moduleOf? : second.moduleOf? scope = first.moduleOf? scope := by
  rw [Session.moduleOf?, Session.moduleOf?, spares.scopes blocks covered nested held spared]

theorem value? (name : String) : second.value? scope name = first.value? scope name := by
  rw [Session.value?, Session.value?, spares.scopes blocks covered nested held spared]
  refine findSome?_congr fun inner member => ?_
  obtain ⟨heldInner, sparedInner⟩ := around blocks covered nested held spared inner member
  exact spares.ownValue? blocks covered heldInner sparedInner name

theorem resolveType (ty : Ty) (missing : Entry) :
    second.resolveType scope ty missing = first.resolveType scope ty missing := by
  have around := spares.moduleOf? blocks covered nested held spared
  by_cases unresolved : ty.isUnresolved = true
  · cases isStart : first.moduleOf? scope with
    | none => simp [Session.resolveType, locate, unresolved, around, isStart]
    | some start =>
      have heldStart := of_decide_eq_true (covered.moduleOf? held isStart)
      obtain ⟨sameOwner, heldOwner⟩ :=
        spares.followImports blocks covered heldStart (Text.qualifiers ty.name)
      cases isOwner : first.followImports start (Text.qualifiers ty.name) with
      | error absent =>
        simp [Session.resolveType, locate, unresolved, around, isStart, sameOwner, isOwner]
      | ok owner =>
        have sameModule := spares.moduleAt blocks (heldOwner owner isOwner)
        have still : ({ ty with definedIn := some owner, name := Text.baseName ty.name } :
            Ty).isUnresolved = true := unresolved
        simp only [Session.resolveType, locate, unresolved, around, isStart, sameOwner, isOwner,
          sameModule, Bool.not_true, Bool.false_eq_true, if_false]
        split
        · rfl
        · next located isLocated =>
          split at isLocated
          · cases isLocated
            simp only [classify, still, around, isStart, sameModule, Bool.not_true,
              Bool.false_eq_true, if_false]
          · cases isLocated
  · have definite := Bool.eq_false_iff.mpr unresolved
    rw [resolveType_definite second scope definite, resolveType_definite first scope definite]

theorem sameView : SameView scope first second :=
  ⟨spares.value? blocks covered nested held spared, spares.resolveType blocks covered nested held spared⟩

end Search

end Spares

/-! ## Sessions whose expressions have moved -/

end Session

def Block.relocate (move : ExprId → ExprId) (block : Block) : Block :=
  { block with init := block.init.map (Prod.map (fun name => name) move) }

theorem Block.relocate_setInit (move : ExprId → ExprId) (block : Block) (name : String)
    (expr : ExprId) :
    (block.setInit name expr).relocate move = (block.relocate move).setInit name (move expr) := by
  rw [relocate, setInit, Table.map_enter]
  rfl

theorem Block.relocate_lookup (move : ExprId → ExprId) (block : Block) (name : String) :
    (block.relocate move).init.lookup name = (block.init.lookup name).map move := by
  rw [relocate]
  induction block.init with
  | nil => rfl
  | cons entry rest ih =>
    obtain ⟨other, expr⟩ := entry
    rw [List.map_cons, Prod.map_apply, List.lookup_cons, List.lookup_cons, ih]
    split <;> rfl

namespace Session

variable {scope : ScopeId} {session : Session} {exprs : Nat} (move : ExprId → ExprId)

def relocate (session : Session) : Session :=
  { session with blocks := session.blocks.map (Block.relocate move) }

theorem blockAt_relocate (session : Session) (id : BlockId) :
    (session.relocate move).blockAt id = (session.blockAt id).relocate move := by
  rw [blockAt, relocate, Array.getElem?_map, blockAt]
  cases session.blocks[id.index]? <;> rfl

@[simp] theorem bounds_relocate (session : Session) (exprs : Nat) :
    (session.relocate move).bounds exprs = session.bounds exprs := by
  simp [bounds, relocate]

theorem relocate_of_still (session : Session) (still : ∀ id, move id = id) :
    session.relocate move = session := by
  have same : Block.relocate move = fun block => block := by
    funext block
    have isId : move = fun id => id := funext still
    simp [Block.relocate, isId]
  rw [relocate, same, Array.map_id']

theorem relocate_modifyBlock (session : Session) (id : BlockId) {change changeMoved : Block → Block}
    (same : ∀ block, (change block).relocate move = changeMoved (block.relocate move)) :
    (session.modifyBlock id change).relocate move =
      (session.relocate move).modifyBlock id changeMoved := by
  have moved : (session.blocks.modify id.index change).map (Block.relocate move) =
      (session.blocks.map (Block.relocate move)).modify id.index changeMoved := by
    apply Array.ext_getElem?
    intro place
    rw [Array.getElem?_map, Array.getElem?_modify, Array.getElem?_modify, Array.getElem?_map]
    split
    · rw [Option.map_map, Option.map_map]
      exact congrArg (fun f => Option.map f session.blocks[place]?) (funext same)
    · rfl
  rw [relocate, relocate, modifyBlock, modifyBlock, moved]

/-- Searches look at nothing of a block but its variables and the function around it. -/
theorem sameView_of_blocks (session : Session) {changed : Array Block} (scope : ScopeId)
    (size : changed.size = session.blocks.size)
    (same : ∀ id, (blockAt { session with blocks := changed } id).vars = (session.blockAt id).vars ∧
      (blockAt { session with blocks := changed } id).parent = (session.blockAt id).parent) :
    SameView scope session { session with blocks := changed } := by
  have scopes : ∀ scope, Session.scopes { session with blocks := changed } scope =
      session.scopes scope := by
    refine scopes_congr (fun inner => ?_) rfl size
    cases inner with
    | block id => exact (same id).2
    | _ => rfl
  have own : ∀ inner name, ownValue? { session with blocks := changed } inner name =
      session.ownValue? inner name := by
    intro inner name
    cases inner with
    | block id =>
      rw [ownValue?, ownValue?, variableType?, variableType?, (same id).1]
      rfl
    | _ => rfl
  have imports : ∀ names start, followImports { session with blocks := changed } start names =
      session.followImports start names := by
    intro names
    induction names with
    | nil => exact fun _ => rfl
    | cons name names ih =>
      intro start
      rw [followImports, followImports]
      simp only [ih]
      rfl
  refine ⟨fun name => ?_, fun ty missing => ?_⟩
  · rw [value?, value?, scopes]
    exact findSome?_congr fun inner _ => own inner name
  · simp only [resolveType, locate, classify, moduleOf?, scopes, imports]
    rfl

theorem sameView_relocate (session : Session) (scope : ScopeId) :
    SameView scope session (session.relocate move) :=
  session.sameView_of_blocks scope (Array.size_map ..) fun id => by
    rw [show blockAt { session with blocks := _ } id = _ from session.blockAt_relocate move id]
    exact ⟨rfl, rfl⟩

theorem Nested.relocate (nested : session.Nested) : (session.relocate move).Nested :=
  ⟨nested.funcs, fun id around isAround => nested.blocks id around (by
    rwa [blockAt_relocate] at isAround)⟩

theorem CoveredBy.relocate {bounds larger : Bounds} (covered : session.CoveredBy bounds)
    (le : bounds.Le larger)
    (moves : ∀ id, bounds.holds (.expr id) = true → larger.holds (.expr (move id)) = true) :
    (session.relocate move).CoveredBy larger := by
  have wider := covered.mono le
  refine ⟨wider.modules, wider.structs, wider.funcs, fun block member => ?_, wider.objects⟩
  obtain ⟨still, isMember, rfl⟩ := Array.mem_map.mp member
  obtain ⟨_, init, _⟩ := Block.covers_handles.mp (covered.blocks still isMember)
  obtain ⟨vars, _, owner⟩ := Block.covers_handles.mp (wider.blocks still isMember)
  refine Block.covers_handles.mpr ⟨vars, fun entry isEntry => ?_, owner⟩
  obtain ⟨old, isOld, rfl⟩ := List.mem_map.mp isEntry
  exact moves old.2 (init old isOld)

end Session

end Assay
