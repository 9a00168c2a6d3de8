import Assay.Proofs.Scope.Events

/-!
Contract: what holds of a session from its first change to its last.
-/

namespace Assay

variable {place : Nat} {bounds : Bounds} {struct : Struct} {func : Func} {block : BlockId}
  {before after : Module}

section

variable {α : Type} {items : Array α} {good : α → Prop} (holds : ∀ item ∈ items, good item)
include holds

theorem forall_mem_push {item : α} (isGood : good item) : ∀ other ∈ items.push item, good other := by
  intro other member
  rcases Array.mem_push.mp member with isOld | rfl
  · exact holds other isOld
  · exact isGood

theorem forall_mem_modify [Inhabited α] {change : α → α}
    (isGood : place < items.size → good (change ((items[place]?).getD default))) :
    ∀ item ∈ items.modify place change, good item := by
  intro item member
  obtain ⟨index, found⟩ := Array.mem_iff_getElem?.mp member
  rw [Array.getElem?_modify] at found
  split at found
  · next same =>
    subst same
    obtain ⟨old, isOld, rfl⟩ := Option.map_eq_some_iff.mp found
    obtain ⟨bound, _⟩ := Array.getElem?_eq_some_iff.mp isOld
    have isNew := isGood bound
    rw [isOld] at isNew
    exact isNew
  · exact holds item (Array.mem_of_getElem? found)

end

theorem getD_mem {α : Type} [Inhabited α] {items : Array α} (held : place < items.size) :
    (items[place]?).getD default ∈ items := by
  rw [Array.getElem?_eq_getElem held]
  exact Array.getElem_mem held

/-- What holds of all items and of a blank one holds at every place. -/
theorem forall_getD {α : Type} [Inhabited α] {items : Array α} {motive : α → Prop}
    (all : ∀ item ∈ items, motive item) (blank : motive default) (place : Nat) :
    motive ((items[place]?).getD default) := by
  by_cases held : place < items.size
  · exact all _ (getD_mem held)
  · rw [Array.getElem?_eq_none (Nat.le_of_not_lt held)]
    exact blank

/-! ## Handles -/

theorem Module.covers_handles {module : Module} :
    bounds.Covers module.handles ↔
      (∀ entry ∈ module.imports, bounds.holds (.module entry.2) = true) ∧
      (∀ entry ∈ module.structs, bounds.holds (.struct entry.2) = true) ∧
      (∀ entry ∈ module.objects, bounds.holds (.object entry.2) = true) ∧
      (∀ entry ∈ module.funcs, bounds.holds (.func entry.2) = true) ∧
      (∀ constant ∈ module.constants, bounds.Covers constant.handles) ∧
      ∀ global ∈ module.globals, bounds.Covers global.handles := by
  simp only [Module.handles, Bounds.covers_append, Bounds.covers_map, Bounds.covers_flatMap,
    and_assoc]

theorem Struct.covers_handles :
    bounds.Covers struct.handles ↔
      (∀ scope ∈ struct.owner, bounds.holds scope.handle = true) ∧
      ∀ member ∈ struct.members, bounds.Covers member.ty.handles := by
  simp [Struct.handles]

/-- The first owner of a struct. -/
theorem Struct.covers_own {module : ModuleId} (covered : bounds.Covers struct.handles)
    (held : bounds.holds (.module module) = true) :
    bounds.Covers
      ({ struct with owner := struct.owner.or (some (.module module)) } : Struct).handles := by
  obtain ⟨owners, members⟩ := Struct.covers_handles.mp covered
  refine Struct.covers_handles.mpr ⟨fun scope isOwner => ?_, members⟩
  rcases Option.or_eq_some_iff.mp isOwner with isOld | ⟨_, isNew⟩
  · exact owners scope isOld
  · cases isNew
    exact held

theorem Func.covers_handles :
    bounds.Covers func.handles ↔ bounds.holds (.struct func.inbound) = true ∧
      bounds.holds (.struct func.outbound) = true ∧
      (∀ block ∈ func.blocks, bounds.holds (.block block) = true) ∧
      ∀ around ∈ func.parent, bounds.holds around.handle = true := by
  simp [Func.handles]

theorem Func.mem_blocks_setBlock {role : BlockRole} {other : BlockId}
    (member : other ∈ (func.setBlock role block).blocks) : other = block ∨ other ∈ func.blocks := by
  cases role <;> simp only [Func.setBlock, Func.blocks, List.mem_filterMap, List.mem_cons,
    List.not_mem_nil, or_false, id_eq, exists_eq_right] at member ⊢ <;> grind

/-- A function that starts out without blocks adds none. -/
theorem Func.mem_blocks_push {funcs : Array Func} (empty : func.blocks = [])
    (member : block ∈ (((funcs.push func)[place]?).getD default).blocks) :
    place < funcs.size ∧ block ∈ ((funcs[place]?).getD default).blocks := by
  by_cases held : place < funcs.size
  · rw [Session.getD_push held] at member
    exact ⟨held, member⟩
  · rw [Array.getElem?_push] at member
    split at member
    · rw [Option.getD_some, empty] at member
      exact (List.not_mem_nil member).elim
    · rw [Array.getElem?_eq_none (Nat.le_of_not_lt held)] at member
      exact (List.not_mem_nil member).elim

theorem Block.covers_handles {block : Block} :
    bounds.Covers block.handles ↔ bounds.holds (.struct block.vars) = true ∧
      (∀ entry ∈ block.init, bounds.holds (.expr entry.2) = true) ∧
      ∀ around ∈ block.parent, bounds.holds around.handle = true := by
  simp [Block.handles]

namespace Session

/-- Every handle in a definition stands for a definition. -/
structure CoveredBy (session : Session) (bounds : Bounds) : Prop where
  modules : ∀ module ∈ session.modules, bounds.Covers module.handles
  structs : ∀ struct ∈ session.structs, bounds.Covers struct.handles
  funcs : ∀ func ∈ session.funcs, bounds.Covers func.handles
  blocks : ∀ block ∈ session.blocks, bounds.Covers block.handles
  objects : ∀ object ∈ session.objects, bounds.Covers object.handles

variable {may : Handle → Prop} {exprs : Nat} {session before after : Session} {bounds : Bounds}

theorem covers_handles : bounds.Covers session.handles ↔ session.CoveredBy bounds := by
  simp only [handles, Bounds.covers_append, Bounds.covers_flatMap, Array.mem_toList_iff]
  constructor
  · rintro ⟨⟨⟨⟨modules, structs⟩, funcs⟩, blocks⟩, objects⟩
    exact ⟨modules, structs, funcs, blocks, objects⟩
  · rintro ⟨modules, structs, funcs, blocks, objects⟩
    exact ⟨⟨⟨⟨modules, structs⟩, funcs⟩, blocks⟩, objects⟩

theorem forall_setModule {good : Module → Prop} {id : ModuleId} {changed : Module}
    (holds : ∀ module ∈ session.modules, good module) (isGood : good changed) :
    ∀ module ∈ (session.setModule id changed).modules, good module := by
  show ∀ module ∈ session.modules.modify id.index fun _ => changed, good module
  exact forall_mem_modify holds fun _ => isGood

theorem forall_modifyStruct {good : Struct → Prop} {id : StructId} {change : Struct → Struct}
    (holds : ∀ struct ∈ session.structs, good struct)
    (isGood : good (change (session.structAt id))) :
    ∀ struct ∈ (session.modifyStruct id change).structs, good struct := by
  refine forall_mem_modify holds ?_
  intro _
  exact isGood

namespace CoveredBy

variable {module : Module} (covered : session.CoveredBy bounds)
include covered

theorem mono {large : Bounds} (grows : bounds.Le large) : session.CoveredBy large where
  modules := fun module member => (covered.modules module member).mono grows
  structs := fun struct member => (covered.structs struct member).mono grows
  funcs := fun func member => (covered.funcs func member).mono grows
  blocks := fun block member => (covered.blocks block member).mono grows
  objects := fun object member => (covered.objects object member).mono grows

theorem setModule (id : ModuleId) (coversNew : bounds.Covers module.handles) :
    (session.setModule id module).CoveredBy bounds :=
  { covered with modules := forall_setModule covered.modules coversNew }

theorem modifyStruct (id : StructId) {change : Struct → Struct}
    (coversNew : id.index < session.structs.size →
      bounds.Covers (change (session.structAt id)).handles) :
    (session.modifyStruct id change).CoveredBy bounds :=
  { covered with structs := forall_mem_modify covered.structs coversNew }

theorem modifyFunc (id : FuncId) {change : Func → Func}
    (coversNew : id.index < session.funcs.size →
      bounds.Covers (change (session.funcAt id)).handles) :
    (session.modifyFunc id change).CoveredBy bounds :=
  { covered with funcs := forall_mem_modify covered.funcs coversNew }

theorem modifyBlock (id : BlockId) {change : Block → Block}
    (coversNew : id.index < session.blocks.size →
      bounds.Covers (change (session.blockAt id)).handles) :
    (session.modifyBlock id change).CoveredBy bounds :=
  { covered with blocks := forall_mem_modify covered.blocks coversNew }

theorem modifyObject (id : ObjectId) {change : Object → Object}
    (coversNew : bounds.Covers (change (session.objectAt id)).handles) :
    (session.modifyObject id change).CoveredBy bounds :=
  { covered with objects := forall_mem_modify covered.objects fun _ => coversNew }

/-- A blank definition holds no handle. -/
theorem moduleAt (id : ModuleId) : bounds.Covers (session.moduleAt id).handles :=
  forall_getD (motive := fun module : Module => bounds.Covers module.handles) covered.modules
    Bounds.covers_nil _

theorem structAt (id : StructId) : bounds.Covers (session.structAt id).handles :=
  forall_getD (motive := fun struct : Struct => bounds.Covers struct.handles) covered.structs
    Bounds.covers_nil _

/-- The struct may belong to a block already. -/
theorem takeStruct {module : ModuleId} {id : StructId}
    (heldModule : bounds.holds (.module module) = true)
    (held : bounds.holds (.struct id) = true) : (session.takeStruct module id).CoveredBy bounds := by
  obtain ⟨imports, structs, objects, funcs, constants, globals⟩ :=
    Module.covers_handles.mp (covered.moduleAt module)
  have listed : ∀ entry ∈ (session.moduleAt module).structs ++ [((session.structAt id).name, id)],
      bounds.holds (.struct entry.2) = true :=
    List.forall_mem_append.mpr ⟨structs, List.forall_mem_singleton.mpr held⟩
  refine (covered.setModule module (Module.covers_handles.mpr ?_)).modifyStruct id fun _ => ?_
  · exact ⟨imports, listed, objects, funcs, constants, globals⟩
  · exact Struct.covers_own (covered.structAt id) heldModule

end CoveredBy

end Session

theorem Module.Edited.covers (edited : before.Edited bounds after)
    (covered : bounds.Covers before.handles) : bounds.Covers after.handles := by
  obtain ⟨imports, structs, objects, funcs, constants, globals⟩ :=
    Module.covers_handles.mp covered
  refine Module.covers_handles.mpr ⟨fun entry member => ?_, edited.structs ▸ structs,
    edited.objects ▸ objects, edited.funcs ▸ funcs, fun constant member => ?_,
    fun global member => ?_⟩
  · exact (edited.imports entry member).elim (imports entry) id
  · exact (edited.constants constant member).elim (constants constant) And.right
  · exact (edited.globals global member).elim (globals global) And.right

theorem Struct.Edited.covers {before after : Struct} (edited : before.Edited bounds after)
    (covered : bounds.Covers before.handles) : bounds.Covers after.handles := by
  obtain ⟨owners, members⟩ := Struct.covers_handles.mp covered
  refine Struct.covers_handles.mpr ⟨edited.owner ▸ owners, fun member isMember => ?_⟩
  exact (edited.members member isMember).elim (members member) id

structure Module.Settled (module : Module) : Prop where
  constants : ∀ constant ∈ module.constants, constant.ty.isUnresolved = false
  globals : ∀ global ∈ module.globals, global.ty.isUnresolved = false

theorem Module.Edited.settled (edited : before.Edited bounds after) (settled : before.Settled) :
    after.Settled where
  constants := fun constant member =>
    (edited.constants constant member).elim (settled.constants constant) And.left
  globals := fun global member =>
    (edited.globals global member).elim (settled.globals global) And.left

namespace Session

variable {may : Handle → Prop} {exprs : Nat} {session before after : Session} {bounds : Bounds}
  {func : FuncId} {block : BlockId}

/-! ## Parents -/

namespace Nested

theorem pushFunc (nested : before.Nested) {func : Func} (pushed : after.funcs = before.funcs.push func)
    (detached : func.parent = none) (blocks : after.blocks = before.blocks) : after.Nested := by
  refine ⟨fun id around isAround => ?_, fun id => ?_⟩
  · rw [funcAt, pushed] at isAround
    rcases getD_push_cases before.funcs func id.index with same | new
    · rw [same] at isAround
      exact nested.funcs id around isAround
    · rw [new, detached] at isAround
      cases isAround
  · rw [blockAt, blocks]
    exact nested.blocks id

theorem pushBlock (nested : before.Nested) {block : Block}
    (pushed : after.blocks = before.blocks.push block) (detached : block.parent = none)
    (funcs : after.funcs = before.funcs) : after.Nested := by
  refine ⟨fun id => ?_, fun id around isAround => ?_⟩
  · rw [funcAt, funcs]
    exact nested.funcs id
  · rw [blockAt, pushed] at isAround
    rcases getD_push_cases before.blocks block id.index with same | new
    · rw [same] at isAround
      exact nested.blocks id around isAround
    · rw [new, detached] at isAround
      cases isAround

theorem modifyFunc (nested : session.Nested) (id : FuncId) {change : Func → Func}
    (step : ∀ func, (change func).parent = func.parent ∨
      ∃ module, (change func).parent = some (.module module)) : (session.modifyFunc id change).Nested := by
  refine ⟨fun other around isAround => ?_, nested.blocks⟩
  rw [funcAt_modifyFunc] at isAround
  split at isAround
  · rcases step (session.funcAt other) with same | ⟨module, isModule⟩
    · exact nested.funcs other around (same.symm.trans isAround)
    · exact ⟨module, Option.some.inj (isAround.symm.trans isModule)⟩
  · exact nested.funcs other around isAround

theorem modifyBlock (nested : session.Nested) (id : BlockId) {change : Block → Block}
    (step : ∀ block, (change block).parent = block.parent ∨
      ∃ func, (change block).parent = some (.func func)) : (session.modifyBlock id change).Nested := by
  refine ⟨nested.funcs, fun other around isAround => ?_⟩
  rw [blockAt_modifyBlock] at isAround
  split at isAround
  · rcases step (session.blockAt other) with same | ⟨func, isFunc⟩
    · exact nested.blocks other around (same.symm.trans isAround)
    · exact ⟨func, Option.some.inj (isAround.symm.trans isFunc)⟩
  · exact nested.blocks other around isAround

theorem attachBlock (nested : session.Nested) (func : FuncId) (role : BlockRole)
    (block : BlockId) : (session.attachBlock func role block).Nested :=
  (nested.modifyBlock block fun _ => .inr ⟨func, rfl⟩).modifyFunc func
    fun _ => .inl (by cases role <;> rfl)

end Nested

theorem nested_ofTarget (target : Target) : (ofTarget target).Nested where
  funcs := fun _ _ isAround => (Nat.not_lt_zero _ (heldFunc_of_parent isAround)).elim
  blocks := fun _ _ isAround => (Nat.not_lt_zero _ (heldBlock_of_parent isAround)).elim

theorem CoveredBy.attachBlock (covered : session.CoveredBy bounds) (role : BlockRole)
    (heldFunc : bounds.holds (.func func) = true) (heldBlock : bounds.holds (.block block) = true) :
    (session.attachBlock func role block).CoveredBy bounds := by
  refine (covered.modifyBlock block fun held => ?_).modifyFunc func fun held => ?_
  · have oldBlock : bounds.Covers (session.blockAt block).handles :=
      covered.blocks _ (getD_mem held)
    obtain ⟨vars, init, _⟩ := Block.covers_handles.mp oldBlock
    refine Block.covers_handles.mpr ⟨vars, init, fun around isAround => ?_⟩
    cases isAround
    exact heldFunc
  · have oldFunc : bounds.Covers (session.funcAt func).handles :=
      covered.funcs _ (getD_mem held)
    obtain ⟨inbound, outbound, blocks, parent⟩ := Func.covers_handles.mp oldFunc
    refine Func.covers_handles.mpr ⟨?_, ?_, fun other member => ?_, ?_⟩
    · cases role <;> exact inbound
    · cases role <;> exact outbound
    · rcases Func.mem_blocks_setBlock member with rfl | isOld
      · exact heldBlock
      · exact blocks other isOld
    · cases role <;> exact parent

section

variable (event : Event may exprs before after)
include event

theorem Event.coveredBy (covered : before.CoveredBy (before.bounds exprs)) :
    after.CoveredBy (after.bounds exprs) := by
  have grows := event.persists.bounds exprs
  have wider := covered.mono grows
  cases event with
  | declareModule name loc =>
    exact { wider with modules := forall_mem_push wider.modules fun _ absent => by cases absent }
  | allocStruct name loc packed =>
    exact { wider with structs := forall_mem_push wider.structs (by simp [Struct.handles]) }
  | allocFunc name loc =>
    refine { wider with
      structs := forall_mem_push (forall_mem_push wider.structs ?_) ?_
      funcs := forall_mem_push wider.funcs ?_ }
    · simp [Struct.handles]
    · simp [Struct.handles]
    · have held : before.structs.size < before.structs.size + 1 + 1 := by omega
      simp [Func.handles, Func.blocks, Session.bounds, Bounds.holds, held]
  | allocBlock name loc =>
    refine { wider with
      structs := forall_mem_push wider.structs ?_
      blocks := forall_mem_push wider.blocks ?_ }
    · simp [Struct.handles, ScopeId.handle, Session.bounds, Bounds.holds]
    · simp [Block.handles, Session.bounds, Bounds.holds]
  | allocObject name loc =>
    exact { wider with objects := forall_mem_push wider.objects (by simp [Object.handles]) }
  | editModule id module held allowed edited =>
    rw [setModule, bounds_modifyModule]
    exact covered.setModule id (edited.covers (covered.modules _ (getD_mem held)))
  | editStruct id struct held allowed edited =>
    rw [setStruct, bounds_modifyStruct]
    exact covered.modifyStruct id fun _ => edited.covers (covered.structs _ (getD_mem held))
  | takeStruct module id heldModule held =>
    rw [bounds_modifyStruct, setModule, bounds_modifyModule]
    exact covered.takeStruct (decide_eq_true heldModule) (decide_eq_true held)
  | takeObject module id heldModule held =>
    rw [bounds_modifyObject, setModule, bounds_modifyModule]
    refine (covered.setModule module ?_).modifyObject id ?_
    · obtain ⟨imports, structs, objects, funcs, constants, globals⟩ :=
        Module.covers_handles.mp (covered.moduleAt module)
      refine Module.covers_handles.mpr ⟨imports, structs, ?_, funcs, constants, globals⟩
      exact List.forall_mem_append.mpr
        ⟨objects, List.forall_mem_singleton.mpr (decide_eq_true held)⟩
    · simp [Object.handles, Session.bounds, Bounds.holds, heldModule]
  | takeFunc module id heldModule held =>
    rw [bounds_modifyFunc, setModule, bounds_modifyModule]
    have oldFunc := covered.funcs _ (getD_mem held)
    refine (covered.setModule module ?_).modifyFunc id fun _ => ?_
    · obtain ⟨imports, structs, objects, funcs, constants, globals⟩ :=
        Module.covers_handles.mp (covered.moduleAt module)
      refine Module.covers_handles.mpr ⟨imports, structs, objects, ?_, constants, globals⟩
      exact List.forall_mem_append.mpr
        ⟨funcs, List.forall_mem_singleton.mpr (decide_eq_true held)⟩
    · change (before.bounds exprs).Covers (before.funcAt id).handles at oldFunc
      obtain ⟨inbound, outbound, blocks, _⟩ := Func.covers_handles.mp oldFunc
      refine Func.covers_handles.mpr ⟨inbound, outbound, blocks, fun around isAround => ?_⟩
      cases isAround
      exact decide_eq_true heldModule
  | attach func role block heldFunc held =>
    rw [attachBlock, bounds_modifyFunc, bounds_modifyBlock]
    exact covered.attachBlock role (decide_eq_true heldFunc) (decide_eq_true held)
  | setInit block name expr held allowed heldExpr =>
    rw [bounds_modifyBlock]
    have oldBlock := covered.blocks _ (getD_mem held)
    refine covered.modifyBlock block fun _ => ?_
    change (before.bounds exprs).Covers (before.blockAt block).handles at oldBlock
    obtain ⟨vars, init, parent⟩ := Block.covers_handles.mp oldBlock
    refine Block.covers_handles.mpr ⟨vars, fun entry member => ?_, parent⟩
    rcases Table.mem_enter member with rfl | isOld
    · exact decide_eq_true heldExpr
    · exact init entry isOld

/-! ## Integrity -/

/-- What every session of a run satisfies. -/
structure Integral (exprs : Nat) (session : Session) : Prop where
  /-- Handles stand for definitions. -/
  covered : session.CoveredBy (session.bounds exprs)
  settled : ∀ module ∈ session.modules, module.Settled
  /-- A sealed struct holds its two bookkeeping members. -/
  counted : ∀ struct ∈ session.structs, struct.isSealed = true → 2 ≤ struct.members.length
  /-- The registered structs belong to modules. -/
  owned : ∀ module ∈ session.modules, ∀ entry ∈ module.structs,
    ∃ owner, (session.structAt entry.2).owner = some (.module owner)
  homed : ∀ module ∈ session.modules, ∀ entry ∈ module.funcs,
    (session.funcAt entry.2).parent.isSome = true
  /-- Functions stand in modules and blocks in functions. -/
  nested : session.Nested
  /-- A block of a function knows the function, and its variables know the block. -/
  attached : ∀ func : FuncId, func.index < session.funcs.size →
    ∀ block ∈ (session.funcAt func).blocks, (session.blockAt block).parent = some (.func func) ∧
      (session.structAt (session.blockAt block).vars).owner = some (.block block)

theorem Event.counted
    (counted : ∀ struct ∈ before.structs, struct.isSealed = true → 2 ≤ struct.members.length) :
    ∀ struct ∈ after.structs, struct.isSealed = true → 2 ≤ struct.members.length := by
  cases event with
  | allocStruct name loc packed => exact forall_mem_push counted (by rintro ⟨⟩)
  | allocFunc name loc =>
    exact forall_mem_push (forall_mem_push counted (by rintro ⟨⟩)) (by rintro ⟨⟩)
  | allocBlock name loc => exact forall_mem_push counted (by rintro ⟨⟩)
  | editStruct id struct held allowed edited =>
    exact forall_modifyStruct counted (edited.counted (counted _ (getD_mem held)))
  | takeStruct module id heldModule held =>
    exact forall_modifyStruct counted (counted (before.structAt id) (getD_mem held))
  | _ => exact counted

/-- Types that are known stay known, and a definition that a module has taken keeps its owner. -/
theorem Event.listed (integral : before.Integral exprs) :
    ∀ module ∈ after.modules, module.Settled ∧
      (∀ entry ∈ module.structs,
        ∃ owner, (after.structAt entry.2).owner = some (.module owner)) ∧
      ∀ entry ∈ module.funcs, (after.funcAt entry.2).parent.isSome = true := by
  have stays : ∀ module ∈ before.modules, module.Settled ∧
      (∀ entry ∈ module.structs,
        ∃ owner, (after.structAt entry.2).owner = some (.module owner)) ∧
      ∀ entry ∈ module.funcs, (after.funcAt entry.2).parent.isSome = true := by
    intro module member
    obtain ⟨_, structs, _, funcs, _⟩ :=
      Module.covers_handles.mp (integral.covered.modules module member)
    refine ⟨integral.settled module member, fun entry isEntry => ?_, fun entry isEntry => ?_⟩
    · obtain ⟨owner, isOwner⟩ := integral.owned module member entry isEntry
      have persists := event.persists.structs entry.2 (of_decide_eq_true (structs entry isEntry))
      exact ⟨owner, persists.owner isOwner⟩
    · have persists := event.persists.funcs entry.2 (of_decide_eq_true (funcs entry isEntry))
      exact persists.parent (integral.homed module member entry isEntry)
  cases event with
  | declareModule name loc =>
    refine forall_mem_push stays ⟨⟨?_, ?_⟩, ?_, ?_⟩ <;>
      exact fun _ absent => (List.not_mem_nil absent).elim
  | editModule id module held allowed edited =>
    obtain ⟨settled, structs, funcs⟩ := stays _ (getD_mem held)
    exact forall_setModule stays
      ⟨edited.settled settled, edited.structs ▸ structs, edited.funcs ▸ funcs⟩
  | takeStruct module id heldModule held allowed allowedStruct free =>
    obtain ⟨settled, structs, funcs⟩ := stays _ (getD_mem heldModule)
    refine forall_setModule stays ⟨⟨settled.constants, settled.globals⟩,
      List.forall_mem_append.mpr ⟨structs, List.forall_mem_singleton.mpr ?_⟩, funcs⟩
    dsimp only
    rw [structAt_modifyStruct, if_pos ⟨rfl, held⟩]
    show ∃ owner, (before.structAt id).owner.or _ = some (.module owner)
    cases known : (before.structAt id).owner with
    | none => exact ⟨module, rfl⟩
    | some scope =>
      obtain ⟨owner, rfl⟩ := free scope known
      exact ⟨owner, rfl⟩
  | takeObject module id heldModule =>
    obtain ⟨settled, structs, funcs⟩ := stays _ (getD_mem heldModule)
    exact forall_setModule stays ⟨⟨settled.constants, settled.globals⟩, structs, funcs⟩
  | takeFunc module id heldModule held =>
    obtain ⟨settled, structs, funcs⟩ := stays _ (getD_mem heldModule)
    refine forall_setModule stays ⟨⟨settled.constants, settled.globals⟩, structs,
      List.forall_mem_append.mpr ⟨funcs, List.forall_mem_singleton.mpr ?_⟩⟩
    dsimp only
    rw [funcAt_modifyFunc, if_pos ⟨rfl, held⟩]
    rfl
  | _ => exact stays

end

/-- What is known of an attached block stays known. -/
theorem Persists.attached (persists : before.Persists after) {func : FuncId} {block : BlockId}
    (covered : before.CoveredBy (before.bounds exprs))
    (held : block.index < before.blocks.size)
    (attached : (before.blockAt block).parent = some (.func func) ∧
      (before.structAt (before.blockAt block).vars).owner = some (.block block)) :
    (after.blockAt block).parent = some (.func func) ∧
      (after.structAt (after.blockAt block).vars).owner = some (.block block) := by
  obtain ⟨vars, _⟩ := Block.covers_handles.mp (covered.blocks _ (getD_mem held))
  have kept := persists.blocks block held
  refine ⟨kept.parent attached.1, ?_⟩
  rw [kept.vars]
  exact (persists.structs _ (of_decide_eq_true vars)).owner attached.2

theorem Event.attached (event : Event may exprs before after) (integral : before.Integral exprs) :
    ∀ func : FuncId, func.index < after.funcs.size →
      ∀ block ∈ (after.funcAt func).blocks, (after.blockAt block).parent = some (.func func) ∧
        (after.structAt (after.blockAt block).vars).owner = some (.block block) := by
  have persists := event.persists
  have heldBlock : ∀ func : FuncId, func.index < before.funcs.size →
      ∀ block ∈ (before.funcAt func).blocks, block.index < before.blocks.size := by
    intro func held block member
    obtain ⟨_, _, blocks, _⟩ := Func.covers_handles.mp (integral.covered.funcs _ (getD_mem held))
    exact of_decide_eq_true (blocks block member)
  have stays : ∀ func : FuncId, func.index < before.funcs.size →
      ∀ block ∈ (before.funcAt func).blocks, (after.blockAt block).parent = some (.func func) ∧
        (after.structAt (after.blockAt block).vars).owner = some (.block block) :=
    fun func held block member => persists.attached integral.covered
      (heldBlock func held block member) (integral.attached func held block member)
  intro func held block member
  cases event with
  | allocFunc name loc =>
    obtain ⟨isOld, member⟩ := Func.mem_blocks_push rfl member
    exact stays func isOld block member
  | takeFunc module id heldModule heldFunc =>
    rw [funcAt_modifyFunc] at member
    have isOld : block ∈ (before.funcAt func).blocks := by
      split at member <;> exact member
    exact stays func (by simpa [modifyFunc, setModule, modifyModule] using held) block isOld
  | attach id role new heldFunc heldNew allowed allowedBlock detached vars =>
    have isFunc : func.index < before.funcs.size := by
      simpa [attachBlock, modifyFunc, modifyBlock] using held
    rw [attachBlock, funcAt_modifyFunc] at member
    split at member
    · next same =>
      obtain ⟨rfl, _⟩ := same
      rcases Func.mem_blocks_setBlock member with rfl | isOld
      · have isNew : ((before.attachBlock id role block).blockAt block) =
            { before.blockAt block with parent := some (.func id) } := by
          show (before.modifyBlock block _).blockAt block = _
          rw [blockAt_modifyBlock, if_pos ⟨rfl, heldNew⟩]
        rw [isNew]
        exact ⟨rfl, vars⟩
      · exact stays id isFunc block isOld
    · exact stays func isFunc block member
  | _ => exact stays func held block member

theorem Event.nested (event : Event may exprs before after) (nested : before.Nested) :
    after.Nested := by
  cases event with
  | allocFunc name loc => exact nested.pushFunc rfl rfl rfl
  | allocBlock name loc => exact nested.pushBlock rfl rfl rfl
  | takeFunc module id =>
    refine Nested.modifyFunc ?_ id fun _ => .inr ⟨module, rfl⟩
    exact ⟨nested.funcs, nested.blocks⟩
  | attach func role block => exact nested.attachBlock func role block
  | setInit block name expr =>
    exact nested.modifyBlock block fun _ => .inl rfl
  | _ => exact ⟨nested.funcs, nested.blocks⟩

theorem Event.integral (event : Event may exprs before after) (integral : before.Integral exprs) :
    after.Integral exprs where
  covered := event.coveredBy integral.covered
  settled := fun module member => (event.listed integral module member).1
  counted := event.counted integral.counted
  owned := fun module member => (event.listed integral module member).2.1
  homed := fun module member => (event.listed integral module member).2.2
  nested := event.nested integral.nested
  attached := event.attached integral

theorem Evolves.integral (evolves : Evolves may exprs before after)
    (integral : before.Integral exprs) : after.Integral exprs := by
  induction evolves with
  | refl => exact integral
  | tail _ event ih => exact event.integral ih

end Session

/-- The runtime structs start out without an owner, and refer to each other only. -/
theorem Prelude.mem_structs {target : Target} (member : struct ∈ Prelude.structs target) :
    struct.owner = none ∧ struct.isSealed = false ∧ struct.isBound = false ∧
      ∀ slot ∈ struct.members, ∀ handle ∈ slot.ty.handles,
        ∃ id ∈ Prelude.structIds, handle = .struct id := by
  have word : (target.wordType .builtin).handles = [] := Ty.handles_ofName _ _
  have character : (target.characterType .builtin).handles = [] := Ty.handles_ofName _ _
  simp only [Prelude.structs, List.mem_cons, List.not_mem_nil, or_false] at member
  rcases member with rfl | rfl | rfl
  · refine ⟨rfl, rfl, rfl, fun slot isSlot => ?_⟩
    change slot ∈ [_, _, _] at isSlot
    simp only [List.mem_cons, List.not_mem_nil, or_false] at isSlot
    rcases isSlot with rfl | rfl | rfl <;> simp [word, character]
  · refine ⟨rfl, rfl, rfl, fun slot isSlot => ?_⟩
    change slot ∈ [_, _, _, _, _, _] at isSlot
    simp only [List.mem_cons, List.not_mem_nil, or_false] at isSlot
    rcases isSlot with rfl | rfl | rfl | rfl | rfl | rfl <;>
      simp [word, stringType, typeInfoType, typeNodeType, structIds]
  · refine ⟨rfl, rfl, rfl, fun slot isSlot => ?_⟩
    change slot ∈ [_, _, _] at isSlot
    simp only [List.mem_cons, List.not_mem_nil, or_false] at isSlot
    rcases isSlot with rfl | rfl | rfl <;>
      simp [word, stringType, typeInfoType, structIds]

namespace Session

/-- A session that holds the runtime structs only. -/
theorem integral_ofTarget (target : Target) : (ofTarget target).Integral 0 := by
  have isStruct : ∀ struct ∈ (ofTarget target).structs, struct ∈ Prelude.structs target :=
    fun struct member => by simpa [ofTarget] using member
  have none : ∀ {α : Type} {good : α → Prop}, ∀ item ∈ (#[] : Array α), good item :=
    fun _ absent => (Array.not_mem_empty _ absent).elim
  refine ⟨⟨none, fun struct member => ?_, none, none, none⟩, none, fun struct member isSealed => ?_,
    none, none, nested_ofTarget target, fun _ absent => (Nat.not_lt_zero _ absent).elim⟩
  · obtain ⟨unowned, _, _, slots⟩ := Prelude.mem_structs (isStruct struct member)
    refine Struct.covers_handles.mpr ⟨fun scope isOwner => ?_, fun slot isSlot handle isHandle => ?_⟩
    · rw [unowned] at isOwner
      cases isOwner
    · obtain ⟨id, isPrelude, rfl⟩ := slots slot isSlot handle isHandle
      simp only [Prelude.structIds, List.mem_cons, List.not_mem_nil, or_false] at isPrelude
      rcases isPrelude with rfl | rfl | rfl <;> rfl
  · rw [(Prelude.mem_structs (isStruct struct member)).2.1] at isSealed
    cases isSealed

end Session

end Assay
