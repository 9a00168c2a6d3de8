import Assay.Proofs.Scope.Registration

/-!
Contract: binding as a sequence of changes.
-/

namespace Assay

namespace Session

variable {may : Handle → Prop} {exprs : Nat} {base session before after : Session}
  {module : ModuleId} {id : StructId} {scope : ScopeId}

/-- Types are found for members in their places. -/
theorem bindMemberTypes_names (session : Session) (scope : ScopeId) (struct : Struct)
    (members : List Member) :
    (session.bindMemberTypes scope struct members).1.map Member.name =
      members.map Member.name := by
  induction members with
  | nil => rfl
  | cons first rest ih =>
    rw [bindMemberTypes]
    split
    · rfl
    · dsimp only
      rw [List.map_cons, List.map_cons, ih]

theorem bindMemberTypes_covers (covered : session.CoveredBy (session.bounds exprs))
    (scope : ScopeId) (struct : Struct) {members : List Member}
    (all : ∀ member ∈ members, (session.bounds exprs).Covers member.ty.handles) :
    ∀ member ∈ (session.bindMemberTypes scope struct members).1,
      (session.bounds exprs).Covers member.ty.handles := by
  induction members with
  | nil => exact all
  | cons first rest ih =>
    rw [bindMemberTypes]
    split
    · exact all
    · next ty resolved =>
      obtain ⟨start, others⟩ := List.forall_mem_cons.mp all
      exact List.forall_mem_cons.mpr
        ⟨covered.resolveType resolved start, ih others⟩

/-- Binding a struct is allowed to change what it changes. -/
def MayBind (may : Handle → Prop) (session : Session) (id : StructId) : Prop :=
  (session.structAt id).isBound = true ∨ may (.struct id) ∧
    ∀ scope, (session.structAt id).owner = some scope →
      ∀ module, session.moduleOf? scope = some module → may (.module module)

/-! Binding leaves all owners as they are. -/

structure SameOwners (before after : Session) : Prop where
  funcs : after.funcs = before.funcs
  blocks : after.blocks = before.blocks
  owner : ∀ id, (after.structAt id).owner = (before.structAt id).owner

theorem SameOwners.moduleOf? (same : before.SameOwners after) (scope : ScopeId) :
    after.moduleOf? scope = before.moduleOf? scope :=
  moduleOf?_congr same.funcs same.blocks scope

theorem addAttrTable_annotates (module : ModuleId) (struct : Struct) :
    Stopping.Keeps (Annotates module base) (addAttrTable module struct) :=
  addAttrTable_keeps Edit.findString_annotates Edit.addGlobal_annotates struct

theorem SameOwners.modifyStruct (same : base.SameOwners session) {change : Struct → Struct}
    (owner : (change (session.structAt id)).owner = (session.structAt id).owner) :
    base.SameOwners (session.modifyStruct id change) := by
  refine ⟨same.funcs, same.blocks, fun other => ?_⟩
  rw [structAt_modifyStruct, ← same.owner]
  split
  · next isOther =>
    rw [← isOther.1]
    exact owner
  · rfl

theorem lastsBinding_sameOwners (base : Session) (id : StructId) :
    LastsBinding id base.SameOwners where
  table := fun {session _ module} same _ _ => by
    have kept : session.Annotates module _ :=
      addAttrTable_annotates module (session.structAt id) session (.refl module session)
    exact ⟨kept.funcs.trans same.funcs, kept.blocks.trans same.blocks, fun other =>
      (congrArg Struct.owner (kept.structAt other)).trans (same.owner other)⟩
  types := fun _ same => same.modifyStruct rfl
  mark := fun same => same.modifyStruct rfl

theorem bindStruct_sameOwners (session : Session) (id : StructId) :
    session.SameOwners (session.bindStruct id).session :=
  (lastsBinding_sameOwners session id).bindStruct ⟨rfl, rfl, fun _ => rfl⟩

theorem lastsBinding_evolves (integral : base.Integral exprs) (prelude : 3 ≤ base.structs.size)
    (held : id.index < base.structs.size) (allowed : may (.struct id))
    (around : ∀ scope, (base.structAt id).owner = some scope →
      ∀ module, base.moduleOf? scope = some module → may (.module module)) :
    LastsBinding id fun session => Evolves may exprs base session ∧ base.SameOwners session where
  table := fun {_ scope module} ⟨evolves, same⟩ owner isModule => by
    refine ⟨?_, (lastsBinding_sameOwners base id).table same owner isModule⟩
    rw [same.owner] at owner
    rw [same.moduleOf?] at isModule
    obtain ⟨owners, _⟩ := Struct.covers_handles.mp (integral.covered.structAt id)
    have held := of_decide_eq_true (integral.covered.moduleOf? (owners scope owner) isModule)
    exact (Edit.editsModule_evolves held (around scope owner module isModule) prelude).addAttrTable
      _ _ evolves
  types := fun {session} scope ⟨evolves, same⟩ => by
    refine ⟨?_, (lastsBinding_sameOwners base id).types scope same⟩
    have covered := (evolves.integral integral).covered
    obtain ⟨_, slots⟩ := Struct.covers_handles.mp (covered.structAt id)
    refine evolves.tail (.editStruct id _
      (Nat.lt_of_lt_of_le held (evolves.persists.bounds 0).structs) allowed
      ⟨rfl, rfl, fun same => same, fun same => same, ?_, fun member isMember =>
        .inr (bindMemberTypes_covers covered scope _ slots member isMember)⟩)
    have length := congrArg List.length (session.bindMemberTypes_names scope (session.structAt id)
      (session.structAt id).members)
    rw [List.length_map, List.length_map] at length
    exact length ▸ fun same => same
  mark := fun {session} ⟨evolves, same⟩ => by
    refine ⟨?_, (lastsBinding_sameOwners base id).mark same⟩
    rw [modifyStruct_eq_setStruct]
    refine evolves.tail (.editStruct id _
      (Nat.lt_of_lt_of_le held (evolves.persists.bounds 0).structs) allowed ?_)
    exact ⟨rfl, rfl, fun same => same, fun _ => rfl, fun same => same, fun _ => .inl⟩

theorem bindStruct_evolves (integral : session.Integral exprs)
    (prelude : 3 ≤ session.structs.size) (held : id.index < session.structs.size)
    (mayBind : MayBind may session id) :
    Evolves may exprs session (session.bindStruct id).session := by
  rcases mayBind with isBound | ⟨allowed, around⟩
  · rw [bindStruct, if_pos isBound]
  · exact ((lastsBinding_evolves integral prelude held allowed around).bindStruct
      ⟨.refl, rfl, rfl, fun _ => rfl⟩).1

/-! What binding reports -/

theorem bindMemberTypes_entries (settled : ∀ module ∈ session.modules, module.Settled)
    (scope : ScopeId) (struct : Struct) (members : List Member) :
    ∀ entry ∈ (session.bindMemberTypes scope struct members).2, entry.IsError := by
  induction members with
  | nil => exact fun _ absent => (List.not_mem_nil absent).elim
  | cons first rest ih =>
    rw [bindMemberTypes]
    split
    · next refused =>
      refine (resolveType_error settled ?_ refused).2
      unfold unboundMember
      split <;> exact .error rfl
    · exact ih

def Housed (session : Session) (id : StructId) : Prop :=
  ∃ scope, (session.structAt id).owner = some scope ∧ (session.moduleOf? scope).isSome = true

theorem SameOwners.housed (same : before.SameOwners after) (housed : before.Housed id) :
    after.Housed id := by
  obtain ⟨scope, owner, isModule⟩ := housed
  refine ⟨scope, (same.owner id).trans owner, ?_⟩
  rw [same.moduleOf?]
  exact isModule

theorem finishBinding_of_ok (held : id.index < session.structs.size)
    (ok : (session.finishBinding id scope).ok = true) :
    ((session.finishBinding id scope).session.structAt id).isBound = true ∧
      (session.finishBinding id scope).entries = [] := by
  revert ok
  unfold finishBinding
  dsimp only
  split
  · exact nofun
  next module _ =>
  have kept : session.Annotates module
      ((addAttrTable module (session.structAt id)).run.run session).2 :=
    addAttrTable_annotates module (session.structAt id) session (.refl module session)
  split
  · exact nofun
  · next outcome =>
    rw [outcome] at kept
    rw [structAt_modifyStruct, if_pos ⟨rfl, by rw [kept.structs]; exact held⟩]
    exact fun _ => ⟨rfl, rfl⟩

theorem bindStruct_of_ok (held : id.index < session.structs.size)
    (ok : (session.bindStruct id).ok = true) :
    ((session.bindStruct id).session.structAt id).isBound = true ∧
      (session.bindStruct id).entries.any Entry.isInternal = false := by
  revert ok
  unfold bindStruct
  dsimp only
  split
  · next isBound => exact fun _ => ⟨isBound, rfl⟩
  split
  · exact nofun
  split
  · intro ok
    obtain ⟨isBound, silent⟩ := finishBinding_of_ok (Nat.lt_of_lt_of_eq held Array.size_modify.symm) ok
    exact ⟨isBound, by rw [silent]; rfl⟩
  · exact nofun

/-- Finishing reports errors in what was declared only, and succeeds unless there is one. -/
theorem finishBinding_reports (session : Session) (id : StructId)
    (inModule : (session.moduleOf? scope).isSome = true) :
    (∀ entry ∈ (session.finishBinding id scope).entries, entry.IsError) ∧
      ((session.finishBinding id scope).entries = [] → (session.finishBinding id scope).ok = true) := by
  unfold finishBinding
  dsimp only
  split
  · next absent =>
    rw [absent] at inModule
    cases inModule
  split
  · exact ⟨List.forall_mem_singleton.mpr (Entry.isError_error _ _), nofun⟩
  · exact ⟨List.forall_mem_nil _, fun _ => rfl⟩

theorem bindStruct_reports (settled : ∀ module ∈ session.modules, module.Settled)
    (housed : session.Housed id) :
    (∀ entry ∈ (session.bindStruct id).entries, entry.Plain) ∧
      ((∀ entry ∈ (session.bindStruct id).entries, ¬ entry.IsError) →
        (session.bindStruct id).ok = true) := by
  obtain ⟨scope, owner, inModule⟩ := housed
  have noted : Entry.Plain (.trace (session.structAt id).loc (.binding (session.structAt id).name)) :=
    .inl rfl
  unfold bindStruct
  dsimp only
  split
  · exact ⟨List.forall_mem_singleton.mpr noted, fun _ => rfl⟩
  split
  · next absent => cases owner.symm.trans absent
  next other isOwner =>
  cases owner.symm.trans isOwner
  split
  · obtain ⟨errors, ok⟩ := finishBinding_reports (session.setStruct id _) id
      ((session.moduleOf?_modifyStruct id _ scope).symm ▸ inModule)
    refine ⟨List.forall_mem_cons.mpr ⟨noted, fun entry member => .inr (errors entry member)⟩,
      fun clean => ok ?_⟩
    exact List.eq_nil_iff_forall_not_mem.mpr fun entry member =>
      clean entry (List.mem_cons_of_mem _ member) (errors entry member)
  · next failed =>
    have errors := bindMemberTypes_entries settled scope (session.structAt id)
      (session.structAt id).members
    refine ⟨List.forall_mem_cons.mpr ⟨noted, fun entry member => .inr (errors entry member)⟩,
      fun clean => ?_⟩
    obtain ⟨entry, member⟩ := List.exists_mem_of_ne_nil _ failed
    exact absurd (errors entry member) (clean entry (List.mem_cons_of_mem _ member))

/-! Binding many structs -/

/-- Without an internal error binding goes on with the next struct. -/
theorem bindStructs_cons {log : Log} {ids : List StructId}
    (plain : (session.bindStruct id).entries.any Entry.isInternal = false) :
    let first := session.bindStruct id
    let recorded := log.recordAll first.entries
    let others := bindStructs (recorded.counts .internal) ids first.session recorded
    bindStructs (log.counts .internal) (id :: ids) session log =
      { others with ok := first.ok && others.ok } := by
  have same : (log.recordAll (session.bindStruct id).entries).counts .internal =
      log.counts .internal :=
    Log.counts_recordAll_eq_iff.mpr fun entry member isInternal =>
      List.any_eq_false.mp plain entry member (decide_eq_true isInternal)
  rw [bindStructs]
  dsimp only
  rw [same, if_neg (Nat.lt_irrefl _)]

theorem MayBind.mono (same : before.SameOwners after) (persists : before.Persists after)
    (held : id.index < before.structs.size) (mayBind : MayBind may before id) :
    MayBind may after id := by
  rcases mayBind with isBound | ⟨allowed, around⟩
  · exact .inl ((persists.structs id held).isBound isBound)
  · refine .inr ⟨allowed, fun scope owner module isModule => ?_⟩
    rw [same.owner] at owner
    rw [same.moduleOf?] at isModule
    exact around scope owner module isModule

/-- Structs that may be bound are all bound, or errors are reported. No message is an internal error,
so that binding goes on to the last of them. -/
theorem bindStructs_evolves {ids : List StructId} (integral : session.Integral exprs)
    (prelude : 3 ≤ session.structs.size)
    (all : ∀ id ∈ ids, id.index < session.structs.size ∧ session.Housed id ∧
      MayBind may session id) (log : Log) :
    let bound := bindStructs (log.counts .internal) ids session log
    Evolves may exprs session bound.session ∧ ∃ entries, bound.log = log.recordAll entries ∧
      (∀ entry ∈ entries, entry.Plain) ∧ ((∀ entry ∈ entries, ¬ entry.IsError) →
        ∀ id ∈ ids, (bound.session.structAt id).isBound = true) := by
  induction ids generalizing session log with
  | nil => exact ⟨.refl, [], rfl, List.forall_mem_nil _, fun _ => List.forall_mem_nil _⟩
  | cons id ids ih =>
    obtain ⟨⟨held, housed, mayBind⟩, rest⟩ := List.forall_mem_cons.mp all
    have first := bindStruct_evolves integral prelude held mayBind
    obtain ⟨entries, ok⟩ := bindStruct_reports integral.settled housed
    have same := session.bindStruct_sameOwners id
    have persists := first.persists
    have bounds := persists.bounds exprs
    have plain : (session.bindStruct id).entries.any Entry.isInternal = false := by
      rw [List.any_eq_false]
      exact fun entry member => by simp [(entries entry member).not_isInternal]
    obtain ⟨others, later, isLog, otherEntries, othersBound⟩ := ih (first.integral integral)
      (Nat.le_trans prelude bounds.structs) (fun other member =>
        have ⟨heldOther, housedOther, mayBindOther⟩ := rest other member
        ⟨Nat.lt_of_lt_of_le heldOther bounds.structs, same.housed housedOther,
          mayBindOther.mono same persists heldOther⟩) (log.recordAll (session.bindStruct id).entries)
    rw [bindStructs_cons plain]
    refine ⟨Relation.ReflTransGen.trans first others, (session.bindStruct id).entries ++ later,
      isLog.trans (log.recordAll_append _ _).symm,
      List.forall_mem_append.mpr ⟨entries, otherEntries⟩, fun clean => ?_⟩
    obtain ⟨cleanFirst, cleanRest⟩ := List.forall_mem_append.mp clean
    refine List.forall_mem_cons.mpr ⟨?_, othersBound cleanRest⟩
    exact (others.persists.structs id (Nat.lt_of_lt_of_le held bounds.structs)).isBound
      (bindStruct_of_ok held (ok cleanFirst)).1

/-- Whatever a module has registered can be bound. -/
theorem Integral.pending (integral : session.Integral exprs)
    (member : id ∈ session.pendingStructs module) :
    id.index < session.structs.size ∧ session.Housed id := by
  by_cases held : module.index < session.modules.size
  · have isModule : session.moduleAt module ∈ session.modules := getD_mem held
    obtain ⟨_, structs, _, funcs, _⟩ :=
      Module.covers_handles.mp (integral.covered.modules _ isModule)
    rcases List.mem_append.mp member with isStruct | isVariables
    · obtain ⟨entry, isEntry, rfl⟩ := List.mem_map.mp isStruct
      obtain ⟨owner, isOwner⟩ := integral.owned _ isModule entry isEntry
      exact ⟨of_decide_eq_true (structs entry isEntry), .module owner, isOwner, rfl⟩
    · obtain ⟨entry, isEntry, isVars⟩ := List.mem_flatMap.mp isVariables
      obtain ⟨block, isBlock, rfl⟩ := List.mem_map.mp isVars
      have heldFunc : entry.2.index < session.funcs.size := of_decide_eq_true (funcs entry isEntry)
      obtain ⟨isFunc, vars⟩ := integral.attached entry.2 heldFunc block isBlock
      obtain ⟨_, _, blocks, _⟩ :=
        Func.covers_handles.mp (integral.covered.funcs _ (getD_mem heldFunc))
      have heldBlock : block.index < session.blocks.size := of_decide_eq_true (blocks block isBlock)
      obtain ⟨heldVars, _⟩ :=
        Block.covers_handles.mp (integral.covered.blocks _ (getD_mem heldBlock))
      refine ⟨of_decide_eq_true heldVars, .block block, vars, ?_⟩
      obtain ⟨home, isHome⟩ := Option.isSome_iff_exists.mp (integral.homed _ isModule entry isEntry)
      obtain ⟨module, rfl⟩ := integral.nested.funcs _ _ isHome
      rw [integral.nested.moduleOf?_block.mpr ⟨entry.2, isFunc, isHome⟩]
      rfl
  · rw [pendingStructs, moduleAt, Array.getElem?_eq_none (Nat.le_of_not_lt held)] at member
    exact (List.not_mem_nil member).elim

/-- Binding the structs of a module, with what it reports. Without an error all of them are bound. -/
theorem bindModule_evolves (integral : session.Integral exprs) (prelude : 3 ≤ session.structs.size)
    (mayBind : ∀ id ∈ session.pendingStructs module, MayBind may session id) (log : Log) :
    let bound := session.bindModule module log
    Evolves may exprs session bound.session ∧ ∃ entries, bound.log = log.recordAll entries ∧
      (∀ entry ∈ entries, entry.Plain) ∧ ((∀ entry ∈ entries, ¬ entry.IsError) →
        ∀ id ∈ session.pendingStructs module, (bound.session.structAt id).isBound = true) := by
  refine bindStructs_evolves integral prelude (fun id member => ?_) log
  have ⟨held, housed⟩ := integral.pending member
  exact ⟨held, housed, mayBind id member⟩

end Session

end Assay
