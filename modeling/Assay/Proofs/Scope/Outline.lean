import Assay.Proofs.Scope.BindingSteps

/-!
Contract: which structs a module lists, and the names of their members.
-/

namespace Assay

open Stopping

/-! ## Outlines -/

namespace Struct

def bookkeeping : List String :=
  ["reference_count", "previous_copy"]

def outline (struct : Struct) : String × List String :=
  (struct.name, struct.members.map Member.name)

variable {struct after : Struct} {name : String}

theorem contains_eq_true :
    struct.contains name = true ↔ name ∈ struct.members.map Member.name := by
  simp [contains]

theorem contains_eq_false :
    struct.contains name = false ↔ name ∉ struct.members.map Member.name := by
  rw [← contains_eq_true, Bool.not_eq_true]

theorem sealWith_outline {before : Struct} {own : StructId} {word : Ty}
    (done : before.sealWith own word = .ok after) (unsealed : before.isSealed = false) :
    after.outline = (before.name, before.members.map Member.name ++ bookkeeping) := by
  rcases sealWith_eq done with ⟨isSealed, _⟩ | ⟨_, rfl⟩
  · rw [unsealed] at isSealed
    cases isSealed
  · simp [outline, bookkeeping, referenceCount, previousCopy]

end Struct

namespace Session

variable {before middle after session : Session} {module : ModuleId} {id : StructId}

def listed (session : Session) (module : ModuleId) : List StructId :=
  ((session.moduleAt module).structs.map Prod.snd).filter fun id => id ∉ Prelude.structIds

def outlines (session : Session) (module : ModuleId) : List (String × List String) :=
  (session.listed module).map fun id => (session.structAt id).outline

theorem outlines_congr (listed : after.listed module = before.listed module)
    (structs : ∀ id ∈ before.listed module,
      (after.structAt id).outline = (before.structAt id).outline) :
    after.outlines module = before.outlines module := by
  rw [outlines, outlines, listed]
  exact List.map_congr_left structs

def Unlisted (session : Session) (id : StructId) : Prop :=
  ∀ module, id ∉ session.listed module

theorem listed_held {exprs : Nat} (covered : session.CoveredBy (session.bounds exprs))
    (member : id ∈ session.listed module) : id.index < session.structs.size := by
  obtain ⟨isStruct, _⟩ := List.mem_filter.mp member
  obtain ⟨entry, isEntry, rfl⟩ := List.mem_map.mp isStruct
  obtain ⟨_, structs, _⟩ := Module.covers_handles.mp (covered.moduleAt module)
  exact of_decide_eq_true (structs entry isEntry)

structure SameStructs (before after : Session) : Prop where
  structs : after.structs = before.structs
  lists : ∀ module, (after.moduleAt module).structs = (before.moduleAt module).structs

theorem SameStructs.refl (session : Session) : session.SameStructs session :=
  ⟨rfl, fun _ => rfl⟩

theorem SameStructs.trans (first : before.SameStructs middle) (second : middle.SameStructs after) :
    before.SameStructs after :=
  ⟨second.structs.trans first.structs, fun module =>
    (second.lists module).trans (first.lists module)⟩

theorem SameStructs.structAt (same : before.SameStructs after) (id : StructId) :
    after.structAt id = before.structAt id := by
  rw [Session.structAt, Session.structAt, same.structs]

theorem SameStructs.listed (same : before.SameStructs after) (module : ModuleId) :
    after.listed module = before.listed module := by
  rw [Session.listed, Session.listed, same.lists]

theorem SameStructs.outlines (same : before.SameStructs after) (module : ModuleId) :
    after.outlines module = before.outlines module :=
  outlines_congr (same.listed module) fun id _ => by rw [same.structAt]

theorem SameStructs.setModule (session : Session) {changed : Module}
    (same : changed.structs = (session.moduleAt module).structs) :
    session.SameStructs (session.setModule module changed) := by
  refine ⟨rfl, fun other => ?_⟩
  rw [moduleAt_setModule]
  split
  · next both => rw [same, both.1]
  · rfl

theorem Annotates.sameStructs (annotates : before.Annotates module after) :
    before.SameStructs after := by
  refine ⟨annotates.structs, fun other => ?_⟩
  by_cases same : other = module
  · rw [same]
    exact annotates.own.structs
  · rw [annotates.others other same]

/-! ## Members -/

/-- Members of these names have been added to a struct, and nothing else has changed. -/
structure Fills (id : StructId) (names : List String) (before after : Session) : Prop where
  target : after.target = before.target
  modules : after.modules = before.modules
  funcs : after.funcs = before.funcs
  blocks : after.blocks = before.blocks
  size : after.structs.size = before.structs.size
  others : ∀ other, other ≠ id → after.structAt other = before.structAt other
  isSealed : (after.structAt id).isSealed = (before.structAt id).isSealed
  outline : (after.structAt id).outline =
    ((before.structAt id).name, (before.structAt id).members.map Member.name ++ names)
  distinct : ((before.structAt id).members.map Member.name).Nodup →
    ((after.structAt id).members.map Member.name).Nodup

theorem Fills.refl (id : StructId) (session : Session) : session.Fills id [] session :=
  ⟨rfl, rfl, rfl, rfl, rfl, fun _ _ => rfl, rfl, by rw [List.append_nil]; rfl, fun same => same⟩

theorem Fills.trans {first second : List String} (fills : before.Fills id first middle)
    (rest : middle.Fills id second after) : before.Fills id (first ++ second) after where
  target := rest.target.trans fills.target
  modules := rest.modules.trans fills.modules
  funcs := rest.funcs.trans fills.funcs
  blocks := rest.blocks.trans fills.blocks
  size := rest.size.trans fills.size
  others := fun other different => (rest.others other different).trans (fills.others other different)
  isSealed := rest.isSealed.trans fills.isSealed
  outline := by
    obtain ⟨name, members⟩ := Prod.mk.inj fills.outline
    rw [rest.outline, name, members, List.append_assoc]
  distinct := fun nodup => rest.distinct (fills.distinct nodup)

theorem Fills.outlines {names : List String} (fills : before.Fills id names after)
    (unlisted : before.Unlisted id) (module : ModuleId) :
    after.outlines module = before.outlines module := by
  have listed : after.listed module = before.listed module := by
    rw [Session.listed, Session.listed, moduleAt, moduleAt, fills.modules]
  refine outlines_congr listed fun other member => ?_
  rw [fills.others other fun same => unlisted module (same ▸ member)]

end Session

namespace Edit

open Session (Fills)

variable {session after base : Session} {id other : StructId} {name : String} {ty : Ty}
  {value : Nat} {func : FuncId}

theorem addMember_ok (held : id.index < session.structs.size)
    (done : (addMember id name ty).run.run session = (.ok value, after)) :
    session.Fills id [name] after := by
  rw [addMember, run_get_bind] at done
  obtain ⟨_, middle, changed, rest⟩ := bind_ok done
  cases added : (session.structAt id).addMember name ty with
  | error fault =>
    rw [changeStruct_error (fun struct => struct.addMember name ty) added] at changed
    cases changed
  | ok struct =>
    rw [changeStruct_ok (fun struct => struct.addMember name ty) added] at changed
    cases changed
    cases rest
    obtain ⟨_, _, _, free, rfl⟩ := Struct.addMember_ok added
    have own : (session.setStruct id { session.structAt id with
        members := (session.structAt id).members ++ [⟨name, ty⟩] }).structAt id =
          { session.structAt id with
            members := (session.structAt id).members ++ [⟨name, ty⟩] } := by
      rw [Session.structAt_setStruct, if_pos ⟨rfl, held⟩]
    refine ⟨rfl, rfl, rfl, rfl, Array.size_modify, fun other different => ?_, ?_, ?_, ?_⟩
    · rw [Session.structAt_setStruct,
        if_neg fun both => different both.1.symm]
    · rw [own]
    · rw [own, Struct.outline, List.map_append]
      rfl
    · intro nodup
      rw [own, List.map_append]
      refine List.nodup_append.mpr ⟨nodup, by simp, fun other member last isLast same => ?_⟩
      have isName : last = name := List.mem_singleton.mp isLast
      rw [same, isName] at member
      exact Struct.contains_eq_false.mp free member

theorem addParameter_ok (held : id.index < session.structs.size)
    (done : (addParameter func id name ty).run.run session = (.ok value, after)) :
    session.Fills id [name] after := by
  rw [addParameter, run_get_bind] at done
  split at done
  · cases done
  · exact addMember_ok held done

theorem addInbound_ok (held : (session.funcAt func).inbound.index < session.structs.size)
    (done : (addInbound func name ty).run.run session = (.ok value, after)) :
    session.Fills (session.funcAt func).inbound [name] after := by
  rw [addInbound, run_get_bind] at done
  exact addParameter_ok held done

theorem addOutbound_ok (held : (session.funcAt func).outbound.index < session.structs.size)
    (done : (addOutbound func name ty).run.run session = (.ok value, after)) :
    session.Fills (session.funcAt func).outbound [name] after := by
  rw [addOutbound, run_get_bind] at done
  exact addParameter_ok held done

theorem addLocal_ok {block : BlockId}
    (held : (session.blockAt block).vars.index < session.structs.size)
    (done : (addLocal block name ty).run.run session = (.ok value, after)) :
    session.Fills (session.blockAt block).vars [name] after := by
  rw [addLocal, run_get_bind] at done
  exact addMember_ok held done

/-! ## Edits that leave structs alone -/

theorem changeModule_sameStructs {module : ModuleId} {change : Module → Except Fault Module}
    (step : ∀ {before after}, change before = .ok after → after.structs = before.structs) :
    Keeps base.SameStructs (changeModule module change) :=
  changeModule_keeps fun same changed => same.trans (.setModule _ (step changed))

theorem addImport_sameStructs (module imported : ModuleId) :
    Keeps base.SameStructs (addImport module imported) := by
  refine .get_bind fun session => changeModule_sameStructs (fun changed => ?_) session
  unfold Module.addImport at changed
  split at changed <;> cases changed
  rfl

theorem addObject_sameStructs (module : ModuleId) (object : ObjectId) :
    Keeps base.SameStructs (addObject module object) := by
  refine addObject_keeps fun {session} same _ => same.trans ?_
  have listed : session.SameStructs (session.setModule module { session.moduleAt module with
      objects := (session.moduleAt module).objects ++ [((session.objectAt object).name, object)] }) :=
    .setModule session rfl
  exact ⟨listed.structs, listed.lists⟩

/-! ## Structs and functions -/

variable {module : ModuleId} {before middle : Session}

section

variable (takes : Takes module id before after)
include takes

theorem Takes.listed (new : id ∉ Prelude.structIds) :
    after.listed module = before.listed module ++ [id] := by
  rw [Session.listed, Session.listed, takes.structs, List.map_append, List.filter_append]
  congr 1
  exact List.filter_cons_of_pos (decide_eq_true new)

theorem Takes.listed_other {other : ModuleId} (different : other ≠ module) :
    after.listed other = before.listed other := by
  rw [Session.listed, Session.listed, takes.modules other different]

/-- A struct that a module takes is the last of its outline. -/
theorem Takes.outlines (new : id ∉ Prelude.structIds) (unlisted : before.Unlisted id)
    (unsealed : (before.structAt id).isSealed = false) (other : ModuleId) :
    after.outlines other = before.outlines other ++ if other = module then
      [((before.structAt id).name,
        (before.structAt id).members.map Member.name ++ Struct.bookkeeping)] else [] := by
  have earlier : ∀ item ∈ before.listed other,
      (after.structAt item).outline = (before.structAt item).outline := by
    intro item member
    rw [takes.others item fun same => unlisted other (same ▸ member)]
  split
  · next same =>
    subst same
    rw [Session.outlines, takes.listed new, List.map_append, List.map_congr_left earlier]
    have own := Struct.sealWith_outline takes.sealed unsealed
    rw [List.map_singleton, own]
    rfl
  · next different =>
    rw [List.append_nil]
    exact Session.outlines_congr (takes.listed_other different) earlier

theorem Takes.unlisted (new : id ∉ Prelude.structIds) (unlisted : before.Unlisted other)
    (different : other ≠ id) : after.Unlisted other := by
  intro place member
  by_cases same : place = module
  · rw [same, takes.listed new] at member
    rcases List.mem_append.mp member with isOld | isNew
    · exact unlisted module isOld
    · exact different (List.mem_singleton.mp isNew)
  · rw [takes.listed_other same] at member
    exact unlisted place member

end

/-- Structs have been sealed, one module annotated, and nothing else has changed. -/
structure Describes (module : ModuleId) (ids : List StructId) (before after : Session) : Prop where
  lists : ∀ other, (after.moduleAt other).structs = (before.moduleAt other).structs
  blocks : after.blocks = before.blocks
  size : after.structs.size = before.structs.size
  others : ∀ other, other ∉ ids → after.structAt other = before.structAt other

theorem Describes.outlines {ids : List StructId} (describes : Describes module ids before after)
    (unlisted : ∀ id ∈ ids, before.Unlisted id) (other : ModuleId) :
    after.outlines other = before.outlines other := by
  refine Session.outlines_congr ?_ fun item member => ?_
  · rw [Session.listed, Session.listed, describes.lists]
  · rw [describes.others item fun isOne => unlisted item isOne other member]

theorem describeStruct_describes {value : Unit}
    (done : (describeStruct module id).run.run before = (.ok value, after)) :
    Describes module [id] before after := by
  obtain ⟨struct, _, annotates⟩ := describeStruct_ok done
  have same := annotates.sameStructs
  refine ⟨fun other => same.lists other, annotates.blocks, ?_, fun other different => ?_⟩
  · rw [annotates.structs]
    exact Array.size_modify
  · rw [annotates.structAt, Session.structAt_setStruct,
      if_neg fun both => different (List.mem_singleton.mpr both.1.symm)]

/-- The variables of blocks are described in order. -/
theorem describeVariables_describes {blocks : List BlockId} {value : Unit}
    (done : (blocks.forM fun block => do
      describeStruct module ((← get).blockAt block).vars : Edit Unit).run.run before =
        (.ok value, after)) :
    Describes module (blocks.map fun block => (before.blockAt block).vars) before after := by
  induction blocks generalizing before with
  | nil =>
    cases done
    exact ⟨fun _ => rfl, rfl, rfl, fun _ _ => rfl⟩
  | cons block blocks ih =>
    change ((do describeStruct module ((← get).blockAt block).vars : Edit Unit) >>= fun _ =>
      blocks.forM fun block => do
        describeStruct module ((← get).blockAt block).vars).run.run before = _ at done
    obtain ⟨_, middle, first, rest⟩ := bind_ok done
    rw [run_get_bind] at first
    have describes := describeStruct_describes first
    have others := ih rest
    have sameVars : (blocks.map fun block => (middle.blockAt block).vars) =
        blocks.map fun block => (before.blockAt block).vars := by
      simp only [Session.blockAt, describes.blocks]
    rw [sameVars] at others
    refine ⟨fun other => (others.lists other).trans (describes.lists other),
      others.blocks.trans describes.blocks, others.size.trans describes.size,
      fun other absent => ?_⟩
    obtain ⟨different, later⟩ := not_or.mp (mt List.mem_cons.mpr absent)
    exact (others.others other later).trans
      (describes.others other fun same => different (List.mem_singleton.mp same))

theorem takeFunc_sameStructs (session : Session) (module : ModuleId) (func : FuncId) :
    session.SameStructs (session.takeFunc module func) := by
  have listed : session.SameStructs (session.setModule module { session.moduleAt module with
      funcs := (session.moduleAt module).funcs ++ [((session.funcAt func).name, func)] }) :=
    .setModule session rfl
  exact ⟨listed.structs, listed.lists⟩

structure Parameters (session : Session) (id : StructId) : Prop where
  held : id.index < session.structs.size
  new : id ∉ Prelude.structIds
  unlisted : session.Unlisted id
  unsealed : (session.structAt id).isSealed = false

theorem Parameters.same (parameters : Parameters before id) (same : before.SameStructs after) :
    Parameters after id where
  held := by
    rw [same.structs]
    exact parameters.held
  new := parameters.new
  unlisted := fun module => by
    rw [same.listed]
    exact parameters.unlisted module
  unsealed := by
    rw [same.structAt]
    exact parameters.unsealed

theorem Parameters.taken (parameters : Parameters before id)
    (takes : Takes module other before after) (new : other ∉ Prelude.structIds)
    (different : id ≠ other) : Parameters after id where
  held := by
    rw [takes.structs_size]
    exact parameters.held
  new := parameters.new
  unlisted := takes.unlisted new parameters.unlisted different
  unsealed := by
    rw [takes.others id different]
    exact parameters.unsealed

/-- A function brings the structs of its parameters into the outline of its module. -/
theorem addFunc_outlines {func : FuncId} {value : Unit} (held : module.index < session.modules.size)
    (inbound : Parameters session (session.funcAt func).inbound)
    (outbound : Parameters session (session.funcAt func).outbound)
    (distinct : (session.funcAt func).outbound ≠ (session.funcAt func).inbound)
    (slots : ∀ block ∈ (session.funcAt func).blocks,
      session.Unlisted (session.blockAt block).vars ∧
        (session.blockAt block).vars ≠ (session.funcAt func).inbound ∧
        (session.blockAt block).vars ≠ (session.funcAt func).outbound)
    (done : (addFunc module func).run.run session = (.ok value, after)) (other : ModuleId) :
    after.outlines other = session.outlines other ++ if other = module then
      [((session.structAt (session.funcAt func).inbound).name,
        (session.structAt (session.funcAt func).inbound).members.map Member.name ++
          Struct.bookkeeping),
       ((session.structAt (session.funcAt func).outbound).name,
        (session.structAt (session.funcAt func).outbound).members.map Member.name ++
          Struct.bookkeeping)] else [] := by
  cases free : (session.moduleAt module).func? (session.funcAt func).name with
  | some taken =>
    rw [addFunc_refused free] at done
    cases done
  | none =>
    rw [addFunc_taken free] at done
    obtain ⟨_, first, inboundDone, done⟩ := bind_ok done
    obtain ⟨_, second, outboundDone, done⟩ := bind_ok done
    have same := takeFunc_sameStructs session module func
    have heldTaken : module.index < (session.takeFunc module func).modules.size :=
      Nat.lt_of_lt_of_eq held Array.size_modify.symm
    have inboundTaken := inbound.same same
    have takesInbound := (addStruct_ok heldTaken inboundTaken.held inboundDone).2
    have outboundTaken := (outbound.same same).taken takesInbound inbound.new distinct
    have heldFirst : module.index < first.modules.size := by
      rw [takesInbound.modules_size]
      exact heldTaken
    have takesOutbound := (addStruct_ok heldFirst outboundTaken.held outboundDone).2
    have describes := describeVariables_describes done
    have sameVars : ∀ block, (second.blockAt block).vars = (session.blockAt block).vars := by
      intro block
      rw [Session.blockAt, takesOutbound.blocks, takesInbound.blocks]
      rfl
    have unlisted : ∀ id ∈ (session.funcAt func).blocks.map (fun block =>
        (second.blockAt block).vars), second.Unlisted id := by
      intro id member
      obtain ⟨block, isBlock, rfl⟩ := List.mem_map.mp member
      obtain ⟨unlisted, notInbound, notOutbound⟩ := slots block isBlock
      rw [sameVars]
      refine takesOutbound.unlisted outbound.new ?_ notOutbound
      refine takesInbound.unlisted inbound.new (fun place => ?_) notInbound
      rw [same.listed]
      exact unlisted place
    have inboundStruct := same.structAt (session.funcAt func).inbound
    have outboundStruct : first.structAt (session.funcAt func).outbound =
        session.structAt (session.funcAt func).outbound :=
      (takesInbound.others _ distinct).trans (same.structAt _)
    rw [describes.outlines unlisted, takesOutbound.outlines outbound.new outboundTaken.unlisted
      outboundTaken.unsealed, takesInbound.outlines inbound.new inboundTaken.unlisted
      inboundTaken.unsealed, same.outlines, inboundStruct, outboundStruct, List.append_assoc]
    split <;> rfl

end Edit

/-! ## Binding -/

namespace Session

variable {before middle after session : Session} {id : StructId} {scope : ScopeId} {exprs : Nat}

structure SameOutlines (before after : Session) : Prop where
  lists : ∀ module, (after.moduleAt module).structs = (before.moduleAt module).structs
  structs : ∀ id, (after.structAt id).outline = (before.structAt id).outline

theorem SameOutlines.refl (session : Session) : session.SameOutlines session :=
  ⟨fun _ => rfl, fun _ => rfl⟩

theorem SameOutlines.trans (first : before.SameOutlines middle)
    (second : middle.SameOutlines after) : before.SameOutlines after :=
  ⟨fun module => (second.lists module).trans (first.lists module),
    fun id => (second.structs id).trans (first.structs id)⟩

theorem SameOutlines.listed (same : before.SameOutlines after) (module : ModuleId) :
    after.listed module = before.listed module := by
  rw [Session.listed, Session.listed, same.lists]

theorem SameOutlines.outlines (same : before.SameOutlines after) (module : ModuleId) :
    after.outlines module = before.outlines module :=
  outlines_congr (same.listed module) fun id _ => same.structs id

theorem SameStructs.sameOutlines (same : before.SameStructs after) : before.SameOutlines after :=
  ⟨same.lists, fun id => by rw [same.structAt]⟩

theorem SameOutlines.modifyStruct (session : Session) (id : StructId) {change : Struct → Struct}
    (same : (change (session.structAt id)).outline = (session.structAt id).outline) :
    session.SameOutlines (session.modifyStruct id change) := by
  refine ⟨fun _ => rfl, fun other => ?_⟩
  rw [structAt_modifyStruct]
  split
  · next both =>
    rw [← both.1]
    exact same
  · rfl

theorem lastsBinding_sameOutlines (base : Session) (id : StructId) :
    LastsBinding id base.SameOutlines where
  table := fun {session _ module} same _ _ => by
    have kept : session.Annotates module _ :=
      addAttrTable_annotates module (session.structAt id) session (.refl module session)
    exact same.trans kept.sameStructs.sameOutlines
  types := fun {session} scope same => same.trans (.modifyStruct session id (by
    rw [Struct.outline, bindMemberTypes_names]
    rfl))
  mark := fun {session} same => same.trans (.modifyStruct session id rfl)

end Session

end Assay
