import Assay.Proofs.Scope.Evolution

/-!
Contract: what registrations leave, and which of them cannot be refused.
-/

namespace Assay

open Stopping

/-! ## Sealing -/

def Struct.Sealable (struct : Struct) : Prop :=
  struct.isSealed = true ∨ struct.contains Struct.referenceCount = false ∧
    struct.contains Struct.previousCopy = false

variable {struct : Struct}

theorem Struct.push_ok {name : String} (free : struct.contains name = false) (ty : Ty) :
    struct.push name ty =
      .ok { struct with members := struct.members ++ [⟨name, ty⟩] } := by
  rw [Struct.push, free]
  rfl

theorem Struct.Sealable.isOk (sealable : struct.Sealable) (own : StructId) (word : Ty) :
    ∃ after, struct.sealWith own word = .ok after := by
  unfold Struct.sealWith
  split
  · exact ⟨_, rfl⟩
  · next unsealed =>
    obtain ⟨noCount, noCopy⟩ := sealable.resolve_left unsealed
    have stillNone : ({ struct with
        members := struct.members ++ [⟨referenceCount, word⟩] } : Struct).contains
          previousCopy = false := by
      rw [Struct.contains] at noCopy ⊢
      rw [List.any_append, noCopy]
      simp [referenceCount, previousCopy]
    have counted := push_ok noCount word
    have linked := push_ok stillNone (.refToStruct own struct.name struct.loc)
    refine ⟨{ struct with
      members := (struct.members ++ [⟨referenceCount, word⟩]) ++
        [⟨previousCopy, .refToStruct own struct.name struct.loc⟩]
      isSealed := true }, ?_⟩
    rw [counted]
    show Struct.push _ _ _ >>= _ = _
    rw [linked]
    rfl

/-- A sealed struct keeps its name, its owner and its members. -/
theorem Struct.sealWith_keeps {before after : Struct} {own : StructId} {word : Ty}
    (done : before.sealWith own word = .ok after) :
    after.isSealed = true ∧ after.name = before.name ∧ after.owner = before.owner := by
  rcases sealWith_eq done with ⟨isSealed, rfl⟩ | ⟨_, rfl⟩
  · exact ⟨isSealed, rfl, rfl⟩
  · exact ⟨rfl, rfl, rfl⟩

/-! ## Annotation -/

namespace Module

variable {before after module : Module} {own : ModuleId} {global : Global}

theorem findString_annotated (module : Module) (own : ModuleId) (text : String) (loc : Location) :
    module.Annotated (module.findString own text loc).2 := by
  rcases module.findString_cases own text loc with ⟨same, _⟩ | ⟨_, _, installs⟩
  · exact same.symm ▸ .refl module
  · exact installs.annotated

theorem addGlobal_annotated (added : before.addGlobal own global = .ok after) :
    before.Annotated after := by
  obtain ⟨_, rfl⟩ := addGlobal_appended added
  exact ⟨rfl, rfl, rfl, rfl, rfl, rfl⟩

/-- Texts are kept as constants, so that globals do not change. -/
theorem globalTable_findString (module : Module) (own : ModuleId) (text : String) (loc : Location) :
    (module.findString own text loc).2.globalTable = module.globalTable := by
  rcases module.findString_cases own text loc with ⟨same, _⟩ | ⟨_, _, installs⟩
  · rw [same]
  · exact installs.lists.globalTable

theorem hasGlobal_of_globals (same : after.globalTable = before.globalTable) (name : String) :
    after.hasGlobal name = before.hasGlobal name := by
  rw [hasGlobal, hasGlobal, global?, global?, same]

structure OnlyDescribes (module : Module) : Prop where
  constants : ∀ name ∈ module.constantTable.map Prod.fst, ∃ text ∈ module.structs.map Prod.fst,
    name = text ++ "_type_name"
  globals : ∀ name ∈ module.globalTable.map Prod.fst, ∃ text ∈ module.structs.map Prod.fst,
    name = text ++ "_type"

theorem OnlyDescribes.take (describes : module.OnlyDescribes) (entry : String × StructId) :
    ({ module with structs := module.structs ++ [entry] } : Module).OnlyDescribes := by
  have listed : ∀ text ∈ module.structs.map Prod.fst,
      text ∈ (module.structs ++ [entry]).map Prod.fst := fun text member => by simp_all
  refine ⟨fun constant member => ?_, fun global member => ?_⟩
  · obtain ⟨text, isListed, named⟩ := describes.constants constant member
    exact ⟨text, listed text isListed, named⟩
  · obtain ⟨text, isListed, named⟩ := describes.globals global member
    exact ⟨text, listed text isListed, named⟩

theorem OnlyDescribes.hasConstant_eq_false {name : String} (describes : module.OnlyDescribes)
    (free : module.struct? name = none) : module.hasConstant (name ++ "_type_name") = false := by
  refine Module.hasConstant_eq_false.mpr fun member => ?_
  obtain ⟨text, isListed, named⟩ := describes.constants _ member
  have isText : name = text := by simpa using named
  obtain ⟨entry, isEntry, rfl⟩ := List.mem_map.mp isListed
  simpa [isText] using List.lookup_eq_none_iff.mp free entry isEntry

end Module

def Global.Describes (global : Global) (name : String) (number : Nat) : Prop :=
  global.name = name ∧ ∃ constant, global.initializer = .typeInfo constant number

namespace Session

variable {module : ModuleId} {before middle after session base : Session}

structure Annotates (module : ModuleId) (before after : Session) : Prop where
  target : after.target = before.target
  structs : after.structs = before.structs
  funcs : after.funcs = before.funcs
  blocks : after.blocks = before.blocks
  objects : after.objects = before.objects
  size : after.modules.size = before.modules.size
  others : ∀ id, id ≠ module → after.moduleAt id = before.moduleAt id
  own : (before.moduleAt module).Annotated (after.moduleAt module)

namespace Annotates

theorem refl (module : ModuleId) (session : Session) : session.Annotates module session :=
  ⟨rfl, rfl, rfl, rfl, rfl, rfl, fun _ _ => rfl, .refl _⟩

theorem trans (first : Annotates module before middle) (second : Annotates module middle after) :
    Annotates module before after where
  target := second.target.trans first.target
  structs := second.structs.trans first.structs
  funcs := second.funcs.trans first.funcs
  blocks := second.blocks.trans first.blocks
  objects := second.objects.trans first.objects
  size := second.size.trans first.size
  others := fun id other => (second.others id other).trans (first.others id other)
  own := first.own.trans second.own

theorem setModule (session : Session) {changed : Module}
    (annotated : (session.moduleAt module).Annotated changed) :
    Annotates module session (session.setModule module changed) := by
  refine ⟨rfl, rfl, rfl, rfl, rfl, Array.size_modify, fun id other => ?_, ?_⟩
  · rw [moduleAt_setModule, if_neg fun both => other both.1.symm]
  · rw [moduleAt_setModule]
    split
    · exact annotated
    · exact .refl _

theorem structAt (annotates : Annotates module before after) (id : StructId) :
    after.structAt id = before.structAt id := by
  rw [Session.structAt, Session.structAt, annotates.structs]

end Annotates

end Session

namespace Edit

open Session (Annotates)

variable {module : ModuleId} {session after base : Session} {id : StructId} {struct : Struct}
  {fault : Fault} {value : Unit} {ids : List StructId}

theorem changeModule_annotates {change : Module → Except Fault Module}
    (step : ∀ {before after}, change before = .ok after → before.Annotated after) :
    Keeps (Annotates module base) (changeModule module change) :=
  changeModule_keeps fun annotates changed => annotates.trans (.setModule _ (step changed))

theorem addGlobal_annotates (global : Global) :
    Keeps (Annotates module base) (addGlobal module global) :=
  changeModule_annotates Module.addGlobal_annotated

theorem addConstant_annotates (constant : Constant) :
    Keeps (Annotates module base) (addConstant module constant) := by
  refine addConstant_keeps fun annotates added => ?_
  obtain ⟨_, installs⟩ := Module.installs_of_added added
  exact annotates.trans (.setModule _ installs.annotated)

theorem findString_run (module : ModuleId) (text : String) (loc : Location) (session : Session) :
    (findString module text loc).run session =
      (((session.moduleAt module).findString module text loc).1,
        session.setModule module ((session.moduleAt module).findString module text loc).2) :=
  rfl

theorem findString_annotates (text : String) (loc : Location) :
    Computation.Keeps (Annotates module base) (findString module text loc) :=
  .get_bind fun session annotates =>
    annotates.trans (.setModule session (Module.findString_annotated _ _ _ _))

theorem describeKind_annotates (kind : Kind) :
    Keeps (Annotates module base) (describeKind module kind) :=
  describeKind_keeps findString_annotates (fun _ _ _ => addGlobal_annotates _) kind

/-! ## Structs -/

theorem annotateStruct_annotates (struct : Struct) (id : StructId) :
    Keeps (Annotates module base) (annotateStruct module struct id) :=
  annotateStruct_keeps (fun _ _ _ => addConstant_annotates _) (fun _ _ _ => addGlobal_annotates _)
    struct id

/-- A described struct is sealed, and the module that describes it is annotated. -/
theorem describeStruct_ok (done : (describeStruct module id).run.run session = (.ok value, after)) :
    ∃ struct, (session.structAt id).sealWith id
        (session.target.wordType (session.structAt id).loc) = .ok struct ∧
      (session.setStruct id struct).Annotates module after := by
  cases sealing : (session.structAt id).sealWith id
      (session.target.wordType (session.structAt id).loc) with
  | error fault =>
    rw [describeStruct_refused sealing] at done
    cases done
  | ok struct =>
    rw [describeStruct_sealed sealing] at done
    have kept : Annotates module (session.setStruct id struct) _ :=
      annotateStruct_annotates (session.structAt id) id _ (.refl module _)
    rw [show _ = (Except.ok value, after) from done] at kept
    exact ⟨struct, rfl, kept⟩

theorem structAt_takeStruct (held : id.index < session.structs.size) (module : ModuleId) :
    (session.takeStruct module id).structAt id =
      { session.structAt id with
        owner := (session.structAt id).owner.or (some (.module module)) } := by
  rw [Session.structAt_modifyStruct]
  exact if_pos ⟨rfl, held⟩

theorem moduleAt_takeStruct (held : module.index < session.modules.size) (id : StructId) :
    (session.takeStruct module id).moduleAt module =
      { session.moduleAt module with
        structs := (session.moduleAt module).structs ++ [((session.structAt id).name, id)] } := by
  show (session.setModule module _).moduleAt module = _
  rw [Session.moduleAt_setModule, if_pos ⟨rfl, held⟩]

/-- A module has taken a struct: the struct is listed last and sealed, and nothing else of structs
and blocks has changed. -/
structure Takes (module : ModuleId) (id : StructId) (before after : Session) : Prop where
  structs_size : after.structs.size = before.structs.size
  modules_size : after.modules.size = before.modules.size
  blocks : after.blocks = before.blocks
  sealed : ({ before.structAt id with
      owner := (before.structAt id).owner.or (some (.module module)) } : Struct).sealWith id
    (before.target.wordType (before.structAt id).loc) = .ok (after.structAt id)
  others : ∀ other, other ≠ id → after.structAt other = before.structAt other
  module_name : (after.moduleAt module).name = (before.moduleAt module).name
  structs : (after.moduleAt module).structs =
    (before.moduleAt module).structs ++ [((before.structAt id).name, id)]
  modules : ∀ other, other ≠ module → after.moduleAt other = before.moduleAt other

/-- The state in which a struct has been taken and sealed, and one module annotated. -/
theorem Takes.of_annotates {id : StructId} {struct : Struct}
    (held : module.index < session.modules.size) (heldStruct : id.index < session.structs.size)
    (sealing : ((session.takeStruct module id).structAt id).sealWith id
      (session.target.wordType ((session.takeStruct module id).structAt id).loc) = .ok struct)
    (annotates : ((session.takeStruct module id).setStruct id struct).Annotates module after) :
    Takes module id session after := by
  rw [structAt_takeStruct heldStruct] at sealing
  have size : (session.takeStruct module id).structs.size = session.structs.size :=
    Array.size_modify
  have isStruct : after.structAt id = struct := by
    rw [annotates.structAt, Session.structAt_setStruct,
      if_pos ⟨rfl, by rw [size]; exact heldStruct⟩]
  refine ⟨?_, ?_, annotates.blocks, isStruct ▸ sealing, fun other different => ?_, ?_,
    ?_, fun other different => ?_⟩
  · rw [annotates.structs]
    exact Array.size_modify.trans size
  · exact annotates.size.trans Array.size_modify
  · rw [annotates.structAt, Session.structAt_setStruct,
      if_neg fun both => different both.1.symm, Session.structAt_modifyStruct,
      if_neg fun both => different both.1.symm]
    rfl
  · rw [annotates.own.name]
    show ((session.takeStruct module id).moduleAt module).name = _
    rw [moduleAt_takeStruct held]
  · rw [annotates.own.structs]
    show ((session.takeStruct module id).moduleAt module).structs = _
    rw [moduleAt_takeStruct held]
  · rw [annotates.others other different]
    show (session.setModule module _).moduleAt other = _
    rw [Session.moduleAt_setModule, if_neg fun both => different both.1.symm]

/-- A struct is registered under a name that was free. -/
theorem addStruct_ok (held : module.index < session.modules.size)
    (heldStruct : id.index < session.structs.size)
    (done : (addStruct module id).run.run session = (.ok value, after)) :
    (session.moduleAt module).struct? (session.structAt id).name = none ∧
      Takes module id session after := by
  cases free : (session.moduleAt module).struct? (session.structAt id).name with
  | some other =>
    rw [addStruct_refused free] at done
    cases done
  | none =>
    rw [addStruct_taken free] at done
    obtain ⟨struct, sealing, annotates⟩ := describeStruct_ok done
    exact ⟨rfl, .of_annotates held heldStruct sealing annotates⟩

/-! ## Registrations that cannot be refused -/

theorem addConstant_free {constant : Constant}
    (free : constant.name ≠ "" → (session.moduleAt module).hasConstant constant.name = false) :
    (addConstant module constant).run.run session =
      (.ok ((session.moduleAt module).install module constant).1,
        session.setModule module ((session.moduleAt module).install module constant).2) := by
  have isFree : ¬ (constant.name ≠ "" ∧ (session.moduleAt module).hasConstant constant.name = true) :=
    fun ⟨isNamed, isTaken⟩ => Bool.false_ne_true ((free isNamed).symm.trans isTaken)
  have added : (session.moduleAt module).addConstant module constant =
      .ok ((session.moduleAt module).install module constant) := by
    rw [Module.addConstant]
    exact if_neg isFree
  rw [addConstant, run_get_bind, added]
  rfl

theorem addGlobal_free {global : Global}
    (free : (session.moduleAt module).hasGlobal global.name = false) :
    (addGlobal module global).run.run session = (.ok ⟨⟩, session.setModule module
      ((session.moduleAt module).pushGlobal { global with owner := some module })) :=
  changeModule_ok (fun state => state.addGlobal module global) (Module.addGlobal_ok free module)

/-- Describing a listed struct adds at most its description. -/
theorem annotateStruct_succeeds (held : module.index < session.modules.size)
    (describes : (session.moduleAt module).OnlyDescribes)
    (listed : struct.name ∈ (session.moduleAt module).structs.map Prod.fst)
    (free : (session.moduleAt module).hasConstant (struct.name ++ "_type_name") = false)
    (id : StructId) :
    ∃ after, (annotateStruct module struct id).run.run session = (.ok ⟨⟩, after) ∧
      (after.moduleAt module).OnlyDescribes := by
  rw [annotateStruct, run_get_bind]
  split
  · exact ⟨session, rfl, describes⟩
  · next undescribed =>
    let constant : Constant := .declare (struct.name ++ "_type_name")
      (Prelude.stringType struct.loc) (.value (.text struct.name))
    let changed := ((session.moduleAt module).install module constant).2
    obtain ⟨added, installs⟩ :=
      (session.moduleAt module).install_installs module constant fun _ => free
    have isChanged : (session.setModule module changed).moduleAt module = changed := by
      rw [Session.moduleAt_setModule, if_pos ⟨rfl, held⟩]
    have stillUndescribed : ((session.setModule module changed).moduleAt module).hasGlobal
        (struct.name ++ "_type") = false := by
      rw [isChanged, Module.hasGlobal_of_globals installs.lists.globalTable]
      exact Bool.eq_false_iff.mpr undescribed
    rw [run_bind, addConstant_free fun _ => free]
    refine ⟨_, addGlobal_free stillUndescribed, ?_⟩
    rw [Session.moduleAt_setModule, if_pos ⟨rfl, by simpa [Session.setModule,
      Session.modifyModule] using held⟩, isChanged]
    have structs : changed.structs = (session.moduleAt module).structs := installs.lists.structs
    have named : added.name = struct.name ++ "_type_name" :=
      installs.named (by simp [constant, Constant.declare])
    refine ⟨?_, ?_⟩
    · show ∀ name ∈ changed.constantTable.map Prod.fst, ∃ text ∈ changed.structs.map Prod.fst, _
      rw [installs.lists.constantTable, structs, Module.pushConstant, List.map_append]
      exact List.forall_mem_append.mpr ⟨describes.constants,
        List.forall_mem_singleton.mpr ⟨_, listed, named⟩⟩
    · show ∀ name ∈ (changed.globalTable ++ _).map Prod.fst, ∃ text ∈ changed.structs.map Prod.fst, _
      rw [show changed.globalTable = _ from installs.lists.globalTable, structs, List.map_append]
      exact List.forall_mem_append.mpr ⟨describes.globals,
        List.forall_mem_singleton.mpr ⟨_, listed, rfl⟩⟩

structure Introducible (module : ModuleId) (ids : List StructId) (session : Session) : Prop where
  held : module.index < session.modules.size
  structs : ∀ id ∈ ids, id.index < session.structs.size
  sealable : ∀ id ∈ ids, (session.structAt id).Sealable
  free : ∀ id ∈ ids, (session.moduleAt module).struct? (session.structAt id).name = none
  describes : (session.moduleAt module).OnlyDescribes
  distinct : (ids.map fun id => (session.structAt id).name).Nodup

/-- A struct that has been taken changes neither the others nor what is known of their names. -/
theorem Introducible.step (introducible : Introducible module (id :: ids) session) :
    ∃ after, (addStruct module id).run.run session = (.ok ⟨⟩, after) ∧
      Introducible module ids after ∧ Takes module id session after := by
  obtain ⟨held, structs, sealable, free, describes, distinct⟩ := introducible
  have heldStruct := structs id (by simp)
  have takenSealable : ((session.takeStruct module id).structAt id).Sealable := by
    rw [structAt_takeStruct heldStruct]
    exact sealable id (by simp)
  obtain ⟨struct, sealing⟩ := takenSealable.isOk id
    (session.target.wordType ((session.takeStruct module id).structAt id).loc)
  have isTaken := moduleAt_takeStruct held id
  have sameName : ((session.takeStruct module id).structAt id).name = (session.structAt id).name := by
    rw [structAt_takeStruct heldStruct]
  obtain ⟨after, done, describesAfter⟩ : ∃ after, (annotateStruct module
      ((session.takeStruct module id).structAt id) id).run.run
        ((session.takeStruct module id).setStruct id struct) = (.ok ⟨⟩, after) ∧
          (after.moduleAt module).OnlyDescribes := by
    refine annotateStruct_succeeds (Nat.lt_of_lt_of_eq held Array.size_modify.symm) ?_ ?_ ?_ id
    · exact isTaken ▸ describes.take _
    · show _ ∈ ((session.takeStruct module id).moduleAt module).structs.map Prod.fst
      simp [isTaken, sameName]
    · show ((session.takeStruct module id).moduleAt module).hasConstant _ = false
      rw [isTaken, sameName]
      exact describes.hasConstant_eq_false (free id (by simp))
  have annotates : Annotates module ((session.takeStruct module id).setStruct id struct) _ :=
    annotateStruct_annotates ((session.takeStruct module id).structAt id) id _ (.refl module _)
  rw [show _ = (Except.ok (), after) from done] at annotates
  have takes : Takes module id session after :=
    .of_annotates held heldStruct sealing annotates
  -- The names are distinct, so the structs that follow are other ones.
  have names : ∀ other ∈ ids, (session.structAt other).name ≠ (session.structAt id).name := by
    intro other member same
    exact (List.nodup_cons.mp distinct).1 (List.mem_map.mpr ⟨other, member, same⟩)
  have others : ∀ other ∈ ids, after.structAt other = session.structAt other :=
    fun other member => takes.others other fun same => names other member (by rw [same])
  refine ⟨after, ?_, ⟨?_, fun other member => ?_, fun other member => ?_, fun other member => ?_,
    describesAfter, ?_⟩, takes⟩
  · rw [addStruct_taken (free id (by simp)), describeStruct_sealed sealing]
    exact done
  · rw [takes.modules_size]
    exact held
  · rw [takes.structs_size]
    exact structs other (by simp [member])
  · rw [others other member]
    exact sealable other (by simp [member])
  · have isNone : (session.moduleAt module).structs.lookup (session.structAt other).name = none :=
      free other (by simp [member])
    have isOther : ((session.structAt other).name == (session.structAt id).name) = false :=
      beq_false_of_ne (names other member)
    rw [others other member, Module.struct?, takes.structs, List.lookup_append, isNone,
      Option.none_or, List.lookup_cons, isOther]
    rfl
  · have same : ids.map (fun other => (after.structAt other).name) =
        ids.map fun other => (session.structAt other).name :=
      List.map_congr_left fun other member => by rw [others other member]
    rw [same]
    exact (List.nodup_cons.mp distinct).2

structure TakesAll (module : ModuleId) (ids : List StructId) (before after : Session) : Prop where
  modules_size : after.modules.size = before.modules.size
  sealed : ∀ id ∈ ids,
    (after.structAt id).isSealed = true ∧ (after.structAt id).owner.isSome = true
  others : ∀ other, other ∉ ids → after.structAt other = before.structAt other
  module_name : (after.moduleAt module).name = (before.moduleAt module).name
  structs : (after.moduleAt module).structs =
    (before.moduleAt module).structs ++ ids.map fun id => ((before.structAt id).name, id)
  modules : ∀ other, other ≠ module → after.moduleAt other = before.moduleAt other

theorem Takes.name (takes : Takes module id session after) (other : StructId) :
    (after.structAt other).name = (session.structAt other).name := by
  by_cases same : other = id
  · rw [same]
    exact (Struct.sealWith_keeps takes.sealed).2.1
  · rw [takes.others other same]

theorem Takes.cons {middle : Session} (takes : Takes module id session middle)
    (rest : TakesAll module ids middle after) :
    TakesAll module (id :: ids) session after where
  modules_size := rest.modules_size.trans takes.modules_size
  sealed := fun other member => by
    by_cases later : other ∈ ids
    · exact rest.sealed other later
    · rcases List.mem_cons.mp member with rfl | isLater
      · obtain ⟨isSealed, _, owner⟩ := Struct.sealWith_keeps takes.sealed
        rw [rest.others other later]
        refine ⟨isSealed, ?_⟩
        rw [owner]
        cases (session.structAt other).owner <;> rfl
      · exact absurd isLater later
  others := fun other absent => by
    obtain ⟨different, later⟩ := not_or.mp (mt List.mem_cons.mpr absent)
    exact (rest.others other later).trans (takes.others other different)
  module_name := rest.module_name.trans takes.module_name
  structs := by
    rw [rest.structs, takes.structs]
    simp [takes.name]
  modules := fun other different =>
    (rest.modules other different).trans (takes.modules other different)

theorem Introducible.all (introducible : Introducible module ids session) :
    ∃ after, (ids.forM (addStruct module)).run.run session = (.ok ⟨⟩, after) ∧
      (after.moduleAt module).OnlyDescribes ∧ TakesAll module ids session after := by
  induction ids generalizing session with
  | nil =>
    exact ⟨session, rfl, introducible.describes, rfl, by simp, fun _ _ => rfl, rfl, by simp,
      fun _ _ => rfl⟩
  | cons id ids ih =>
    obtain ⟨middle, first, introducible, takes⟩ := introducible.step
    obtain ⟨after, rest, describes, takesRest⟩ := ih introducible
    refine ⟨after, ?_, describes, takes.cons takesRest⟩
    change (addStruct module id >>= fun _ => ids.forM (addStruct module)).run.run session = _
    rw [run_bind, first]
    exact rest

/-- A built-in kind that is not described yet can be described. -/
theorem describeKind_succeeds {kind : Kind} (held : module.index < session.modules.size)
    (free : (session.moduleAt module).hasGlobal (kind.spelling ++ "_type") = false) :
    ∃ after constant, (describeKind module kind).run.run session = (.ok ⟨⟩, after) ∧
      (after.moduleAt module).globalTable = (session.moduleAt module).globalTable ++
        [(kind.spelling ++ "_type", ⟨kind.spelling ++ "_type", Prelude.typeInfoType .builtin,
          .typeInfo constant kind.typeNumber, some module⟩)] := by
  have found := Module.globalTable_findString (session.moduleAt module) module kind.spelling .builtin
  rw [describeKind, run_get_bind, if_neg (by simp [free]), run_bind, run_lift, findString_run]
  refine ⟨_, ((session.moduleAt module).findString module kind.spelling .builtin).1,
    addGlobal_free ?_, ?_⟩
  · rw [Session.moduleAt_setModule, if_pos ⟨rfl, held⟩, Module.hasGlobal_of_globals found]
    exact free
  · rw [Session.moduleAt_setModule, if_pos ⟨rfl, by simpa [Session.setModule,
      Session.modifyModule] using held⟩, Session.moduleAt_setModule, if_pos ⟨rfl, held⟩,
      Module.pushGlobal, found]

/-- Kinds with different names can be described one after the other. -/
theorem describeKinds_succeeds {kinds : List Kind}
    (distinct : (kinds.map Kind.spelling).Nodup) (held : module.index < session.modules.size)
    (free : ∀ kind ∈ kinds,
      (session.moduleAt module).hasGlobal (kind.spelling ++ "_type") = false) :
    ∃ after added, (kinds.forM (describeKind module)).run.run session = (.ok ⟨⟩, after) ∧
      Annotates module session after ∧
      (after.moduleAt module).globalTable = (session.moduleAt module).globalTable ++ added ∧
      ∀ kind ∈ kinds, ∃ entry ∈ added,
        entry.2.Describes (kind.spelling ++ "_type") kind.typeNumber := by
  induction kinds generalizing session with
  | nil => exact ⟨session, [], rfl, .refl module session, by simp, by simp⟩
  | cons kind kinds ih =>
    obtain ⟨middle, constant, first, globals⟩ :=
      describeKind_succeeds held (free kind (by simp))
    have annotates := describeKind_annotates kind session (.refl module session)
    rw [show _ = (Except.ok (), middle) from first] at annotates
    have freeMiddle : ∀ other ∈ kinds,
        (middle.moduleAt module).hasGlobal (other.spelling ++ "_type") = false := by
      intro other member
      rw [Module.hasGlobal_eq_false, globals, List.map_append, List.mem_append, not_or]
      refine ⟨Module.hasGlobal_eq_false.mp (free other (by simp [member])), fun same => ?_⟩
      refine (List.nodup_cons.mp distinct).1 (List.mem_map.mpr ⟨other, member, ?_⟩)
      simpa using same
    obtain ⟨after, added, rest, annotatesRest, more, all⟩ :=
      ih (List.nodup_cons.mp distinct).2 (annotates.size ▸ held) freeMiddle
    rw [globals, List.append_assoc] at more
    refine ⟨after, _, ?_, annotates.trans annotatesRest, more, List.forall_mem_cons.mpr
      ⟨⟨_, List.mem_append_left _ (List.mem_singleton_self _), rfl, _, rfl⟩, fun other member => ?_⟩⟩
    · change (describeKind module kind >>= fun _ => kinds.forM (describeKind module)).run.run
        session = _
      rw [run_bind, first]
      exact rest
    · obtain ⟨found, isFound, finds⟩ := all other member
      exact ⟨found, by simp [isFound], finds⟩

/-- A module without definitions takes the runtime structs and describes the built-in kinds. -/
theorem installPrelude_succeeds (introducible : Introducible module Prelude.structIds session)
    (names : (session.moduleAt module).structs.map Prod.fst ++
      Prelude.structIds.map (fun id => (session.structAt id).name) =
        ["string_t", "type_t", "type_node_t"]) :
    ∃ after, (installPrelude module).run.run session = (.ok ⟨⟩, after) ∧
      TakesAll module Prelude.structIds session after ∧
      ∀ kind ∈ Prelude.describedKinds, ∃ global ∈ (after.moduleAt module).globals,
        global.Describes (kind.spelling ++ "_type") kind.typeNumber := by
  obtain ⟨middle, first, describes, takes⟩ := introducible.all
  have held : module.index < middle.modules.size := by
    rw [takes.modules_size]
    exact introducible.held
  have listed : (middle.moduleAt module).structs.map Prod.fst =
      ["string_t", "type_t", "type_node_t"] := by
    simpa [takes.structs, Function.comp_def] using names
  have free : ∀ kind ∈ Prelude.describedKinds,
      (middle.moduleAt module).hasGlobal (kind.spelling ++ "_type") = false := by
    refine fun kind described => Module.hasGlobal_eq_false.mpr fun member => ?_
    obtain ⟨text, isListed, named⟩ := describes.globals _ member
    rw [listed] at isListed
    have isText : kind.spelling = text := by simpa using named
    have apart : ∀ kind ∈ Prelude.describedKinds,
        kind.spelling ∉ ["string_t", "type_t", "type_node_t"] := by decide
    exact apart kind described (isText ▸ isListed)
  obtain ⟨after, added, rest, annotates, globals, all⟩ :=
    describeKinds_succeeds (by decide) held free
  refine ⟨after, ?_, ?_, fun kind described => ?_⟩
  · rw [installPrelude, run_bind, first]
    exact rest
  · exact ⟨annotates.size.trans takes.modules_size,
      fun id member => by rw [annotates.structAt]; exact takes.sealed id member,
      fun other absent => (annotates.structAt other).trans (takes.others other absent),
      annotates.own.name.trans takes.module_name, annotates.own.structs.trans takes.structs,
      fun other different =>
        (annotates.others other different).trans (takes.modules other different)⟩
  · obtain ⟨entry, member, describes⟩ := all kind described
    refine ⟨entry.2, List.mem_map_of_mem ?_, describes⟩
    rw [globals]
    exact List.mem_append_right _ member

end Edit

end Assay
