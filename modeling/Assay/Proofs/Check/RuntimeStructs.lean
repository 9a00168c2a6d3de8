import Assay.Proofs.Check.CleanSteps
import Assay.Proofs.Check.Constructors
import Assay.Proofs.Check.Handoff
import Assay.Proofs.Scope.Bindability

/-!
Contract: the runtime structs are bound with the first module.
-/

namespace Assay

/-! ## Definite members -/

namespace Struct

variable {before after struct : Struct}

def Definite (struct : Struct) : Prop :=
  ∀ member ∈ struct.members, member.ty.isUnresolved = false

theorem Definite.sealWith {own : StructId} {word : Ty} (definite : before.Definite)
    (isWord : word.isUnresolved = false) (done : before.sealWith own word = .ok after) :
    after.Definite := by
  rcases sealWith_eq done with ⟨_, rfl⟩ | ⟨_, rfl⟩
  · exact definite
  · refine List.forall_mem_append.mpr ⟨definite, ?_⟩
    exact List.forall_mem_cons.mpr ⟨isWord, List.forall_mem_singleton.mpr rfl⟩

/-- The members of a sealed struct stay as they are once they have definite types. -/
theorem Upholds.definite_members (upholds : before.Upholds after) (isSealed : before.isSealed = true)
    (definite : before.Definite) : after.Definite := by
  intro member isMember
  obtain ⟨slot, inAfter, rfl⟩ := List.getElem_of_mem isMember
  have inBefore : slot < before.members.length := upholds.closed isSealed ▸ inAfter
  have isDefinite := definite _ (List.getElem_mem inBefore)
  have same := upholds.definite (List.getElem?_eq_getElem inBefore) isDefinite
  rw [List.getElem?_eq_getElem inAfter] at same
  rw [Option.some.inj same]
  exact isDefinite

end Struct

namespace Session

variable {session before after : Session} {module : ModuleId}

/-- The members of the runtime structs have definite types, and so has the word that sealing adds. -/
structure Primed (session : Session) : Prop where
  word : ∀ loc, (session.target.wordType loc).isUnresolved = false
  members : ∀ id ∈ Prelude.structIds, (session.structAt id).Definite

theorem primed_ofTarget {target : Target} (valid : target.validate = .ok ()) :
    (ofTarget target).Primed := by
  have resolved : ∀ kind ∈ Kind.integers, kind ≠ .unresolved := by decide
  have word : ∀ loc, (target.wordType loc).isUnresolved = false := fun loc =>
    decide_eq_false (resolved _ (Target.integers_of_valid valid loc).1)
  have character : (target.characterType .builtin).isUnresolved = false :=
    decide_eq_false (resolved _ (Target.integers_of_valid valid .builtin).2)
  refine ⟨word, fun id member => ?_⟩
  simp only [Prelude.structIds, List.mem_cons, List.not_mem_nil, or_false] at member
  rcases member with rfl | rfl | rfl
  · show ∀ member ∈ [_, _, _], _
    simp only [List.forall_mem_cons]
    exact ⟨word _, word _, character, List.forall_mem_nil _⟩
  · show ∀ member ∈ [_, _, _, _, _, _], _
    simp only [List.forall_mem_cons]
    exact ⟨rfl, rfl, word _, rfl, word _, rfl, List.forall_mem_nil _⟩
  · show ∀ member ∈ [_, _, _], _
    simp only [List.forall_mem_cons]
    exact ⟨rfl, rfl, word _, List.forall_mem_nil _⟩

theorem Primed.annotates (primed : before.Primed) (annotates : before.Annotates module after) :
    after.Primed := by
  refine ⟨?_, fun id member => ?_⟩
  · rw [annotates.target]
    exact primed.word
  · rw [annotates.structAt]
    exact primed.members id member

theorem Primed.modifyStruct (primed : session.Primed) (id : StructId) {change : Struct → Struct}
    (step : (session.structAt id).Definite → (change (session.structAt id)).Definite) :
    (session.modifyStruct id change).Primed := by
  refine ⟨primed.word, fun other member => ?_⟩
  rw [structAt_modifyStruct]
  split
  · next same =>
    obtain ⟨rfl, _⟩ := same
    exact step (primed.members id member)
  · exact primed.members other member

end Session

namespace Edit

open Session (Primed)

variable {module : ModuleId}

theorem describeStruct_primed (id : StructId) : Stopping.Keeps Primed (describeStruct module id) :=
  describeStruct_keeps (fun primed sealing =>
    primed.modifyStruct id fun definite => definite.sealWith (primed.word _) sealing)
    fun struct session primed =>
      primed.annotates (annotateStruct_annotates struct id session (.refl module session))

theorem addStruct_primed (id : StructId) : Stopping.Keeps Primed (addStruct module id) := by
  refine addStruct_keeps (fun primed _ => ?_) (describeStruct_primed id)
  refine Primed.modifyStruct ?_ id fun definite => definite
  exact ⟨primed.word, primed.members⟩

theorem installPrelude_primed (module : ModuleId) :
    Stopping.Keeps Primed (installPrelude module) :=
  Stopping.Keeps.bind (.forM fun id _ => addStruct_primed id) fun _ => .forM fun kind _ =>
    fun session primed =>
      primed.annotates (describeKind_annotates kind session (.refl module session))

end Edit

/-! ## Globals before binding -/

namespace Session

variable {strict : Prop} {session before after : Session} {module : ModuleId} {id : StructId}

/-- Every global has the name of a description of a type. -/
def Described (session : Session) : Prop :=
  ∀ id, ∀ name ∈ (session.moduleAt id).globalTable.map Prod.fst, NamesType name

theorem described_ofTarget (target : Target) : (ofTarget target).Described :=
  fun _ => List.forall_mem_nil _

theorem Described.setModule (described : session.Described) {id : ModuleId} {module : Module}
    (globals : ∀ name ∈ module.globalTable.map Prod.fst,
      name ∈ (session.moduleAt id).globalTable.map Prod.fst ∨ NamesType name) :
    (session.setModule id module).Described := by
  intro other name member
  rw [moduleAt_setModule] at member
  split at member
  · exact (globals name member).elim (described id name) fun names => names
  · exact described other name member

/-- Strict alterations of registration keep it so. -/
theorem Alters.described (isStrict : strict) (alters : Alters strict .registration before after)
    (described : before.Described) : after.Described := by
  cases alters with
  | pushModule lenient name loc => exact absurd isStrict lenient
  | module alters names => exact described.setModule (names isStrict rfl)
  | takeStruct held free own => exact described.setModule fun _ => .inl
  | _ => exact described

theorem Changes.described (isStrict : strict) (changes : Changes strict .registration before after)
    (described : before.Described) : after.Described := by
  induction changes with
  | refl => exact described
  | tail _ alters ih => exact alters.described isStrict ih

/-- The name of a table is not that of a description. -/
theorem attrTableName_ne (struct text : String) : attrTableName struct ≠ text ++ "_type" := by
  intro same
  have letters := congrArg (fun name : String => name.toList.reverse[1]?) same
  simp [attrTableName, String.toList_append, List.reverse_append] at letters

theorem Described.no_table (described : session.Described) (module : ModuleId) (struct : String) :
    (session.moduleAt module).hasGlobal (attrTableName struct) = false := by
  refine Module.hasGlobal_eq_false.mpr fun member => ?_
  obtain ⟨text, isName⟩ := described module _ member
  exact attrTableName_ne struct text isName

/-! ## Binding -/

theorem Resolvable.binds (resolvable : session.Resolvable module id)
    (free : session.TableFree module id) :
    ((session.bindStruct id).session.structAt id).isBound = true ∧
      (session.bindStruct id).entries.any Entry.isInternal = false := by
  cases bound : (session.structAt id).isBound with
  | true =>
    unfold Session.bindStruct
    dsimp only
    rw [if_pos bound]
    exact ⟨bound, rfl⟩
  | false =>
    have ok := (resolvable.ok_iff bound).mpr free
    obtain ⟨_, owner, _⟩ := resolvable
    exact bindStruct_of_ok (held_of_owner owner) ok

/-- Structs of different names whose tables are not in the way are bound one after the other. -/
theorem bindStructs_resolvable (consistent : session.Consistent) {ids : List StructId}
    (rest : List StructId) (distinct : (ids.map fun id => (session.structAt id).name).Nodup)
    (ready : ∀ id ∈ ids, ∃ module, session.Resolvable module id ∧ session.TableFree module id)
    (log : Log) : ∀ id ∈ ids, ((bindStructs (log.counts .internal) (ids ++ rest) session
      log).session.structAt id).isBound = true := by
  induction ids generalizing session log with
  | nil => exact List.forall_mem_nil _
  | cons id ids ih =>
    obtain ⟨⟨module, resolvable, free⟩, others⟩ := List.forall_mem_cons.mp ready
    obtain ⟨isNew, restDistinct⟩ := List.nodup_cons.mp distinct
    obtain ⟨isBound, plain⟩ := resolvable.binds free
    have names : ∀ other ∈ ids, (session.structAt other).name ≠ (session.structAt id).name :=
      fun other member same => isNew (List.mem_map.mpr ⟨other, member, same⟩)
    have different : ∀ other ∈ ids, other ≠ id :=
      fun other member same => names other member (same ▸ rfl)
    have changes : Changes True .binding session (session.bindStruct id).session :=
      bindStruct_changes consistent id
    have consistentAfter := changes.consistent consistent
    have sameStruct : ∀ other ∈ ids,
        (session.bindStruct id).session.structAt other = session.structAt other :=
      fun other member => (session.bindStruct_confined id).others other (different other member)
    rw [List.cons_append, bindStructs_cons plain]
    refine List.forall_mem_cons.mpr ⟨?_, ih consistentAfter ?_ ?_ _⟩
    · let next := log.recordAll (session.bindStruct id).entries
      have later : Changes True .binding _ _ :=
        bindStructs_changes consistentAfter (next.counts .internal) (ids ++ rest) next
      obtain ⟨_, owner, _⟩ := resolvable
      have heldStruct := Nat.lt_of_lt_of_le (held_of_owner owner) changes.upholds.structs_size
      exact (later.upholds.structs id heldStruct).isBound isBound
    · rw [List.map_congr_left fun other member => congrArg Struct.name (sameStruct other member)]
      exact restDistinct
    · intro other member
      obtain ⟨home, isResolvable, isFree⟩ := others other member
      exact ⟨home, isResolvable.bindStruct (different other member),
        (tableFree_bindStruct (different other member) (names other member)).mpr isFree⟩

/-! ## Sessions with a first module -/

/-- Modules have taken the runtime structs, the first one before all others of its own. -/
structure Equipped (session : Session) : Prop where
  owned : ∀ id ∈ Prelude.structIds, ∃ module, (session.structAt id).owner = some (.module module)
  isSealed : ∀ id ∈ Prelude.structIds, (session.structAt id).isSealed = true
  definite : ∀ id ∈ Prelude.structIds, (session.structAt id).Definite
  distinct : (Prelude.structIds.map fun id => (session.structAt id).name).Nodup
  nonempty : 0 < session.modules.size
  listed : Prelude.structIds <+: (session.moduleAt ⟨0⟩).structs.map Prod.snd

theorem Equipped.upholds (equipped : before.Equipped) (upholds : before.Upholds after) :
    after.Equipped := by
  have structs : ∀ id ∈ Prelude.structIds, (before.structAt id).Upholds (after.structAt id) := by
    intro id member
    obtain ⟨_, owner⟩ := equipped.owned id member
    exact upholds.structs id (held_of_owner owner)
  refine ⟨fun id member => ?_, fun id member => ?_, fun id member => ?_, ?_, ?_, ?_⟩
  · exact (equipped.owned id member).imp fun _ owner => (structs id member).owner owner
  · exact (structs id member).isSealed (equipped.isSealed id member)
  · exact (structs id member).definite_members (equipped.isSealed id member)
      (equipped.definite id member)
  · rw [List.map_congr_left fun id member => (structs id member).name]
    exact equipped.distinct
  · exact Nat.lt_of_lt_of_le equipped.nonempty upholds.modules_size
  · exact equipped.listed.trans ((upholds.modules ⟨0⟩ equipped.nonempty).structs.map Prod.snd)

theorem equipped_declare {target : Target} (valid : target.validate = .ok ()) (name : String)
    (loc : Location) : ((ofTarget target).declare name loc).Equipped := by
  have supplied := supplied_ofTarget target
  obtain ⟨_, takes, _⟩ := supplied.installs name loc
  obtain ⟨_, suppliedAfter, stocked, size⟩ :=
    supplied.declare (fun _ _ => trivial) (fun _ _ => .inl trivial) name loc
  have primed : ((ofTarget target).declare name loc).Primed := by
    have started := primed_ofTarget valid
    exact Edit.installPrelude_primed _ _ ⟨started.word, started.members⟩
  refine ⟨fun id member => ?_, fun id member => (stocked id member).2, primed.members,
    by rw [suppliedAfter.names]; decide, ?_, ?_⟩
  · obtain ⟨scope, owner⟩ := Option.isSome_iff_exists.mp (stocked id member).1
    obtain ⟨module, rfl⟩ := suppliedAfter.free id member scope owner
    exact ⟨module, owner⟩
  · rw [size]
    exact Nat.succ_pos _
  · have isList : (((ofTarget target).declare name loc).moduleAt ⟨0⟩).structs =
        Prelude.structIds.map fun id => (((ofTarget target).structAt id).name, id) :=
      takes.structs
    rw [isList, List.map_map]
    exact List.prefix_rfl

theorem Equipped.stocked (equipped : session.Equipped) : session.Stocked := by
  intro id member
  obtain ⟨module, owner⟩ := equipped.owned id member
  exact ⟨Option.isSome_iff_exists.mpr ⟨_, owner⟩, equipped.isSealed id member⟩

/-- With nothing but descriptions in the way, binding the first module binds the runtime structs. -/
theorem Equipped.bindModule (equipped : session.Equipped) (consistent : session.Consistent)
    (described : session.Described) (log : Log) :
    ∀ id ∈ Prelude.structIds,
      ((session.bindModule ⟨0⟩ log).session.structAt id).isBound = true := by
  obtain ⟨others, isList⟩ := equipped.listed
  have ready : ∀ id ∈ Prelude.structIds, ∃ module, session.Resolvable module id ∧
      session.TableFree module id := by
    intro id member
    obtain ⟨module, owner⟩ := equipped.owned id member
    exact ⟨module, ⟨_, owner, rfl, fun slot isSlot =>
      resolves_of_definite (equipped.definite id member slot isSlot)⟩, described.no_table module _⟩
  rw [Session.bindModule, pendingStructs]
  dsimp only
  rw [← isList, List.append_assoc]
  exact bindStructs_resolvable consistent _ equipped.distinct ready log

end Session

/-! ## Runs -/

namespace Step

variable {may : Handle → Prop} {steps : List Step} {run : Run}

theorem described_opened (step : Step) (described : run.session.Described) :
    (step.opened run).Described := by
  cases step with
  | declare spec =>
    intro id
    rw [opened, Session.moduleAt_allocModule]
    split
    · exact List.forall_mem_nil _
    · exact described id
  | _ => exact described

theorem TakesAll.described (taken : TakesAll may steps run)
    (registers : ∀ step ∈ steps, step.phase = .registration) (described : run.session.Described) :
    (afterAll steps run).session.Described := by
  refine taken.keeps (fun later => later.session.Described) described
    fun step member later described takes => ?_
  have changes := takes.alters
  rw [registers step member] at changes
  exact changes.described trivial (described_opened step described)

end Step

/-- Everything up to binding is registration. -/
theorem Manifest.phase_of_registration (manifest : Manifest) :
    ∀ step ∈ manifest.modules.map .declare ++ manifest.registration,
      step.phase = .registration := by
  refine List.forall_mem_append.mpr ⟨List.forall_mem_map.mpr fun _ _ => rfl, ?_⟩
  refine List.forall_mem_append.mpr ⟨?_, ?_⟩
  · exact List.forall_mem_flatMap.mpr fun module _ => Step.forall_imports fun _ _ => rfl
  · exact List.forall_mem_flatMap.mpr fun module _ =>
      Step.forall_definitions (fun _ _ => rfl) (fun _ _ => rfl) fun _ _ => rfl

namespace Run

variable {manifest : Manifest}

theorem registered_eq (manifest : Manifest) (file : String) :
    registered manifest file =
        Step.afterAll (manifest.modules.map .declare ++ manifest.registration) (start manifest file) ∧
      Step.TakesAll free (manifest.modules.map .declare ++ manifest.registration)
        (start manifest file) := by
  rw [Step.afterAll_append, ← declared_eq]
  refine ⟨rfl, (declared_taken manifest file).1.append ?_⟩
  rw [← declared_eq]
  exact (registered_taken manifest file).1

theorem registered_described (manifest : Manifest) (file : String) :
    (registered manifest file).session.Described := by
  obtain ⟨isAfter, taken⟩ := registered_eq manifest file
  rw [isAfter]
  exact taken.described manifest.phase_of_registration (Session.described_ofTarget _)

variable (valid : manifest.settings.target.validate = .ok ()) (nonempty : manifest.modules ≠ [])
  (file : String)
include valid nonempty file

theorem declared_equipped : (declared manifest file).session.Equipped := by
  obtain ⟨first, others, isModules⟩ := List.exists_cons_of_ne_nil nonempty
  have isAfter := declared_eq manifest file
  have taken := (declared_taken manifest file).1
  rw [isModules, List.map_cons] at isAfter taken
  obtain ⟨takes, rest⟩ := taken
  have equipped : ((Step.declare first).after (start manifest file)).session.Equipped := by
    rw [Step.session_declare]
    exact Session.equipped_declare valid _ _
  rw [isAfter, Step.afterAll_cons]
  exact equipped.upholds rest.upholds

theorem registered_equipped : (registered manifest file).session.Equipped :=
  (declared_equipped valid nonempty file).upholds (registered_taken manifest file).1.upholds

/-- Once a manifest with a module has been bound, so have been the runtime structs. -/
theorem bound_runtime :
    ∀ id ∈ Prelude.structIds, ((bound manifest file).session.structAt id).isBound = true := by
  intro id member
  obtain ⟨first, others, isModules⟩ := List.exists_cons_of_ne_nil nonempty
  have equipped := registered_equipped valid nonempty file
  obtain ⟨module, owner⟩ := equipped.owned id member
  have isBound := equipped.bindModule (registered_taken manifest file).2.1.rounded.consistent
    (registered_described manifest file) (registered manifest file).log id member
  obtain ⟨later, isBindings⟩ : ∃ later, manifest.bindings = .bind ⟨0⟩ :: later := by
    rw [Manifest.bindings, Manifest.numbered, isModules]
    exact ⟨_, rfl⟩
  have taken := (bound_taken manifest file).1
  rw [isBindings] at taken
  obtain ⟨takes, rest⟩ := taken
  have held := Nat.lt_of_lt_of_le (Session.held_of_owner owner)
    (takes.session.persists.bounds 0).structs
  rw [bound, isBindings, Step.afterAll_cons]
  exact (rest.persists.structs id held).isBound isBound

end Run

end Assay
