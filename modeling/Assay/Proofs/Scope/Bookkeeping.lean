import Assay.Proofs.Scope.Operations

/-!
Contract: the bookkeeping members of structs.
-/

namespace Assay

/-! ## Structs -/

namespace Struct

variable {struct before after : Struct} {own : StructId}

/-- Names of members are distinct. The bookkeeping members are the last ones of a sealed struct, the
second of them a reference to the struct itself; no other member has their names. -/
structure Arranged (struct : Struct) (own : StructId) : Prop where
  distinct : (struct.members.map Member.name).Nodup
  free : struct.isSealed = false → ∀ name ∈ bookkeeping, name ∉ struct.members.map Member.name
  marked : struct.isSealed = true → bookkeeping <:+ struct.members.map Member.name
  link : struct.isSealed = true → ∃ ty, struct.members.getLast? = some ⟨previousCopy, ty⟩ ∧
    ty.isRef = true ∧ ty.struct? = some own

theorem arranged_of_empty (empty : struct.members = []) (unsealed : struct.isSealed = false) :
    struct.Arranged own := by
  refine ⟨?_, ?_, ?_, ?_⟩
  · simp [empty]
  · simp [empty]
  · simp [unsealed]
  · simp [unsealed]

namespace Arranged

/-- Members and seal are all that matters. -/
theorem of_eq (arranged : before.Arranged own) (members : after.members = before.members)
    (isSealed : after.isSealed = before.isSealed) : after.Arranged own := by
  obtain ⟨distinct, free, marked, link⟩ := arranged
  rw [← members, ← isSealed] at free marked link
  exact ⟨members ▸ distinct, free, marked, link⟩

theorem sealable (arranged : struct.Arranged own) : struct.Sealable := by
  cases isSealed : struct.isSealed with
  | true => exact .inl isSealed
  | false =>
    have free := arranged.free isSealed
    exact .inr ⟨contains_eq_false.mpr (free _ (by simp [bookkeeping, referenceCount])),
      contains_eq_false.mpr (free _ (by simp [bookkeeping, previousCopy]))⟩

variable {name : String}

theorem addMember (arranged : before.Arranged own) {ty : Ty}
    (added : before.addMember name ty = .ok after) : after.Arranged own := by
  obtain ⟨unsealed, notCount, notCopy, isNew, isAfter⟩ := addMember_ok added
  have unreserved : name ∉ bookkeeping := by
    simpa [bookkeeping, referenceCount, previousCopy] using And.intro notCount notCopy
  have names : after.members.map Member.name = before.members.map Member.name ++ [name] := by
    simp [isAfter]
  have still : after.isSealed = false := by rw [isAfter, unsealed]
  refine ⟨?_, fun _ reserved isReserved => ?_, ?_, ?_⟩
  · rw [names, ← List.concat_eq_append]
    exact arranged.distinct.concat (contains_eq_false.mp isNew)
  · have other : reserved ≠ name := fun same => unreserved (same ▸ isReserved)
    simpa [names, other] using arranged.free unsealed reserved isReserved
  · simp [still]
  · simp [still]

variable (arranged : struct.Arranged own)
include arranged

/-- Sealing puts the bookkeeping members behind the others. -/
theorem sealed (word : Ty) : (struct.sealed own word).Arranged own := by
  rcases struct.sealed_cases own word with same | done
  · rw [same]
    exact arranged
  rcases sealWith_eq done with ⟨_, same⟩ | ⟨unsealed, isAfter⟩
  · rw [same]
    exact arranged
  have names : (struct.sealed own word).members.map Member.name =
      struct.members.map Member.name ++ bookkeeping := by
    simp [isAfter, bookkeeping, referenceCount, previousCopy]
  have isSealed : (struct.sealed own word).isSealed = true := by rw [isAfter]
  refine ⟨?_, ?_, fun _ => ?_, fun _ => ?_⟩
  · rw [names]
    refine List.nodup_append.mpr ⟨arranged.distinct, by decide, ?_⟩
    intro name member reserved isReserved same
    exact arranged.free unsealed reserved isReserved (same ▸ member)
  · simp [isSealed]
  · rw [names]
    exact List.suffix_append _ _
  · refine ⟨.refToStruct own struct.name struct.loc, ?_, rfl, rfl⟩
    simp [isAfter]

/-- Members that have been given types keep their places, and a reference to a struct is left as it
is. -/
theorem bind (session : Session) (scope : ScopeId) :
    Arranged { struct with
      members := (session.bindMemberTypes scope struct struct.members).1 } own := by
  have names := session.bindMemberTypes_names scope struct struct.members
  have length : (session.bindMemberTypes scope struct struct.members).1.length =
      struct.members.length := by simpa using congrArg List.length names
  refine ⟨?_, ?_, ?_, fun isSealed => ?_⟩
  · exact names ▸ arranged.distinct
  · exact names ▸ arranged.free
  · exact names ▸ arranged.marked
  · obtain ⟨ty, found, isRef, isOwn⟩ := arranged.link isSealed
    have definite : ty.isUnresolved = false := by
      unfold Ty.struct? at isOwn
      split at isOwn
      · next isStruct => simp [Ty.isUnresolved, isStruct]
      · cases isOwn
    refine ⟨ty, ?_, isRef, isOwn⟩
    rw [List.getLast?_eq_getElem?] at found ⊢
    rw [length]
    exact session.bindMemberTypes_definite scope struct found definite

/-- The place of a name is the place of the one member that has it. -/
theorem idxOf?_eq_some {slot : Nat} :
    struct.idxOf? name = some slot ↔ (struct.members[slot]?).map Member.name = some name := by
  have asNames : struct.idxOf? name =
      (struct.members.map Member.name).findIdx? fun other => other = name := by
    rw [List.findIdx?_map]
    rfl
  rw [asNames, ← List.getElem?_map, List.findIdx?_eq_some_iff_getElem]
  constructor
  · rintro ⟨bound, same, _⟩
    rw [List.getElem?_eq_getElem bound]
    exact congrArg some (of_decide_eq_true same)
  · intro found
    obtain ⟨bound, same⟩ := List.getElem?_eq_some_iff.mp found
    refine ⟨bound, decide_eq_true same, fun earlier before => ?_⟩
    have different := List.pairwise_iff_getElem.mp arranged.distinct earlier slot
      (Nat.lt_trans before bound) bound before
    simpa [same] using different

/-- A sealed struct is its declared members with the bookkeeping members behind them. -/
theorem split (isSealed : struct.isSealed = true) :
    ∃ declared count link, struct.members = declared ++ [count, link] ∧
      count.name = referenceCount ∧ link.name = previousCopy ∧ link.ty.isRef = true ∧
      link.ty.struct? = some own ∧
      ∀ member ∈ declared, member.name ≠ referenceCount ∧ member.name ≠ previousCopy := by
  obtain ⟨ty, isLast, isRef, isOwn⟩ := arranged.link isSealed
  obtain ⟨front, isFront⟩ := List.getLast?_eq_some_iff.mp isLast
  obtain ⟨names, isNames⟩ := arranged.marked isSealed
  -- The name before the last one is that of the reference count, so the front is not empty.
  have frontNames : front.map Member.name = names ++ [referenceCount] := by
    have both : (names ++ [referenceCount]) ++ [previousCopy] =
        front.map Member.name ++ [previousCopy] := by
      simpa [isFront, bookkeeping, referenceCount, previousCopy] using isNames
    exact (List.append_cancel_right both).symm
  obtain ⟨declared, counted, isSplit, isDeclared, isCounted⟩ := List.map_eq_append_iff.mp frontNames
  obtain ⟨count, isCount, isName⟩ := List.map_eq_singleton_iff.mp isCounted
  subst isCount isSplit
  refine ⟨declared, count, ⟨previousCopy, ty⟩, by simp [isFront], isName, rfl, isRef, isOwn,
    fun member isMember => ?_⟩
  have distinct := arranged.distinct
  rw [isFront, List.map_append, List.map_append, List.append_assoc] at distinct
  have apart := (List.nodup_append.mp distinct).2.2 member.name
    (List.mem_map.mpr ⟨member, isMember, rfl⟩)
  exact ⟨apart referenceCount (by simp [isName]), apart previousCopy (by simp)⟩

end Arranged

end Struct

/-! ## Sessions -/

namespace Session

variable {strict : Prop} {phase : Phase} {session before after : Session} {id : StructId}
  {struct : Struct}

theorem StructStep.arranged (step : StructStep session id phase struct)
    (arranged : (session.structAt id).Arranged id) : struct.Arranged id := by
  cases step with
  | kept => exact arranged
  | fresh unheld name loc packed block? => exact Struct.arranged_of_empty rfl rfl
  | addMember added => exact arranged.addMember added
  | @taken module held word =>
    have taken : ((session.structAt id).takenBy module).Arranged id := arranged.of_eq rfl rfl
    exact taken.sealed word
  | sealed word => exact arranged.sealed word
  | bindTypes scope => exact arranged.bind session scope
  | markBound owned => exact arranged.of_eq rfl rfl

theorem Changes.arranged (changes : Changes strict phase before after)
    (arranged : ∀ id, (before.structAt id).Arranged id) (id : StructId) :
    (after.structAt id).Arranged id := by
  induction changes generalizing id with
  | refl => exact arranged id
  | tail _ alters ih => exact (alters.structStep id).arranged (ih id)

theorem Changes.isSealed_binding (changes : Changes strict .binding before after) (id : StructId) :
    (after.structAt id).isSealed = (before.structAt id).isSealed := by
  induction changes with
  | refl => rfl
  | tail _ alters ih =>
    exact (alters.structStep id).binding_same.2.2.trans ih

/-- The runtime structs have members of different names, none of them reserved. -/
theorem arranged_ofTarget (target : Target) (id : StructId) :
    ((ofTarget target).structAt id).Arranged id := by
  refine forall_structAt_ofTarget (motive := fun struct => struct.Arranged id)
    (fun struct isPrelude => ?_) (Struct.arranged_of_empty rfl rfl) id
  have unsealed := (Prelude.mem_structs isPrelude).2.1
  have lists : (Prelude.structs target).map (fun struct => struct.members.map Member.name) =
      [["flags", "length", "data"],
        ["name", "type_id", "attr_count", "attrs", "msg_table_size", "msgs"],
        ["name", "type_info", "flags"]] := rfl
  have listed := List.mem_map_of_mem (f := fun struct => struct.members.map Member.name) isPrelude
  rw [lists] at listed
  have proper : ∀ names ∈ [["flags", "length", "data"],
      ["name", "type_id", "attr_count", "attrs", "msg_table_size", "msgs"],
      ["name", "type_info", "flags"]],
      names.Nodup ∧ ∀ name ∈ Struct.bookkeeping, name ∉ names := by decide
  obtain ⟨distinct, free⟩ := proper _ listed
  exact ⟨distinct, fun _ => free, by simp [unsealed], by simp [unsealed]⟩

theorem Reachable.arranged (reachable : session.Reachable) (id : StructId) :
    (session.structAt id).Arranged id := by
  obtain ⟨target, reaches⟩ := reachable
  exact (reaches.keeps (motive := fun session => ∀ id, (session.structAt id).Arranged id)
    (consistent_ofTarget target) (fun operation still allocated arranged =>
      Changes.arranged (operation.changes still allocated) arranged) (arranged_ofTarget target)).2 id

/-! ## Operations that seal nothing -/

def SameSeals (before after : Session) : Prop :=
  ∀ id, (after.structAt id).isSealed = (before.structAt id).isSealed

theorem SameSeals.refl (session : Session) : session.SameSeals session :=
  fun _ => rfl

theorem SameSeals.of_structs (structs : after.structs = before.structs) :
    before.SameSeals after := by
  intro id
  rw [structAt, structAt, structs]

theorem SameSeals.push (session : Session) (unsealed : struct.isSealed = false) :
    session.SameSeals { session with structs := session.structs.push struct } := by
  intro id
  change (((session.structs.push struct)[id.index]?).getD default).isSealed = _
  by_cases held : id.index < session.structs.size
  · rw [getD_push held]
    rfl
  · rw [structAt, Array.getElem?_eq_none (Nat.le_of_not_lt held), Array.getElem?_push]
    split
    · exact unsealed
    · rw [Array.getElem?_eq_none (Nat.le_of_not_lt held)]

theorem SameSeals.addMember {name : String} {ty : Ty} (same : before.SameSeals session)
    (added : (session.structAt id).addMember name ty = .ok struct) :
    before.SameSeals (session.setStruct id struct) := by
  intro other
  rw [structAt_setStruct]
  split
  · next isOther =>
    obtain ⟨_, _, _, _, rfl⟩ := Struct.addMember_ok added
    exact isOther.1 ▸ same id
  · exact same other

end Session

namespace Operation

open Session (SameSeals Changes Reachable ofTarget)

variable {session : Session} {operation : Operation} {id : StructId}

def registers : Operation → Bool
  | .addStruct _ _ | .addFunc _ _ | .installPrelude _ => true
  | _ => false

theorem sameSeals (consistent : session.Consistent) (allocated : operation.Allocated session)
    (other : operation.registers = false) : session.SameSeals (operation.run session) := by
  cases operation with
  | newModule name loc => exact .refl session
  | newStruct name loc packed => exact .push session rfl
  | newFunc name loc =>
    rw [run, Session.allocFunc_run]
    intro id
    exact (SameSeals.push { session with structs := session.structs.push _ } rfl id).trans
      (SameSeals.push session rfl id)
  | newBlock name? loc =>
    have isRun := congrArg Prod.snd
      (Session.allocBlock_run (name?.getD (Session.unnamedBlock loc)) loc session)
    intro id
    rw [show run session (.newBlock name? loc) = _ from isRun]
    exact SameSeals.push session rfl id
  | newObject name loc => exact .refl session
  | addMember struct name ty => exact Edit.addMember_keeps .addMember session (.refl session)
  | addInbound func name ty => exact Edit.addInbound_keeps .addMember func session (.refl session)
  | addOutbound func name ty => exact Edit.addOutbound_keeps .addMember func session (.refl session)
  | addLocal block name ty => exact Edit.addLocal_keeps .addMember block session (.refl session)
  | addImport module imported =>
    refine Stopping.Keeps.get_bind (fun state => ?_) session (.refl session)
    exact Edit.changeModule_keeps (fun same _ => same) state
  | addObject module object =>
    exact Edit.addObject_keeps (fun same _ => same) session (.refl session)
  | addConstant module constant =>
    exact .of_structs (Edit.addConstant_annotates constant session (.refl module session)).structs
  | addGlobal module global =>
    exact .of_structs (Edit.addGlobal_annotates global session (.refl module session)).structs
  | findString module text loc => exact .refl session
  | intern module text => exact .refl session
  | attachBlock func role block => exact .refl session
  | setInit block name expr =>
    refine Stopping.Keeps.get_bind (fun state same => ?_) session (.refl session)
    split <;> exact same
  | foldBlock block arena =>
    exact Session.foldBlock_keeps (motive := session.SameSeals) (fun _ same => same) (.refl session) arena
  | bindStruct struct | bindModule module log =>
    exact Session.Changes.isSealed_binding (Operation.changes consistent allocated)
  | addStruct module struct => cases other
  | addFunc module func => cases other
  | installPrelude module => cases other

end Operation

/-! ## Main result -/

namespace Session

/-- In every state that operations lead to, the bookkeeping members are the last two members of every
sealed struct and occur nowhere else, and each name has one place. So a struct can be sealed in each
state that a registration passes through, and nothing but a registration seals it. -/
theorem bookkeeping_members_last (reachable : session.Reachable) (id : StructId) :
    let struct := session.structAt id
    (struct.members.map Member.name).Nodup ∧
    (∀ name slot, struct.idxOf? name = some slot ↔
      (struct.members[slot]?).map Member.name = some name) ∧
    (struct.isSealed = false →
      (∀ member ∈ struct.members, member.name ≠ Struct.referenceCount ∧
        member.name ≠ Struct.previousCopy) ∧
      struct.declaredCount = struct.members.length) ∧
    (struct.isSealed = true →
      (∃ declared count link, struct.members = declared ++ [count, link] ∧
        count.name = Struct.referenceCount ∧ link.name = Struct.previousCopy ∧
        link.ty.isRef = true ∧ link.ty.struct? = some id ∧
        ∀ member ∈ declared, member.name ≠ Struct.referenceCount ∧
          member.name ≠ Struct.previousCopy) ∧
      2 ≤ struct.members.length ∧ struct.declaredCount = struct.members.length - 2) ∧
    (∀ later, Changes False .registration session later → ∀ word,
      ∃ after, (later.structAt id).sealWith id word = .ok after) ∧
    ∀ operation : Operation, operation.Allocated session → operation.registers = false →
      ((operation.run session).structAt id).isSealed = struct.isSealed := by
  intro struct
  have arranged : struct.Arranged id := reachable.arranged id
  refine ⟨arranged.distinct, fun _ _ => arranged.idxOf?_eq_some, fun unsealed => ⟨?_, ?_⟩,
    fun isSealed => ?_, fun later changes word => ?_, fun operation allocated other => ?_⟩
  · intro member isMember
    have unreserved : ∀ name ∈ Struct.bookkeeping, member.name ≠ name := fun name reserved same =>
      arranged.free unsealed name reserved (List.mem_map.mpr ⟨member, isMember, same⟩)
    exact ⟨unreserved _ (by simp [Struct.bookkeeping, Struct.referenceCount]),
      unreserved _ (by simp [Struct.bookkeeping, Struct.previousCopy])⟩
  · rw [Struct.declaredCount, unsealed]
    rfl
  · obtain ⟨declared, count, link, isSplit, rest⟩ := arranged.split isSealed
    have length : struct.members.length = declared.length + 2 := by simp [isSplit]
    refine ⟨⟨declared, count, link, isSplit, rest⟩, by omega, ?_⟩
    rw [Struct.declaredCount, if_pos isSealed]
  · exact (Changes.arranged changes reachable.arranged id).sealable.isOk id word
  · exact operation.sameSeals reachable.consistent allocated other id

/-- A struct that two modules have taken is sealed once. -/
theorem bookkeeping_members_last_shared :
    let session := Operation.runAll (ofTarget {}) [.newModule "m" .builtin, .newModule "n" .builtin,
      .newStruct "Box" .builtin false, .addMember ⟨3⟩ "v" (.ofKind .uint8 .builtin),
      .addStruct ⟨0⟩ ⟨3⟩, .addStruct ⟨1⟩ ⟨3⟩]
    (session.structAt ⟨3⟩).idxOf? "previous_copy" = some 2 ∧
      (session.structAt ⟨3⟩).declaredCount = (session.structAt ⟨3⟩).members.length - 2 := by
  intro session
  have facts : Operation.AllocatedAll (ofTarget {}) [.newModule "m" .builtin,
      .newModule "n" .builtin, .newStruct "Box" .builtin false,
      .addMember ⟨3⟩ "v" (.ofKind .uint8 .builtin), .addStruct ⟨0⟩ ⟨3⟩, .addStruct ⟨1⟩ ⟨3⟩] ∧
      (session.structAt ⟨3⟩).isSealed = true ∧
      ((session.structAt ⟨3⟩).members[2]?).map Member.name = some "previous_copy" := by
    decide +kernel
  have reachable : session.Reachable := ⟨{}, _, facts.1, rfl⟩
  obtain ⟨_, places, _, isSealed, _⟩ := bookkeeping_members_last reachable ⟨3⟩
  exact ⟨(places _ _).mpr facts.2.2, (isSealed facts.2.1).2.2⟩

end Session

end Assay
