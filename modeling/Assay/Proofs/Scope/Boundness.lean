import Assay.Proofs.Scope.Bookkeeping
import Mathlib.Data.List.Induction

/-!
Contract: what it takes for a struct that is marked as bound to be bound.
-/

namespace Assay

/-! ## Structs -/

namespace Struct

variable {before after struct : Struct}

/-- Where no type was open and no member was added, members have not changed. -/
theorem Upholds.members_eq (upholds : before.Upholds after)
    (definite : ∀ member ∈ before.members, member.ty.isUnresolved = false)
    (length : after.members.length = before.members.length) : after.members = before.members := by
  refine List.ext_getElem? fun slot => ?_
  cases found : before.members[slot]? with
  | none =>
    rw [List.getElem?_eq_none_iff] at found ⊢
    omega
  | some member => exact upholds.definite found (definite member (List.mem_of_getElem? found))

/-- A struct that belongs to a module is sealed, and a bound struct belongs to something. -/
structure Fit (struct : Struct) (own : StructId) : Prop where
  arranged : struct.Arranged own
  owned : ∀ module, struct.owner = some (.module module) → struct.isSealed = true
  bound : struct.isBound = true → struct.owner ≠ none

theorem Sealable.isSealed_sealed (sealable : struct.Sealable) (own : StructId) (word : Ty) :
    (struct.sealed own word).isSealed = true := by
  obtain ⟨after, done⟩ := sealable.isOk own word
  rw [sealed, done]
  exact (sealWith_keeps done).1

theorem isBound_sealed (struct : Struct) (own : StructId) (word : Ty) :
    (struct.sealed own word).isBound = struct.isBound := by
  rcases struct.sealed_cases own word with same | done
  · rw [same]
  · rcases sealWith_eq done with ⟨_, same⟩ | ⟨_, same⟩
    · rw [same]
    · rw [same]

theorem sealed_fit {own : StructId} (arranged : struct.Arranged own)
    (bound : struct.isBound = true → struct.owner ≠ none) (word : Ty) :
    (struct.sealed own word).Fit own := by
  refine ⟨arranged.sealed word, fun _ _ => arranged.sealable.isSealed_sealed own word, ?_⟩
  rw [isBound_sealed, owner_sealed]
  exact bound

end Struct

theorem AttrRow.map_member {module : Module} {rows : List AttrRow} {members : List Member}
    (described : List.Forall₂ (AttrRow.Describes module) rows members) :
    rows.map AttrRow.member = members.map Member.name := by
  induction described with
  | nil => rfl
  | cons describes _ ih =>
    rw [List.map_cons, List.map_cons, describes.member, ih]

namespace Session

variable {strict : Prop} {phase : Phase} {session before after : Session} {id : StructId}
  {module : ModuleId} {rows : List AttrRow}

/-! ## Complete structs -/

def home? (session : Session) (id : StructId) : Option ModuleId :=
  (session.structAt id).owner.bind session.moduleOf?

/-- Every member has a definite type, and the module around the struct holds a table of all of
them. -/
def Complete (session : Session) (id : StructId) : Prop :=
  ∃ module rows, session.home? id = some module ∧ session.Tabulated id module rows

theorem Tabulated.mono (tabulated : before.Tabulated id module rows)
    (name : (after.structAt id).name = (before.structAt id).name)
    (members : (after.structAt id).members = (before.structAt id).members)
    (upholds : (before.moduleAt module).Upholds (after.moduleAt module)) :
    after.Tabulated id module rows := by
  obtain ⟨⟨global, found, isTable⟩, described, definite⟩ := tabulated
  refine ⟨⟨global, ?_, isTable⟩, ?_, ?_⟩
  · rw [name]
    exact upholds.global? found
  · rw [members]
    exact described.imp fun _ _ describes => { describes with name := upholds.holds describes.name }
  · rw [members]
    exact definite

theorem Tabulated.attrTable? (tabulated : session.Tabulated id module rows)
    (home : session.home? id = some module) : session.attrTable? id = some rows := by
  obtain ⟨global, found, isTable⟩ := tabulated.table
  obtain ⟨scope, owner, isModule⟩ := Option.bind_eq_some_iff.mp home
  simp [Session.attrTable?, owner, isModule, found, isTable]

/-- The attribute table of a complete struct has one row for each member. -/
theorem Complete.attrTable? (complete : session.Complete id) :
    (∀ member ∈ (session.structAt id).members, member.ty.isUnresolved = false) ∧
      ∃ rows, session.attrTable? id = some rows ∧
        rows.map AttrRow.member = (session.structAt id).members.map Member.name := by
  obtain ⟨module, rows, home, tabulated⟩ := complete
  exact ⟨tabulated.definite, rows, tabulated.attrTable? home,
    AttrRow.map_member tabulated.described⟩

theorem held_of_home (home : session.home? id = some module) : id.index < session.structs.size := by
  obtain ⟨scope, owner, _⟩ := Option.bind_eq_some_iff.mp home
  exact held_of_owner owner

theorem Consistent.home? (consistent : session.Consistent) (home : session.home? id = some module) :
    module.index < session.modules.size := by
  obtain ⟨scope, owner, isModule⟩ := Option.bind_eq_some_iff.mp home
  exact consistent.moduleOf? owner isModule

/-- A struct stays complete while it gets no more members and the module around it stays. -/
theorem Complete.mono (complete : before.Complete id) (consistent : before.Consistent)
    (upholds : before.Upholds after)
    (length : (after.structAt id).members.length = (before.structAt id).members.length)
    (home : after.home? id = before.home? id) : after.Complete id := by
  obtain ⟨module, rows, isHome, tabulated⟩ := complete
  have kept := upholds.structs id (held_of_home isHome)
  refine ⟨module, rows, home.trans isHome, tabulated.mono kept.name ?_ ?_⟩
  · exact kept.members_eq tabulated.definite length
  · exact upholds.modules module (consistent.home? isHome)

/-! ## Phases -/

/-- Registration marks no struct as bound. -/
theorem StructStep.isBound_eq {struct : Struct} (step : StructStep session id .registration struct) :
    struct.isBound = (session.structAt id).isBound := by
  cases step with
  | kept => rfl
  | fresh unheld =>
    rw [structAt, Array.getElem?_eq_none (Nat.le_of_not_lt unheld)]
    rfl
  | addMember added =>
    obtain ⟨_, _, _, _, rfl⟩ := Struct.addMember_ok added
    rfl
  | taken held word => exact Struct.isBound_sealed _ _ _
  | sealed word => exact Struct.isBound_sealed _ _ _

/-- Binding neither adds members nor moves definitions. -/
theorem Alters.sameOwners (alters : Alters strict .binding before after) :
    before.SameOwners after := by
  refine ⟨?_, ?_, fun id => (alters.structStep id).binding_same.1⟩
  · cases alters <;> rfl
  · cases alters <;> rfl

theorem SameOwners.home? (same : before.SameOwners after) (id : StructId) :
    after.home? id = before.home? id := by
  rw [Session.home?, Session.home?, same.owner id]
  exact congrArg _ (funext same.moduleOf?)

theorem Changes.isBound_eq (changes : Changes strict .registration before after) (id : StructId) :
    (after.structAt id).isBound = (before.structAt id).isBound := by
  induction changes with
  | refl => rfl
  | tail _ alters ih => exact (alters.structStep id).isBound_eq.trans ih

/-- A struct that binding marks as bound is complete, and the others stay so. -/
theorem Alters.complete (alters : Alters strict .binding before after)
    (consistent : before.Consistent)
    (complete : (before.structAt id).isBound = true → before.Complete id)
    (bound : (after.structAt id).isBound = true) : after.Complete id := by
  have upholds := alters.upholds
  have same := alters.sameOwners
  have length := (alters.structStep id).binding_same.2.1
  by_cases wasBound : (before.structAt id).isBound = true
  · exact (complete wasBound).mono consistent upholds length (same.home? id)
  cases alters with
  | module alters => exact absurd bound wasBound
  | bindTypes other scope =>
    rw [structAt_setStruct] at bound
    split at bound
    · next isOther => exact absurd (isOther.1 ▸ bound) wasBound
    · exact absurd bound wasBound
  | @markBound _ other scope module rows owner home tabulated =>
    by_cases isOther : other = id
    · subst isOther
      have isMarked : (before.setStruct other { before.structAt other with
          isBound := true }).structAt other = { before.structAt other with isBound := true } := by
        rw [structAt_setStruct, if_pos ⟨rfl, held_of_owner owner⟩]
      have isHome : before.home? other = some module := by
        rw [Session.home?, owner]
        exact home
      refine ⟨module, rows, (same.home? other).trans isHome, tabulated.mono ?_ ?_ (.refl _)⟩
      · rw [isMarked]
      · rw [isMarked]
    · rw [structAt_setStruct, if_neg fun both => isOther both.1] at bound
      exact absurd bound wasBound

theorem Changes.complete (changes : Changes strict .binding before after)
    (consistent : before.Consistent)
    (complete : (before.structAt id).isBound = true → before.Complete id)
    (bound : (after.structAt id).isBound = true) : after.Complete id := by
  induction changes with
  | refl => exact complete bound
  | tail changes alters ih =>
    exact alters.complete (Changes.consistent changes consistent) ih bound

/-! ## Structs of modules -/

/-- Every struct is fit, and complete if it is bound and belongs to a module. -/
structure Fitted (session : Session) : Prop where
  structs : ∀ id, (session.structAt id).Fit id
  complete : ∀ id module, (session.structAt id).owner = some (.module module) →
    (session.structAt id).isBound = true → session.Complete id

theorem fitted_ofTarget (target : Target) : (ofTarget target).Fitted := by
  refine ⟨fun id => ?_, fun id module owner => ?_⟩
  · obtain ⟨owner, _, unbound⟩ := structAt_ofTarget target id
    refine ⟨arranged_ofTarget target id, fun module taken => ?_, fun bound => ?_⟩
    · rw [owner] at taken
      cases taken
    · rw [unbound] at bound
      cases bound
  · rw [(structAt_ofTarget target id).1] at owner
    cases owner

theorem StructStep.fit {struct : Struct} (step : StructStep session id phase struct)
    (fit : (session.structAt id).Fit id) : struct.Fit id := by
  have arranged := step.arranged fit.arranged
  cases step with
  | kept => exact fit
  | fresh unheld name loc packed block? =>
    refine ⟨arranged, fun module owner => ?_, fun bound => by cases bound⟩
    cases block? <;> cases owner
  | addMember added =>
    obtain ⟨_, _, _, _, rfl⟩ := Struct.addMember_ok added
    exact ⟨arranged, fit.owned, fit.bound⟩
  | @taken module held word =>
    have taken : ((session.structAt id).takenBy module).Arranged id := fit.arranged.of_eq rfl rfl
    refine Struct.sealed_fit taken (fun _ => ?_) _
    cases owner : (session.structAt id).owner <;> simp [Struct.takenBy, owner]
  | sealed word => exact Struct.sealed_fit fit.arranged fit.bound _
  | bindTypes scope => exact ⟨arranged, fit.owned, fit.bound⟩
  | markBound owned => exact ⟨arranged, fit.owned, fun _ => owned⟩

/-- A struct that is bound and belongs to a module gets no more members and stays in that module, so
that it stays complete. -/
theorem Alters.fitted (alters : Alters strict phase before after) (consistent : before.Consistent)
    (fitted : before.Fitted) : after.Fitted := by
  refine ⟨fun id => (alters.structStep id).fit (fitted.structs id), fun id module owner bound => ?_⟩
  cases phase with
  | registration =>
    have wasBound : (before.structAt id).isBound = true :=
      (alters.structStep id).isBound_eq.symm.trans bound
    obtain ⟨scope, wasOwned⟩ :=
      Option.ne_none_iff_exists'.mp ((fitted.structs id).bound wasBound)
    have kept := alters.upholds.structs id (held_of_owner wasOwned)
    have isModule : scope = .module module :=
      Option.some.inj ((kept.owner wasOwned).symm.trans owner)
    subst isModule
    have wasSealed := (fitted.structs id).owned module wasOwned
    refine (fitted.complete id module wasOwned wasBound).mono consistent alters.upholds
      (kept.closed wasSealed) ?_
    rw [Session.home?, Session.home?, owner, wasOwned]
    rfl
  | binding =>
    have same := alters.sameOwners.owner id
    exact alters.complete consistent (fitted.complete id module (same.symm.trans owner)) bound

theorem Changes.fitted (changes : Changes strict phase before after) (consistent : before.Consistent)
    (fitted : before.Fitted) : after.Fitted := by
  induction changes with
  | refl => exact fitted
  | tail changes alters ih =>
    exact alters.fitted (Changes.consistent changes consistent) ih

theorem Reaches.fitted (reaches : before.Reaches after) (consistent : before.Consistent)
    (fitted : before.Fitted) : after.Fitted :=
  (reaches.keeps consistent (fun operation still allocated fitted =>
    (operation.changes still allocated).fitted still fitted) fitted).2

end Session

/-! ## Main results -/

namespace Operation

open Session (ofTarget)

variable {target : Target} {operations : List Operation} {id : StructId}

/-- The induction is on the operations from the last one backwards: either the struct was bound
before the last one, which leaves its members and its module alone, or the last one binds it. -/
theorem complete_of_undisturbed (allocated : AllocatedAll (ofTarget target) operations)
    (bound : ((runAll (ofTarget target) operations).structAt id).isBound = true)
    (undisturbed : ∀ earlier later, operations = earlier ++ later →
      ((runAll (ofTarget target) earlier).structAt id).isBound = true →
        ((runAll (ofTarget target) operations).structAt id).members.length =
          ((runAll (ofTarget target) earlier).structAt id).members.length ∧
        (runAll (ofTarget target) operations).home? id =
          (runAll (ofTarget target) earlier).home? id) :
    (runAll (ofTarget target) operations).Complete id := by
  induction operations using List.reverseRecOn with
  | nil =>
    have unbound := (Session.structAt_ofTarget target id).2.2
    exact absurd (unbound.symm.trans bound) Bool.false_ne_true
  | append_singleton earlier last ih =>
    obtain ⟨allocatedEarlier, allocatedLast, _⟩ := allocatedAll_append.mp allocated
    have consistent : (runAll (ofTarget target) earlier).Consistent :=
      Session.Reachable.consistent ⟨target, earlier, allocatedEarlier, rfl⟩
    have changes := last.changes consistent allocatedLast
    have isRun : runAll (ofTarget target) (earlier ++ [last]) =
        last.run (runAll (ofTarget target) earlier) := runAll_append _ _ _
    have completeBefore : ((runAll (ofTarget target) earlier).structAt id).isBound = true →
        (runAll (ofTarget target) earlier).Complete id := by
      intro wasBound
      obtain ⟨length, home⟩ := undisturbed earlier [last] rfl wasBound
      refine ih allocatedEarlier wasBound fun first rest isSplit boundFirst => ?_
      obtain ⟨lengthFirst, homeFirst⟩ := undisturbed first (rest ++ [last])
        (by rw [isSplit, List.append_assoc]) boundFirst
      exact ⟨length.symm.trans lengthFirst, home.symm.trans homeFirst⟩
    by_cases wasBound : ((runAll (ofTarget target) earlier).structAt id).isBound = true
    · obtain ⟨length, home⟩ := undisturbed earlier [last] rfl wasBound
      exact (completeBefore wasBound).mono consistent (isRun ▸ changes.upholds) length home
    · rw [isRun] at bound ⊢
      cases isPhase : last.phase with
      | registration =>
        rw [isPhase] at changes
        exact absurd ((Session.Changes.isBound_eq changes id).symm.trans bound) wasBound
      | binding =>
        rw [isPhase] at changes
        exact Session.Changes.complete changes consistent completeBefore bound

/-- A struct that is bound, and that belongs to a module or has got neither another member nor
another module around it since, has a definite type for each member and a table with one row for
each member, in their order. -/
theorem bound_structs_complete (allocated : AllocatedAll (ofTarget target) operations)
    (bound : ((runAll (ofTarget target) operations).structAt id).isBound = true)
    (steady : (∃ module, ((runAll (ofTarget target) operations).structAt id).owner =
        some (.module module)) ∨
      ∀ earlier later, operations = earlier ++ later →
        ((runAll (ofTarget target) earlier).structAt id).isBound = true →
          ((runAll (ofTarget target) operations).structAt id).members.length =
            ((runAll (ofTarget target) earlier).structAt id).members.length ∧
          (runAll (ofTarget target) operations).home? id =
            (runAll (ofTarget target) earlier).home? id) :
    let session := runAll (ofTarget target) operations
    (∀ member ∈ (session.structAt id).members, member.ty.isUnresolved = false) ∧
      ∃ rows, session.attrTable? id = some rows ∧
        rows.map AttrRow.member = (session.structAt id).members.map Member.name := by
  rcases steady with ⟨module, owner⟩ | undisturbed
  · have fitted : (runAll (ofTarget target) operations).Fitted :=
      Session.Reaches.fitted ⟨operations, allocated, rfl⟩ (Session.consistent_ofTarget target)
        (Session.fitted_ofTarget target)
    exact (fitted.complete id module owner bound).attrTable?
  · exact (complete_of_undisturbed allocated bound undisturbed).attrTable?

/-- A module takes a struct whose member names a struct of the runtime, and binds it. -/
theorem bound_structs_complete_taken :
    let operations : List Operation := [.newModule "m" .builtin, .installPrelude ⟨0⟩,
      .newStruct "Box" .builtin false, .addMember ⟨3⟩ "text" (.ofName "string_t" .builtin),
      .addStruct ⟨0⟩ ⟨3⟩, .bindModule ⟨0⟩]
    let session := runAll (ofTarget {}) operations
    ∃ rows, session.attrTable? ⟨3⟩ = some rows ∧
      rows.map AttrRow.member = (session.structAt ⟨3⟩).members.map Member.name := by
  intro operations session
  have facts : AllocatedAll (ofTarget {}) operations ∧ (session.structAt ⟨3⟩).isBound = true ∧
      (session.structAt ⟨3⟩).owner = some (.module ⟨0⟩) := by decide +kernel
  exact (bound_structs_complete facts.1 facts.2.1 (.inl ⟨⟨0⟩, facts.2.2⟩)).2

/-- A block takes a local after it has been bound: it stays marked as bound, with a member whose type
is still open and that is in no row of its table. -/
theorem bound_block_takes_local :
    let operations : List Operation := [.newModule "m" .builtin, .newFunc "f" .builtin,
      .addFunc ⟨0⟩ ⟨0⟩, .newBlock (some "body") .builtin, .attachBlock ⟨0⟩ .mainline ⟨0⟩,
      .bindStruct ⟨5⟩, .addLocal ⟨0⟩ "x" (.ofName "Foo" .builtin)]
    let session := runAll (ofTarget {}) operations
    AllocatedAll (ofTarget {}) operations ∧ (session.structAt ⟨5⟩).isBound = true ∧
      (session.structAt ⟨5⟩).members = [⟨"x", .ofName "Foo" .builtin⟩] ∧
      (Ty.ofName "Foo" .builtin).isUnresolved = true ∧ session.attrTable? ⟨5⟩ = some [] := by
  decide +kernel

end Operation

end Assay
