import Assay.Proofs.Expr.Reporting
import Assay.Proofs.Expr.Tally
import Assay.Proofs.Scope.Bookkeeping

/-!
Contract: the check of an expression as a count of violations.
-/

namespace Assay

/-- The members that were declared have none of the reserved names. -/
theorem Struct.Arranged.declared_unreserved {struct : Struct} {own : StructId}
    (arranged : struct.Arranged own) {member : Member} (isDeclared : member ∈ struct.declared) :
    member.name ≠ referenceCount ∧ member.name ≠ previousCopy := by
  rw [declared, declaredCount] at isDeclared
  cases isSealed : struct.isSealed with
  | false =>
    have free := arranged.free isSealed
    have isName := List.mem_map_of_mem (f := Member.name) (List.mem_of_mem_take isDeclared)
    exact ⟨fun same => free referenceCount (by simp [bookkeeping, referenceCount]) (same ▸ isName),
      fun same => free previousCopy (by simp [bookkeeping, previousCopy]) (same ▸ isName)⟩
  | true =>
    obtain ⟨front, count, link, isSplit, _, _, _, _, unreserved⟩ := arranged.split isSealed
    exact unreserved member (by simpa [isSealed, isSplit] using isDeclared)

/-! ## Reports of several checks -/

namespace Verdict

theorem length_ensure (ok : Bool) (entry : Entry) :
    (ensure ok entry).entries.length = (!ok).toNat := by
  cases ok <;> rfl

theorem length_all_cons (first : Verdict) (verdicts : List Verdict) :
    (all (first :: verdicts)).entries.length =
      first.entries.length + (all verdicts).entries.length :=
  List.length_append

theorem length_all (verdicts : List Verdict) :
    (all verdicts).entries.length = (verdicts.map fun verdict => verdict.entries.length).sum := by
  induction verdicts with
  | nil => rfl
  | cons first verdicts ih => rw [length_all_cons, ih, List.map_cons, List.sum_cons]

end Verdict

namespace Arena

variable {arena : Arena} {session : Session} {id root : ExprId} {node : Node} {loc : Location}
variable {values members : List Ty}

/-! ## Violations -/

def mismatches (values members : List Ty) : Nat :=
  (values.zip members).countP fun pair => !pair.2.accepts pair.1

/-- A target that is no struct and too many values count once, and else every value that does not
fit its declared member. -/
def constructorViolations (arena : Arena) (session : Session) (target : Ty) (child : ExprId) :
    Nat :=
  let values := (arena.outputs child).map arena.typeOf
  match target.struct? with
  | none => 1
  | some id =>
      let struct := session.structAt id
      if struct.declaredCount < values.length then 1
      else mismatches values (struct.declared.map Member.ty)

def violationsAt (arena : Arena) (session : Session) (id : ExprId) : Nat :=
  match arena.shapeAt id with
  | .index source _ => (!(arena.typeOf source).isIndexable).toNat
  | .construct target child => arena.constructorViolations session target child
  | _ => 0

theorem length_declared (struct : Struct) : struct.declared.length = struct.declaredCount := by
  rw [Struct.declared, List.length_take, Struct.declaredCount]
  split <;> omega

theorem length_ensureEach (pairs : List (Ty × Ty)) (report : Nat → Ty × Ty → Entry) :
    (Verdict.all (pairs.mapIdx fun index pair =>
      .ensure (pair.2.accepts pair.1) (report index pair))).entries.length =
        pairs.countP fun pair => !pair.2.accepts pair.1 := by
  induction pairs generalizing report with
  | nil => rfl
  | cons pair pairs ih =>
    rw [List.mapIdx_cons, Verdict.length_all_cons, Verdict.length_ensure, List.countP_cons,
      ih fun index => report (index + 1), Nat.add_comm]
    cases pair.2.accepts pair.1 <;> rfl

/-- As many members as there are values are all that matters. -/
theorem length_checkArguments {count : Nat} (few : values.length ≤ count) :
    (checkArguments loc values members).entries.length = mismatches values (members.take count) := by
  have compared : values.zip (members.take count) = values.zip members := by
    have all : (values.zip members).take count = values.zip members :=
      List.take_of_length_le (by rw [List.length_zip]; omega)
    rw [List.zip, List.take_zipWith, List.take_of_length_le few] at all
    exact all
  rw [mismatches, compared]
  exact length_ensureEach _ fun index pair =>
    .error loc (.argumentTypeMismatch index pair.2.text pair.1.text)

theorem length_checkConstructor (target : Ty) (child : ExprId) :
    (arena.checkConstructor session loc target child).entries.length =
      arena.constructorViolations session target child := by
  rw [checkConstructor, constructorViolations]
  cases target.struct? with
  | none => rfl
  | some struct =>
    dsimp only
    split
    · rfl
    · next few =>
      rw [Struct.declared, List.map_take]
      exact length_checkArguments (Nat.le_of_not_lt few)

theorem length_checkNode (isNode : arena.node? id = some node) :
    (arena.checkNode session node).entries.length = arena.violationsAt session id := by
  rw [checkNode, violationsAt, shapeAt_of_node? isNode]
  cases node.shape with
  | index source _ => exact Verdict.length_ensure _ _
  | construct target child => exact length_checkConstructor target child
  | _ => rfl

theorem Acyclic.length_check (acyclic : arena.Acyclic) (allocated : arena.Allocated root) :
    (arena.check session root).entries.length = arena.tally (arena.violationsAt session) root := by
  refine acyclic.induction ?_ root allocated
  intro id node isNode operands
  rw [acyclic.check_eq isNode, acyclic.tally_eq (shape?_of_node? isNode),
    ← length_checkNode isNode, Nat.add_comm, ← List.map_congr_left operands]
  show ((Verdict.all _).entries ++ (arena.checkNode session node).entries).length = _
  rw [List.length_append, Verdict.length_all, List.map_map]
  rfl

/-- Each argument of a constructor has a declared member in its place, which is not bookkeeping and
accepts it. -/
def Supplies (arena : Arena) (session : Session) (target : Ty) (child : ExprId) : Prop :=
  ∃ struct, target.struct? = some struct ∧ ∀ ⦃slot : Nat⦄ ⦃output : ExprId⦄,
    (arena.outputs child)[slot]? = some output →
      ∃ member : Member, (session.structAt struct).declared[slot]? = some member ∧
        member.name ≠ Struct.referenceCount ∧ member.name ≠ Struct.previousCopy ∧
        member.ty.accepts (arena.typeOf output) = true

theorem supplies_of_constructorViolations (arranged : ∀ id, (session.structAt id).Arranged id)
    {target : Ty} {child : ExprId}
    (none : arena.constructorViolations session target child = 0) :
    arena.Supplies session target child := by
  rw [constructorViolations] at none
  cases isStruct : target.struct? with
  | none => simp [isStruct] at none
  | some struct =>
    rw [isStruct] at none
    dsimp only at none
    split at none
    · cases none
    next few =>
    refine ⟨struct, isStruct, fun slot output isOutput => ?_⟩
    have held : slot < (session.structAt struct).declared.length := by
      have isSlot := (List.getElem?_eq_some_iff.mp isOutput).choose
      rw [List.length_map] at few
      rw [length_declared]
      omega
    refine ⟨_, List.getElem?_eq_getElem held, ?_⟩
    obtain ⟨notCount, notLink⟩ := (arranged struct).declared_unreserved (List.getElem_mem held)
    refine ⟨notCount, notLink, ?_⟩
    have pair := List.countP_eq_zero.mp none
      (arena.typeOf output, (session.structAt struct).declared[slot].ty)
      (List.mem_of_getElem? (i := slot) (by simp [List.getElem?_zip_eq_some, isOutput, held]))
    simpa using pair

/-- The check of an expression says as many things as there are violations in it, all of them
errors, and passes if there are none. Then every argument of every constructor has been accepted by
the declared member in its place. -/
theorem check_counts_violations (reachable : session.Reachable) (acyclic : arena.Acyclic)
    (allocated : arena.Allocated root) :
    (arena.check session root).entries.length = arena.tally (arena.violationsAt session) root ∧
    (∀ entry ∈ (arena.check session root).entries, entry.IsError) ∧
    ((arena.check session root).ok = true ↔ arena.tally (arena.violationsAt session) root = 0) ∧
    ((arena.check session root).ok = true → ∀ ⦃inner target child⦄, arena.Within inner root →
      arena.shape? inner = some (.construct target child) →
        arena.Supplies session target child) := by
  have explained : (arena.check session root).Explained := check_explained root
  have counted := @Acyclic.length_check _ session _ acyclic allocated
  have passes : (arena.check session root).ok = true ↔
      arena.tally (arena.violationsAt session) root = 0 := by
    rw [explained.silent, ← List.length_eq_zero_iff, counted]
  refine ⟨counted, explained.errors, passes, fun ok inner target child within isConstruct => ?_⟩
  have clean : arena.violationsAt session inner = 0 := by
    have inside := @Acyclic.tally_within _ _ _ (arena.violationsAt session) acyclic within
    rw [passes.mp ok, acyclic.tally_eq isConstruct] at inside
    omega
  rw [violationsAt, shapeAt_of_shape? isConstruct] at clean
  exact supplies_of_constructorViolations reachable.arranged clean

/-- A box with one member too many, and twice the same index into a number. -/
theorem check_counts_violations_shared :
    let session := Operation.runAll (.ofTarget {}) [.newModule "m" .builtin,
      .newStruct "Box" .builtin false, .addMember ⟨3⟩ "v" (.ofKind .uint8 .builtin),
      .addStruct ⟨0⟩ ⟨3⟩]
    let literal (value : Int) : Node := ⟨default, .ofKind .uint8 default, .literal (.int value)⟩
    let arena : Arena := ⟨#[literal 1, literal 2, ⟨default, .null, .list [⟨0⟩, ⟨1⟩]⟩,
      ⟨default, .null, .construct (.ofStruct ⟨3⟩ "Box" default) ⟨2⟩⟩,
      ⟨default, .null, .index ⟨0⟩ ⟨1⟩⟩, ⟨default, .null, .list [⟨3⟩, ⟨4⟩, ⟨4⟩]⟩]⟩
    (arena.check session ⟨5⟩).entries.length = 3 := by
  intro session literal arena
  have allocated : Operation.AllocatedAll (.ofTarget {}) [.newModule "m" .builtin,
      .newStruct "Box" .builtin false, .addMember ⟨3⟩ "v" (.ofKind .uint8 .builtin),
      .addStruct ⟨0⟩ ⟨3⟩] := by
    decide +kernel
  have counted : arena.tally (arena.violationsAt session) ⟨5⟩ = 3 := by decide +kernel
  rw [← counted]
  exact (check_counts_violations ⟨{}, _, allocated, rfl⟩ (.of_ordered (by decide))
    (by decide)).1

end Arena

end Assay
