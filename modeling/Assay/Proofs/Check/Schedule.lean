import Assay.Proofs.Check.Sequence

/-!
Contract: the run over a manifest, constant by constant.
-/

namespace Assay

namespace Run

variable {manifest : Manifest} {file : String} {job : ConstantJob} {run : Run}

/-- The run over a manifest comes to fold `job` in the state `run`. -/
def Reaches (manifest : Manifest) (file : String) (job : ConstantJob) (run : Run) : Prop :=
  (binding manifest file).1 = true ∧ ∃ earlier later,
    constantJobs manifest file = earlier ++ job :: later ∧
      run = afterAll earlier (binding manifest file).2

theorem Reaches.advances (reaches : Reaches manifest file job run) :
    ConstantJob.Advances (bound manifest file) run := by
  obtain ⟨_, earlier, _, _, rfl⟩ := reaches
  rw [binding_eq]
  exact afterAll_advances (bound_taken manifest file).2.1.toReady earlier

/-- The module of a constant has been allocated when the run comes to it. -/
theorem Reaches.allocated (reaches : Reaches manifest file job run) :
    job.module.index < run.session.modules.size := by
  rw [reaches.advances.changes.modules_size]
  obtain ⟨_, earlier, later, jobs, _⟩ := reaches
  have member : .constant job ∈ manifest.foldings file :=
    List.mem_map_of_mem (by rw [jobs]; simp)
  exact Nat.lt_of_lt_of_le (manifest.within_foldings file _ member) (bound_taken manifest file).2.2

/-- Every constant of the last session is sound. -/
theorem ofManifest_sound (manifest : Manifest) (file : String) :
    (ofManifest manifest file).session.Sound := by
  rw [ofManifest_steps]
  exact ((steps_taken manifest file).orderly (orderly_start manifest file)).sound

/-- The structs of the last session are those that every constant was checked against. -/
theorem Reaches.structs (reaches : Reaches manifest file job run) :
    (ofManifest manifest file).session.structs = run.session.structs := by
  rw [reaches.advances.structs, ← (folded_advances manifest file).structs]
  exact ofManifest_keeps manifest file (fun session => session.structs = _) id rfl

end Run

/-! ## Integers -/

def Initializer.literals : Initializer → List Literal
  | .value literal => [literal]
  | .aggregate literals => literals
  | _ => []

theorem Constant.Sound.literal_inRange {constant : Constant} (sound : constant.Sound)
    {literal : Literal} (member : literal ∈ constant.initializer.literals) : literal.InRange := by
  cases isInitializer : constant.initializer with
  | value held =>
    rw [isInitializer] at member
    cases List.mem_singleton.mp member
    exact (sound.value isInitializer).inRange
  | aggregate held =>
    rw [isInitializer] at member
    exact sound.aggregate isInitializer literal member
  | _ =>
    rw [isInitializer] at member
    cases member

theorem Session.exists_moduleAt {session : Session} {module : Module}
    (member : module ∈ session.modules) : ∃ id, session.moduleAt id = module := by
  obtain ⟨index, bound, isModule⟩ := Array.mem_iff_getElem.mp member
  refine ⟨⟨index⟩, ?_⟩
  rw [moduleAt, Array.getElem?_eq_getElem bound, isModule]
  rfl

/-- At the end of every run each integer constant of an integer kind lies in the range of the kind,
and each integer that a constant holds lies between the least signed and the greatest unsigned
word. -/
theorem Run.integer_constants_fit (manifest : Manifest) (file : String) :
    ∀ module ∈ (Run.ofManifest manifest file).session.modules,
      ∀ constant ∈ module.constants,
        (∀ value, constant.initializer = .value (.int value) →
          constant.ty.kind.isInteger = true → constant.ty.kind.Holds value) ∧
        ∀ value, .int value ∈ constant.initializer.literals →
          -2 ^ 63 ≤ value ∧ value ≤ 2 ^ 64 - 1 := by
  intro module isModule constant member
  obtain ⟨id, rfl⟩ := Session.exists_moduleAt isModule
  have sound := (ofManifest_sound manifest file id).constants constant member
  refine ⟨fun value isValue isInteger => ?_, fun value held => ?_⟩
  · exact (sound.value isValue).holds isInteger
  · obtain ⟨least, greatest⟩ := sound.literal_inRange held
    exact ⟨least, greatest⟩

theorem Literal.eq_int {literal : Literal} {value : Int} (isInt : literal.int? = some value) :
    literal = .int value := by
  cases literal <;> cases isInt
  rfl

def widenedSum : Manifest :=
  { modules := [{
      name := "m"
      constants := [
        { name := "small", value := .int 200 },
        { name := "sum", type := some "sint32_t",
          value := .chain (.name "small") [("+", .int 100)] }] }] }

theorem integer_constants_fit_widenedSum :
    ∃ module ∈ (Run.ofManifest widenedSum "w").session.modules, ∃ constant ∈ module.constants,
      constant.initializer = .value (.int 300) ∧ constant.ty.kind = .sint32 ∧
        Kind.sint32.Holds 300 ∧ (-2 ^ 63 ≤ (300 : Int) ∧ (300 : Int) ≤ 2 ^ 64 - 1) := by
  have isModule : (Run.ofManifest widenedSum "w").session.moduleAt ⟨0⟩ ∈
      (Run.ofManifest widenedSum "w").session.modules := by
    have allocated : 0 < (Run.ofManifest widenedSum "w").session.modules.size := by decide +kernel
    rw [Session.moduleAt, Array.getElem?_eq_getElem allocated]
    exact Array.getElem_mem allocated
  have read : (((Run.ofManifest widenedSum "w").session.moduleAt ⟨0⟩).constant? "sum").map
      (fun constant => (constant.literal?.bind Literal.int?, constant.ty.kind)) =
        some (some 300, .sint32) := by decide +kernel
  obtain ⟨constant, found, isRead⟩ := Option.map_eq_some_iff.mp read
  obtain ⟨isInt, isKind⟩ := Prod.mk.inj isRead
  have isValue : constant.initializer = .value (.int 300) := by
    obtain ⟨literal, isLiteral, isInt⟩ := Option.bind_eq_some_iff.mp isInt
    unfold Constant.literal? Initializer.literal? at isLiteral
    split at isLiteral
    · next held isHeld =>
        cases isLiteral
        rw [isHeld, Literal.eq_int isInt]
    · cases isLiteral
  have member := Module.mem_of_constant? found
  have fits := Run.integer_constants_fit widenedSum "w" _ isModule constant member
  refine ⟨_, isModule, constant, member, isValue, isKind, ?_, ?_⟩
  · have holds := fits.1 300 isValue (by rw [isKind]; decide)
    rw [isKind] at holds
    exact holds
  · exact fits.2 300 (by rw [isValue]; exact List.mem_singleton.mpr rfl)

end Assay
