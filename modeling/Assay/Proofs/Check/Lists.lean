import Assay.Proofs.Check.Constructors

/-!
Contract: constants that are lists, against the type that they are held under.
-/

namespace Assay

/-! ## Types of lists -/

namespace Ty

variable {slot ty : Ty} {literal : Literal}

/-- The type counts as many elements as there are, and an element of it takes each of them. -/
def FitsList (ty : Ty) (literals : List Literal) : Prop :=
  ty.count = literals.length ∧
    ∀ literal ∈ literals, ty.element.accepts (literal.naturalType .builtin) = true

instance (ty : Ty) (literals : List Literal) : Decidable (ty.FitsList literals) :=
  inferInstanceAs (Decidable (_ ∧ _))

/-- A type whose kind is that of a literal, references apart, or one to which it widens. -/
def Reads (ty : Ty) (literal : Literal) : Prop :=
  ty.kind = literal.kind ∧ ty.isRef = false ∨ ty.kind ∈ literal.kind.promotions

/-- An element has no shape, so that only kinds and references count. -/
theorem element_accepts_iff (plain : ty.kind ∈ Kind.plain) (loc : Location) :
    ty.element.accepts (literal.naturalType loc) = true ↔ ty.Reads literal := by
  have plainElement : ty.element.kind ∈ Kind.plain := plain
  by_cases isText : literal.kind = .string
  · refine iff_of_false (fun accepts => ?_) ?_
    · have isString := isString_of_accepts_text isText accepts
      rw [isString_of_plain plainElement] at isString
      cases isString
    · have notString : ∀ kind ∈ Kind.plain, kind ≠ .string := by decide
      rw [Reads, isText]
      rintro (⟨isString, _⟩ | widens)
      · exact notString _ plain isString
      · cases widens
  · rw [accepts_naturalType isText]
    simp [Reads, element, isArray, isVector]

theorem Admits.reads (admits : ty.Admits literal) (notText : literal.kind ≠ .string) :
    ty.Reads literal := by
  rcases (accepts_naturalType notText _).mp (admits.accepts notText) with ⟨kind, isRef, _⟩ | widens
  · exact .inl ⟨kind, isRef⟩
  · exact .inr widens

/-- What a plain type reads is read by every slot that accepts the type. -/
theorem Reads.of_accepts (reads : ty.Reads literal) (plain : ty.kind ∈ Kind.plain)
    (accepts : slot.accepts ty = true) : slot.Reads literal := by
  rcases (accepts_iff_of_plain plain).mp accepts with ⟨kind, isRef, _⟩ | widens
  · rw [Reads, kind, isRef]
    exact reads
  · rcases reads with ⟨kind, _⟩ | widensFirst
    · exact .inr (kind ▸ widens)
    · exact .inr (Kind.promotions_trans _ (Kind.mem_widening widensFirst) _ widensFirst _ widens)

/-- Plain types are held as they are. -/
theorem constantType_of_plain (plain : ty.kind ∈ Kind.plain) : Module.constantType ty = ty := by
  rw [Module.constantType, isString_of_plain plain]
  rfl

end Ty

/-! ## The type of a list constant -/

namespace ConstantJob

variable {job : ConstantJob} {run judged solved : Run} {held : Constant} {root folded : ExprId}
variable {valueType : Ty} {literals : List Literal}

/-- An aggregate that is no struct: a list whose first literal gave it its type, held under that
type or the declared one. -/
structure Listed (job : ConstantJob) (run : Run) (held : Constant) (literals : List Literal)
    (first : Literal) (valueType ty : Ty) : Prop where
  head : literals.head? = some first
  count : valueType.count = literals.length
  declares : Pass.Declares run.session job.scope job.spec job.loc valueType ty
  holds : held.ty = ty.asConst
  plain : ty.kind ∈ Kind.plain
  reads : ty.Reads first

theorem Installed.listed (isReady : run.Ready)
    (installed : Installed job run held root folded judged solved valueType (.aggregate literals))
    (notStruct : held.ty.isStruct = false) :
    ∃ first ty, Listed job run held literals first valueType ty := by
  have ne_struct : ∀ id, held.ty.kind ≠ .struct id := by
    intro id isStruct
    rw [Ty.isStruct, Ty.struct?, isStruct] at notStruct
    cases notStruct
  obtain ⟨allocated, meaning⟩ := installed.meaning isReady
  obtain ⟨frames, solvedReady⟩ := installed.prepared.folded isReady installed.folds
  have judgedReady := installed.prepared.ready isReady
  obtain ⟨ty, declares, heldType⟩ := installed.declares
  rcases Pass.initializer?_aggregate solvedReady.acyclic allocated installed.suitable with
    ⟨argument, isConstruct, _⟩ | ⟨_, first, literal, isHead, firstAllocated, isLiteral, isType⟩
  · -- Constructors make structs.
    exfalso
    cases isConstructor : job.spec.value.constructor? with
    | none =>
      rw [meaning] at isConstruct
      exact installed.prepared.represents.eval_ne_construct judgedReady.acyclic isConstructor
        isConstruct
    | some constructor =>
      obtain ⟨_, _, struct, _, _, isStruct⟩ := installed.constructs isReady isConstructor
      exact ne_struct struct isStruct
  · have admits := Pass.typeOf_literal_admits solvedReady.acyclic solvedReady.typed
      (Arena.shape?_of_literal? firstAllocated isLiteral)
    have sameKind : valueType.kind = (solved.arena.typeOf first).kind := by
      rw [isType]
      rfl
    -- So do texts.
    have notText : literal.kind ≠ .string := by
      intro isText
      have textual : valueType.Textual := by
        rw [Ty.Textual, sameKind]
        exact admits.textual isText
      have isStruct := declares.kind_textual solvedReady.registered textual
      rw [← heldType] at isStruct
      exact ne_struct _ isStruct
    have plainValue : valueType.kind ∈ Kind.plain := by
      rw [sameKind]
      exact admits.kind_mem_plain notText
    have readsValue : valueType.Reads literal := by
      rw [isType]
      exact admits.reads notText
    obtain ⟨plain, reads⟩ : ty.kind ∈ Kind.plain ∧ ty.Reads literal := by
      rcases declares.cases solvedReady.registered with rfl | ⟨_, accepts⟩
      · exact ⟨plainValue, readsValue⟩
      · exact ⟨Ty.kind_mem_plain_of_accepts plainValue accepts,
          readsValue.of_accepts plainValue accepts⟩
    have plainConst : ty.asConst.kind ∈ Kind.plain := plain
    refine ⟨literal, ty, isHead, ?_, ?_, ?_, plain, reads⟩
    · rw [isType]
      rfl
    · rw [← frames.session]
      exact declares
    · rw [heldType, Ty.constantType_of_plain plainConst]

def DeclaresCount (job : ConstantJob) (session : Session) (count : Nat) : Prop :=
  ∀ name, job.spec.type = some name → ∃ declared,
    session.resolveType job.scope (.ofName name job.loc) (.error job.loc (.definitionNotFound name))
      = .ok declared ∧ declared.count = count

theorem Listed.count_iff {first : Literal} {ty : Ty}
    (listed : Listed job run held literals first valueType ty) :
    held.ty.count = literals.length ↔ job.DeclaresCount run.session literals.length := by
  have sameCount : held.ty.count = ty.count := by
    rw [listed.holds]
    rfl
  have declares := listed.declares
  unfold Pass.Declares at declares
  rw [sameCount]
  split at declares
  · next undeclared =>
    rw [declares]
    refine iff_of_true listed.count fun name isDeclared => ?_
    rw [undeclared] at isDeclared
    cases isDeclared
  · next name isDeclared =>
    constructor
    · intro isCount other isOther
      rw [isDeclared] at isOther
      cases isOther
      exact ⟨ty, declares.1, isCount⟩
    · intro counted
      obtain ⟨declared, resolved, isCount⟩ := counted name isDeclared
      rw [declares.1] at resolved
      cases resolved
      exact isCount

theorem Listed.fitsList_iff {first : Literal} {ty : Ty}
    (listed : Listed job run held literals first valueType ty) :
    held.ty.FitsList literals ↔ job.DeclaresCount run.session literals.length ∧
      ∀ literal ∈ literals.tail, held.ty.Reads literal := by
  have plain : held.ty.kind ∈ Kind.plain := by
    rw [listed.holds]
    exact listed.plain
  have reads : held.ty.Reads first := by
    rw [listed.holds]
    exact listed.reads
  obtain ⟨rest, rfl⟩ := List.head?_eq_some_iff.mp listed.head
  rw [Ty.FitsList, listed.count_iff]
  simp [Ty.element_accepts_iff plain, reads]

end ConstantJob

/-- For every manifest and every constant with an aggregate, and of a type that is no struct, that
is added for one of its declarations: its type fits the literals just where the declared type, if
there is one, counts as many elements as there are, and the kind of each literal after the first is
that of the type or widens to it. The first literal always passes, but the others are compared with
nothing, and a type to which the first one widens is taken whatever its shape; so under a built-in
type no list fits. -/
theorem Run.list_fits_iff {manifest : Manifest} {file : String} {job : ConstantJob} {run : Run}
    (reaches : Run.Reaches manifest file job run) {held : Constant}
    (adds : job.Adds run.session (job.after run).session held)
    (notStruct : held.ty.isStruct = false) {literals : List Literal}
    (isAggregate : held.initializer = .aggregate literals) :
    (held.ty.FitsList literals ↔ job.DeclaresCount run.session literals.length ∧
      ∀ literal ∈ literals.tail, held.ty.Reads literal) ∧
    ∀ name, job.spec.type = some name → (Ty.ofName name job.loc).isUnresolved = false →
      ¬ held.ty.FitsList literals := by
  have ready := reaches.advances.ready
  obtain ⟨root, folded, judged, solved, valueType, installed⟩ :=
    adds.installed reaches.allocated isAggregate
  obtain ⟨first, ty, listed⟩ := installed.listed ready notStruct
  refine ⟨listed.fitsList_iff, fun name isDeclared definite fits => ?_⟩
  obtain ⟨declared, resolved, isCount⟩ := (listed.fitsList_iff.mp fits).1 name isDeclared
  rw [Session.resolveType_definite _ _ definite] at resolved
  cases resolved
  obtain ⟨rest, rfl⟩ := List.head?_eq_some_iff.mp listed.head
  have scalar : (Ty.ofName name job.loc).count = 0 := rfl
  rw [scalar, List.length_cons] at isCount
  omega

def Manifest.ofConstants (constants : List Manifest.Constant) : Manifest :=
  { modules := [{ name := "m", constants := constants }] }

def widePair : Manifest :=
  .ofConstants [
    { name := "A", type := some "uint16_t", value := .int 5 },
    { name := "L", value := .list [.name "A", .int 300] }]

theorem list_fits_widePair :
    ∃ job run held, Run.Reaches widePair "w" job run ∧
      job.Adds run.session (job.after run).session held ∧ held.ty.isStruct = false ∧
      held.initializer = .aggregate [.int 5, .int 300] ∧
      held.ty.FitsList [.int 5, .int 300] := by
  let place (index : Nat) (spec : Manifest.Constant) : ConstantJob :=
    ⟨⟨0⟩, spec, .item "w" (Pass.constantPath "m" index spec)⟩
  let first := place 0 { name := "A", type := some "uint16_t", value := .int 5 }
  let job := place 1 { name := "L", value := .list [.name "A", .int 300] }
  let run := first.after (Run.binding widePair "w").2
  -- One evaluation of the run gives everything that is read off it.
  obtain ⟨goesOn, more, read⟩ : (Run.binding widePair "w").1 = true ∧
      ((job.after run).session.moduleAt ⟨0⟩).constants.length ≠
        (run.session.moduleAt ⟨0⟩).constants.length ∧
      ((job.after run).session.moduleAt ⟨0⟩).constants.getLast?.map
        (fun held => (held.ty.kind, held.ty.isRef, held.initializer.ints?)) =
          some (.uint16, false, some [5, 300]) := by
    decide +kernel
  have reaches : Run.Reaches widePair "w" job run := ⟨goesOn, [first], [], rfl, rfl⟩
  clear_value run
  obtain ⟨held, adds, isLast⟩ := reaches.exists_last more
  rw [isLast] at read
  simp only [Option.map_some, Option.some.injEq, Prod.mk.injEq] at read
  obtain ⟨isKind, isRef, areInts⟩ := read
  have notStruct : held.ty.isStruct = false := by
    rw [Ty.isStruct, Ty.struct?, isKind]
    rfl
  have isAggregate : held.initializer = .aggregate [.int 5, .int 300] :=
    Initializer.eq_aggregate areInts
  refine ⟨job, run, held, reaches, adds, notStruct, isAggregate, ?_⟩
  apply (Run.list_fits_iff reaches adds notStruct isAggregate).1.mpr
  refine ⟨fun name isDeclared => ?_, fun literal member => ?_⟩
  · cases isDeclared
  · rw [List.tail_cons, List.mem_singleton] at member
    rw [member]
    exact .inl ⟨isKind, isRef⟩

def widenedPair : Manifest :=
  .ofConstants [{ name := "L", type := some "uint16_t", value := .list [.int 1, .int 2] }]

theorem widenedPair_not_fits :
    ∃ report job run held, widenedPair.check "w" = .ok report ∧
      Run.Reaches widenedPair "w" job run ∧ job.Adds run.session (job.after run).session held ∧
      held.ty.isStruct = false ∧ held.initializer = .aggregate [.int 1, .int 2] ∧
      ¬ held.ty.FitsList [.int 1, .int 2] := by
  let spec : Manifest.Constant :=
    { name := "L", type := some "uint16_t", value := .list [.int 1, .int 2] }
  let job : ConstantJob := ⟨⟨0⟩, spec, .item "w" (Pass.constantPath "m" 0 spec)⟩
  let run := (Run.binding widenedPair "w").2
  obtain ⟨passes, goesOn, more, read⟩ : (widenedPair.check "w").toOption.isSome = true ∧
      (Run.binding widenedPair "w").1 = true ∧
      ((job.after run).session.moduleAt ⟨0⟩).constants.length ≠
        (run.session.moduleAt ⟨0⟩).constants.length ∧
      ((job.after run).session.moduleAt ⟨0⟩).constants.getLast?.map
        (fun held => (held.ty.isStruct, held.ty.count, held.initializer.ints?)) =
          some (false, 0, some [1, 2]) := by
    decide +kernel
  have reaches : Run.Reaches widenedPair "w" job run := ⟨goesOn, [], [], rfl, rfl⟩
  clear_value run
  obtain ⟨report, checked⟩ := exists_ok_of_isSome passes
  obtain ⟨held, adds, isLast⟩ := reaches.exists_last more
  rw [isLast] at read
  simp only [Option.map_some, Option.some.injEq, Prod.mk.injEq] at read
  obtain ⟨notStruct, isScalar, areInts⟩ := read
  refine ⟨report, job, run, held, checked, reaches, adds, notStruct,
    Initializer.eq_aggregate areInts, ?_⟩
  rintro ⟨isCount, _⟩
  rw [isScalar] at isCount
  cases isCount

end Assay
