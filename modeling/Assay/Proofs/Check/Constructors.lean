import Assay.Proofs.Check.Schedule
import Assay.Proofs.Check.Settings
import Assay.Proofs.Manifest.Construction

/-!
Contract: constants that are structs, against the members of the struct.
-/

namespace Assay

/-- There are no more literals than declared members, and each literal has a type that the member in
its place accepts. -/
def Struct.Takes (struct : Struct) (literals : List Literal) : Prop :=
  literals.length ≤ struct.declaredCount ∧
    ∀ (slot : Nat) (literal : Literal), literals[slot]? = some literal → ∃ member : Member,
      struct.members[slot]? = some member ∧
        member.ty.accepts (literal.naturalType .builtin) = true

theorem Struct.declaredCount_le (struct : Struct) :
    struct.declaredCount ≤ struct.members.length := by
  unfold declaredCount
  split <;> omega

/-! ## The runtime strings -/

/-- The first member of the runtime strings has a definite type, and holds no text. -/
def Session.StringsHoldNoText (session : Session) : Prop :=
  Prelude.string.index < session.structs.size ∧
    ∃ member : Member, (session.structAt Prelude.string).members[0]? = some member ∧
      member.ty.isUnresolved = false ∧ member.ty.isString = false

theorem Session.StringsHoldNoText.upholds {before after : Session} (upholds : before.Upholds after)
    (holds : before.StringsHoldNoText) : after.StringsHoldNoText := by
  obtain ⟨allocated, member, found, definite, notString⟩ := holds
  exact ⟨Nat.lt_of_lt_of_le allocated upholds.structs_size, member,
    (upholds.structs _ allocated).definite found definite, definite, notString⟩

theorem Ty.kind_ofName_integer {name : String} (named : Target.namesInteger name = true)
    (loc : Location) : (Ty.ofName name loc).kind ∈ Kind.integers := by
  rw [Target.namesInteger, Option.any_eq_true] at named
  obtain ⟨kind, known, isInteger⟩ := named
  have spelled : kind.spelling = name := by simpa using List.find?_some known
  have isKind : Ty.ofName name loc = Ty.ofKind kind loc := by
    rw [← spelled]
    rfl
  rw [isKind, Ty.ofKind_eq (List.mem_of_find?_eq_some known)]
  exact of_decide_eq_true isInteger

variable {target : Target} {manifest : Manifest} {file : String} {report : Report}
  {job : ConstantJob} {run : Run} {ints : List Int}

/-- The word and the characters of a valid target are integers. -/
theorem Target.integers_of_valid (valid : target.validate = .ok ()) (loc : Location) :
    (target.wordType loc).kind ∈ Kind.integers ∧
      (target.characterType loc).kind ∈ Kind.integers := by
  unfold validate at valid
  split at valid
  · cases valid
  next wordNamed =>
  split at valid
  · cases valid
  next characterNamed =>
  rw [Bool.not_eq_true', Bool.not_eq_false] at wordNamed characterNamed
  exact ⟨Ty.kind_ofName_integer wordNamed loc, Ty.kind_ofName_integer characterNamed loc⟩

theorem Session.stringsHoldNoText_ofTarget (valid : target.validate = .ok ()) :
    (ofTarget target).StringsHoldNoText := by
  have isInteger := (Target.integers_of_valid valid .builtin).1
  have definite : ∀ kind ∈ Kind.integers, kind ∈ Kind.plain ∧ kind ≠ .unresolved := by decide
  obtain ⟨plain, resolved⟩ := definite _ isInteger
  exact ⟨Nat.zero_lt_succ 2, ⟨"flags", target.wordType .builtin⟩, rfl, decide_eq_false resolved,
    Ty.isString_of_plain plain⟩

/-- The runtime strings hold no text where a constant of a checked manifest is folded. -/
theorem Run.Reaches.stringsHoldNoText (reaches : Run.Reaches manifest file job run)
    (checked : manifest.check file = .ok report) : run.session.StringsHoldNoText := by
  refine .upholds ((Run.bound_upholds manifest file).trans reaches.advances.changes.upholds)
    (Session.stringsHoldNoText_ofTarget (Manifest.check_eq_ok_iff.mp checked).1)

namespace Pass

variable {arena : Arena} {folded : ExprId} {env : Environment} {literals : List Literal}

/-! ## The type of a struct constant -/

section Declared

variable {session : Session} {scope : ScopeId} {spec : Manifest.Constant} {loc : Location}
variable {valueType ty : Ty}

variable (registered : session.Registered) (declares : Declares session scope spec loc valueType ty)
include registered declares

/-- Where the value is textual, the constant is a runtime string. -/
theorem Declares.kind_textual (textual : valueType.Textual) :
    (Module.constantType ty.asConst).kind = .struct Prelude.string := by
  have declaredTextual : ty.Textual := by
    rcases declares.cases registered with rfl | ⟨canonical, accepts⟩
    · exact textual
    · exact textual.of_accepts accepts canonical
  have constTextual : ty.asConst.Textual := declaredTextual
  exact constTextual.kind_constantType

theorem Declares.kind_plain (plain : valueType.kind ∈ Kind.plain) (id : StructId) :
    (Module.constantType ty.asConst).kind ≠ .struct id := by
  have declaredPlain : ty.kind ∈ Kind.plain := by
    rcases declares.cases registered with rfl | ⟨_, accepts⟩
    · exact plain
    · exact Ty.kind_mem_plain_of_accepts plain accepts
  have sameKind : ty.asConst.kind = ty.kind := rfl
  rw [Ty.kind_constantType, sameKind]
  generalize ty.kind = kind at declaredPlain
  have other : ∀ kind ∈ Kind.plain, kind ≠ .string := by decide
  rw [if_neg (other kind declaredPlain)]
  rintro rfl
  simp [Kind.plain, Kind.floats, Kind.integers] at declaredPlain

theorem Declares.kind_struct (canonical : valueType.Canonical) {id : StructId}
    (isStruct : valueType.kind = .struct id) :
    (Module.constantType ty.asConst).kind = .struct id := by
  have sameKind : ty.kind = .struct id → (Module.constantType ty.asConst).kind = .struct id := by
    intro isKind
    have constKind : ty.asConst.kind = .struct id := isKind
    rw [Ty.kind_constantType, constKind, if_neg (by simp)]
  rcases declares.cases registered with rfl | ⟨_, accepts⟩
  · exact sameKind isStruct
  · rcases Ty.accepts_cases accepts with ⟨_, isString⟩ | kind | widens
    · -- Both are strings: the struct can only be that of the runtime.
      have textual := canonical isString
      rw [declares.kind_textual registered textual]
      rcases textual with isKind | isKind
      · rw [isStruct] at isKind
        cases isKind
      · rw [← isStruct, isKind]
    · exact sameKind (kind.trans isStruct)
    · rw [isStruct] at widens
      cases widens

end Declared

theorem typeOf_name (acyclic : arena.Acyclic) {node : Node} {name : String}
    (found : arena.node? folded = some node) (isName : node.shape = .name name) :
    arena.typeOf folded = node.ty := by
  rw [Arena.typeOf, acyclic.fold_eq _ _ found, isName]
  unfold Arena.typeStep
  split <;> rfl

end Pass

namespace ConstantJob

variable {job : ConstantJob} {run judged solved : Run} {held : Constant} {root folded : ExprId}
  {arguments : List Manifest.Expr} {type : String} {id : StructId}
variable {valueType : Ty} {literals : List Literal}

/-! ## Arguments -/

/-- A plain argument has a type that admits its value. Other arguments may not: the type of a chain
is that of its first operand. -/
theorem Prepared.typeOf_admits (isReady : run.Ready) (prepared : Prepared job run root judged)
    {argument : Manifest.Expr} {element : ExprId} {literal : Literal}
    (represents : argument.Represents none judged.arena element)
    (within : judged.arena.Within element root)
    (plain : argument.IsPlain (run.session.literals job.scope))
    (denotes : argument.denote? (run.session.literals job.scope) = some (.ok literal)) :
    (judged.arena.typeOf element).Admits literal := by
  have judgedReady := prepared.ready isReady
  cases argument with
  | int _ | real _ | bool _ =>
    cases denotes
    exact Pass.typeOf_literal_admits judgedReady.acyclic judgedReady.typed represents
  | name spelling =>
    obtain ⟨node, value, isNode, known, sameType⟩ := prepared.checked.1 within represents
    obtain ⟨other, isOther, isName⟩ := Arena.shape?_eq_some_iff.mp represents
    rw [isNode] at isOther
    cases isOther
    obtain ⟨_, bound, isOk⟩ := Option.map_eq_some_iff.mp denotes
    cases isOk
    obtain ⟨ty, isValue⟩ := Session.literals_eq_some bound
    rw [known] at isValue
    cases isValue
    rw [Pass.typeOf_name judgedReady.acyclic isNode isName, sameType]
    exact isReady.sound.typedIn job.module known
  | _ => cases plain

/-! ## Installed aggregates -/

/-- The meaning of the declared expression is that of what folding left of it. -/
theorem Installed.meaning (isReady : run.Ready) {initializer : Initializer}
    (installed : Installed job run held root folded judged solved valueType initializer) :
    solved.arena.Allocated folded ∧
      solved.arena.eval (run.session.literals job.scope) folded =
        judged.arena.eval (run.session.literals job.scope) root := by
  have meaning := Pass.FoldsRoot.meaning (installed.prepared.ready isReady)
    installed.prepared.represents.allocated installed.folds
  rw [installed.prepared.frames.session] at meaning
  exact meaning

/-- A struct constant from a constructor belongs to the struct that was checked, and the literals
are the values of the arguments in order. -/
structure Filled (job : ConstantJob) (run judged : Run) (root : ExprId)
    (arguments : List Manifest.Expr) (literals : List Literal) (id : StructId) : Prop where
  length_eq : literals.length = arguments.length
  count : literals.length ≤ (run.session.structAt id).declaredCount
  argument : ∀ ⦃slot : Nat⦄ ⦃argument : Manifest.Expr⦄ ⦃literal : Literal⦄,
    arguments[slot]? = some argument → literals[slot]? = some literal →
      argument.denote? (run.session.literals job.scope) = some (.ok literal) ∧
      ∃ element, argument.Represents none judged.arena element ∧ judged.arena.Within element root ∧
        ∀ member : Member, (run.session.structAt id).members[slot]? = some member →
          member.ty.accepts (judged.arena.typeOf element) = true

section Aggregate

variable (isReady : run.Ready)
    (installed : Installed job run held root folded judged solved valueType (.aggregate literals))
include isReady installed

/-- A struct constant without a constructor is a runtime string that starts with a text. -/
theorem Installed.holds_text (noConstructor : job.spec.value.constructor? = none)
    (isStruct : held.ty.kind = .struct id) :
    id = Prelude.string ∧ ∃ literal, literals[0]? = some literal ∧ literal.kind = .string := by
  obtain ⟨allocated, meaning⟩ := installed.meaning isReady
  have judgedReady := installed.prepared.ready isReady
  have solvedReady := (installed.prepared.folded isReady installed.folds).2
  rcases Pass.initializer?_aggregate solvedReady.acyclic allocated installed.suitable with
    ⟨argument, isConstruct, _⟩ | ⟨_, first, literal, isHead, firstAllocated, isLiteral, isType⟩
  · rw [meaning] at isConstruct
    exact absurd isConstruct
      (installed.prepared.represents.eval_ne_construct judgedReady.acyclic noConstructor)
  · obtain ⟨ty, declares, heldType⟩ := installed.declares
    rw [heldType] at isStruct
    have admits := Pass.typeOf_literal_admits solvedReady.acyclic solvedReady.typed
      (Arena.shape?_of_literal? firstAllocated isLiteral)
    have sameKind : valueType.kind = (solved.arena.typeOf first).kind := by
      rw [isType]
      rfl
    by_cases isText : literal.kind = .string
    · have textual : valueType.Textual := by
        rw [Ty.Textual, sameKind]
        exact admits.textual isText
      rw [declares.kind_textual solvedReady.registered textual] at isStruct
      cases isStruct
      exact ⟨rfl, literal, by rw [← List.head?_eq_getElem?, isHead], isText⟩
    · have plain : valueType.kind ∈ Kind.plain := by
        rw [sameKind]
        exact admits.kind_mem_plain isText
      exact absurd isStruct (declares.kind_plain solvedReady.registered plain id)

variable (isConstructor : job.spec.value.constructor? = some (type, arguments))
include isConstructor

/-- An aggregate from a constructor has the constructed type, and its literals are the values of the
arguments. -/
theorem Installed.builds : ∃ child elements,
    Manifest.Expr.Builds judged.arena (run.session.literals job.scope) arguments root
      (.construct valueType (.list (literals.map .literal))) valueType child elements := by
  obtain ⟨allocated, meaning⟩ := installed.meaning isReady
  have judgedReady := installed.prepared.ready isReady
  have solvedReady := (installed.prepared.folded isReady installed.folds).2
  have represents := installed.prepared.represents
  rcases Pass.initializer?_aggregate solvedReady.acyclic allocated installed.suitable with
    ⟨argument, isConstruct, areLiterals⟩ | ⟨isList, _⟩
  · rw [meaning] at isConstruct
    obtain ⟨target, child, elements, builds⟩ :=
      represents.builds judgedReady.acyclic isConstructor isConstruct
    obtain ⟨values, same, _⟩ := builds.meaning
    cases same
    cases areLiterals values rfl
    exact ⟨child, elements, builds⟩
  · rw [meaning] at isList
    obtain ⟨target, child, elements, builds⟩ :=
      represents.builds judgedReady.acyclic isConstructor isList
    obtain ⟨values, same, _⟩ := builds.meaning
    cases same

/-- A constant from a constructor is of the struct against which the arguments were checked. -/
theorem Installed.constructs : ∃ child elements struct,
    Manifest.Expr.Builds judged.arena (run.session.literals job.scope) arguments root
        (.construct valueType (.list (literals.map .literal))) valueType child elements ∧
      Arena.Constructs judged.arena run.session valueType elements struct ∧
      held.ty.kind = .struct struct := by
  have judgedReady := installed.prepared.ready isReady
  have solvedReady := (installed.prepared.folded isReady installed.folds).2
  obtain ⟨child, elements, builds⟩ := installed.builds isReady isConstructor
  obtain ⟨inner, within, found⟩ := builds.node
  obtain ⟨node, isNode, isConstruct⟩ := Arena.shape?_eq_some_iff.mp found
  have passed := judgedReady.acyclic.checkNode_within installed.prepared.checked.2 within isNode
  rw [Arena.checkNode, isConstruct] at passed
  obtain ⟨struct, constructs⟩ := Arena.constructs_of_checkConstructor builds.list passed
  obtain ⟨ty, declares, heldType⟩ := installed.declares
  refine ⟨child, elements, struct, builds, constructs, ?_⟩
  rw [heldType]
  exact declares.kind_struct solvedReady.registered (judgedReady.typed.target found)
    constructs.kind

theorem Installed.filled (isStruct : held.ty.kind = .struct id) :
    Filled job run judged root arguments literals id := by
  have judgedReady := installed.prepared.ready isReady
  obtain ⟨child, elements, struct, builds, constructs, isKind⟩ :=
    installed.constructs isReady isConstructor
  rw [isStruct] at isKind
  cases isKind
  obtain ⟨inner, within, found⟩ := builds.node
  obtain ⟨values, sameValue, elementwise⟩ := builds.meaning
  cases sameValue
  have literalCount : elements.length = literals.length := by
    simpa using congrArg List.length elementwise
  have argumentCount := builds.represents.length_eq
  refine ⟨by omega, literalCount ▸ constructs.count, ?_⟩
  intro slot argument literal isArgument isLiteral
  obtain ⟨element, isElement, represents⟩ := builds.represents.at isArgument
  have meaning : judged.arena.eval (run.session.literals job.scope) element =
      .ok (.literal literal) := by
    have atSlot := congrArg (fun outcomes => outcomes[slot]?) elementwise
    simpa [List.getElem?_map, isElement, isLiteral] using atSlot
  have isElementOf : judged.arena.Operand element child :=
    Arena.operand_iff_shape?.mpr ⟨_, builds.list, List.mem_of_getElem? isElement⟩
  have isChildOf : judged.arena.Operand child inner :=
    Arena.operand_iff_shape?.mpr ⟨_, found, by simp [Shape.children]⟩
  exact ⟨represents.denote?_eq judgedReady.acyclic meaning, element, represents,
    (within.head isChildOf).head isElementOf, fun member isMember =>
      constructs.accepts isElement isMember⟩

end Aggregate

/-- Which arguments make literals that their members take. -/
theorem Filled.takes_iff (isReady : run.Ready) (prepared : Prepared job run root judged)
    (filled : Filled job run judged root arguments literals id) :
    (run.session.structAt id).Takes literals ↔
      ∀ (slot : Nat) (argument : Manifest.Expr), arguments[slot]? = some argument →
        argument.IsPlain (run.session.literals job.scope) ∨
        ∃ (literal : Literal) (member : Member),
          argument.denote? (run.session.literals job.scope) = some (.ok literal) ∧
          (run.session.structAt id).members[slot]? = some member ∧
          member.ty.accepts (literal.naturalType .builtin) = true := by
  have sameLength := filled.length_eq
  constructor
  · intro takes slot argument isArgument
    have bound := (List.getElem?_eq_some_iff.mp isArgument).1
    have isLiteral := List.getElem?_eq_getElem (show slot < literals.length by omega)
    obtain ⟨member, isMember, accepts⟩ := takes.2 slot _ isLiteral
    exact .inr ⟨_, member, (filled.argument isArgument isLiteral).1, isMember, accepts⟩
  · intro fits
    refine ⟨filled.count, fun slot literal isLiteral => ?_⟩
    have bound := (List.getElem?_eq_some_iff.mp isLiteral).1
    have isArgument := List.getElem?_eq_getElem (show slot < arguments.length by omega)
    obtain ⟨denotes, element, represents, within, accepted⟩ := filled.argument isArgument isLiteral
    rcases fits slot _ isArgument with plain | ⟨value, member, denotesValue, isMember, accepts⟩
    · have declared := filled.count
      have listed := (run.session.structAt id).declaredCount_le
      have isMember := List.getElem?_eq_getElem
        (show slot < (run.session.structAt id).members.length by omega)
      have admits := prepared.typeOf_admits isReady represents within plain denotes
      exact ⟨_, isMember,
        admits.accepts_of_accepts (plain.notText denotes) (accepted _ isMember) .builtin⟩
    · rw [denotes] at denotesValue
      cases denotesValue
      exact ⟨member, isMember, accepts⟩

/-- The constant that a step adds is held as some installation says. -/
theorem Adds.installed (allocated : job.module.index < run.session.modules.size)
    (adds : job.Adds run.session (job.after run).session held)
    (isAggregate : held.initializer = .aggregate literals) :
    ∃ root folded judged solved valueType,
      Installed job run held root folded judged solved valueType (.aggregate literals) := by
  rcases (job.after_folds run).adds allocated with unchanged |
    ⟨other, addsOther, root, folded, judged, solved, valueType, initializer, installed⟩
  · have constants := adds.constants
    rw [unchanged] at constants
    have lengths := congrArg List.length constants
    simp at lengths
  · have constants := addsOther.constants
    rw [adds.constants, List.append_cancel_left_eq] at constants
    cases constants
    have isInitializer : initializer = .aggregate literals := by
      rcases installed.initializer with same | ⟨_, index, _, isIndex⟩
      · rw [← same, isAggregate]
      · rw [isAggregate] at isIndex
        cases isIndex
    exact ⟨root, folded, judged, solved, valueType, isInitializer ▸ installed⟩

end ConstantJob

/-- For every manifest that is checked and every constant of a struct type with an aggregate that is
added for one of its declarations: the members of the struct take the literals of the constant just
where the declaration is a constructor, and each argument is plain or has a value that its member
takes. Arguments are checked before they are folded, so a computed one may outgrow its member. -/
theorem Run.members_take_literals_iff {manifest : Manifest} {file : String} {report : Report}
    (checked : manifest.check file = .ok report) {job : ConstantJob} {run : Run}
    (reaches : Run.Reaches manifest file job run) {held : Constant}
    (adds : job.Adds run.session (job.after run).session held) {id : StructId}
    (isStruct : held.ty.kind = .struct id) {literals : List Literal}
    (isAggregate : held.initializer = .aggregate literals) :
    ((Run.ofManifest manifest file).session.structAt id).Takes literals ↔
      ∃ type arguments, job.spec.value.constructor? = some (type, arguments) ∧
        ∀ (slot : Nat) (argument : Manifest.Expr), arguments[slot]? = some argument →
          argument.IsPlain (run.session.moduleAt job.module).literals ∨
          ∃ (literal : Literal) (member : Member),
            argument.denote? (run.session.moduleAt job.module).literals = some (.ok literal) ∧
            ((Run.ofManifest manifest file).session.structAt id).members[slot]? = some member ∧
            member.ty.accepts (literal.naturalType .builtin) = true := by
  have ready := reaches.advances.ready
  have sameStruct : ∀ id : StructId, (Run.ofManifest manifest file).session.structAt id =
      run.session.structAt id := by
    intro id
    rw [Session.structAt, reaches.structs]
    rfl
  rw [← Session.literals_module, sameStruct]
  obtain ⟨root, folded, judged, solved, valueType, installed⟩ :=
    adds.installed reaches.allocated isAggregate
  cases isConstructor : job.spec.value.constructor? with
  | none =>
      obtain ⟨rfl, literal, isFirst, isText⟩ := installed.holds_text ready isConstructor isStruct
      refine iff_of_false (fun takes => ?_) (by simp)
      obtain ⟨member, isMember, accepts⟩ := takes.2 0 literal isFirst
      obtain ⟨_, word, isWord, _, notString⟩ := reaches.stringsHoldNoText checked
      rw [isWord] at isMember
      cases isMember
      rw [Ty.isString_of_accepts_text isText accepts] at notString
      cases notString
  | some constructor =>
      obtain ⟨type, arguments⟩ := constructor
      rw [(installed.filled ready isConstructor isStruct).takes_iff ready installed.prepared]
      constructor
      · intro fits
        exact ⟨type, arguments, rfl, fits⟩
      · rintro ⟨_, _, same, fits⟩
        cases same
        exact fits

def Initializer.ints? : Initializer → Option (List Int)
  | .aggregate literals => literals.mapM Literal.int?
  | _ => Option.none

theorem Initializer.eq_aggregate {initializer : Initializer}
    (areInts : initializer.ints? = some ints) : initializer = .aggregate (ints.map .int) := by
  cases initializer with
  | aggregate literals =>
    have same : literals = ints.map .int := by
      replace areInts : literals.mapM Literal.int? = some ints := areInts
      induction literals generalizing ints with
      | nil =>
        cases areInts
        rfl
      | cons literal literals ih =>
        obtain ⟨first, rest, isFirst, areRest, rfl⟩ := Pass.mapM_cons_eq_some areInts
        rw [List.map_cons, ← ih areRest, Literal.eq_int isFirst]
    rw [same]
  | _ => cases areInts

section

variable (reaches : Run.Reaches manifest file job run)
  (more : ((job.after run).session.moduleAt job.module).constants.length ≠
    (run.session.moduleAt job.module).constants.length)
include reaches more

/-- A step after which a module has a constant more has added the last one. -/
theorem Run.Reaches.exists_last :
    ∃ held, job.Adds run.session (job.after run).session held ∧
      ((job.after run).session.moduleAt job.module).constants.getLast? = some held := by
  rcases (job.after_folds run).adds reaches.allocated with unchanged |
    ⟨held, adds, _⟩
  · rw [unchanged] at more
    exact absurd rfl more
  · refine ⟨held, adds, ?_⟩
    rw [adds.constants, List.getLast?_concat]

/-- As `Run.Reaches.exists_last`, with the kind and the integers of the constant read off. -/
theorem Run.Reaches.adds_last {id : StructId}
    (read : ((job.after run).session.moduleAt job.module).constants.getLast?.map
      (fun held => (held.ty.kind, held.initializer.ints?)) = some (.struct id, some ints)) :
    ∃ held, job.Adds run.session (job.after run).session held ∧ held.ty.kind = .struct id ∧
      held.initializer = .aggregate (ints.map .int) := by
  obtain ⟨held, adds, isLast⟩ := reaches.exists_last more
  rw [isLast] at read
  obtain ⟨isKind, areInts⟩ := Prod.mk.inj (Option.some.inj read)
  exact ⟨held, adds, isKind, Initializer.eq_aggregate areInts⟩

end

def boxes (constants : List Manifest.Constant) : Manifest :=
  { modules := [{
      name := "m"
      structs := [{ name := "Box", members := [{ name := "v", type := "uint8_t" }] }]
      constants := constants }] }

def plainBox : Manifest :=
  boxes [
    { name := "small", value := .int 200 },
    { name := "box", value := .construct "Box" [.name "small"] }]

theorem members_take_literals_plainBox :
    ∃ report job run held id, plainBox.check "b" = .ok report ∧
      Run.Reaches plainBox "b" job run ∧ job.Adds run.session (job.after run).session held ∧
      held.ty.kind = .struct id ∧ held.initializer = .aggregate [.int 200] ∧
      ((Run.ofManifest plainBox "b").session.structAt id).Takes [.int 200] := by
  let place (index : Nat) (spec : Manifest.Constant) : ConstantJob :=
    ⟨⟨0⟩, spec, .item "b" (Pass.constantPath "m" index spec)⟩
  let small := place 0 { name := "small", value := .int 200 }
  let job := place 1 { name := "box", value := .construct "Box" [.name "small"] }
  let run := small.after (Run.binding plainBox "b").2
  -- One evaluation of the run gives everything that is read off it.
  obtain ⟨passes, goesOn, more, read, bound⟩ : (plainBox.check "b").toOption.isSome = true ∧
      (Run.binding plainBox "b").1 = true ∧
      ((job.after run).session.moduleAt ⟨0⟩).constants.length ≠
        (run.session.moduleAt ⟨0⟩).constants.length ∧
      ((job.after run).session.moduleAt ⟨0⟩).constants.getLast?.map
        (fun held => (held.ty.kind, held.initializer.ints?)) = some (.struct ⟨3⟩, some [200]) ∧
      ((run.session.moduleAt ⟨0⟩).literals "small").bind Literal.int? = some 200 := by
    decide +kernel
  have reaches : Run.Reaches plainBox "b" job run := ⟨goesOn, [small], [], rfl, rfl⟩
  clear_value run
  obtain ⟨report, checked⟩ := exists_ok_of_isSome passes
  obtain ⟨held, adds, isStruct, isAggregate⟩ := reaches.adds_last more read
  obtain ⟨literal, isBound, isInt⟩ := Option.bind_eq_some_iff.mp bound
  refine ⟨report, job, run, held, ⟨3⟩, checked, reaches, adds, isStruct, isAggregate, ?_⟩
  apply (Run.members_take_literals_iff checked reaches adds isStruct isAggregate).mpr
  refine ⟨"Box", [.name "small"], rfl, fun slot argument isArgument => .inl ?_⟩
  have isName : argument = .name "small" := by
    simpa using List.mem_of_getElem? isArgument
  rw [isName]
  refine ⟨literal, isBound, ?_⟩
  rw [Literal.eq_int isInt]
  decide

def overflowingBox : Manifest :=
  boxes [{ name := "BIG", value := .construct "Box" [.chain (.int 200) [("+", .int 100)]] }]

theorem overflowingBox_not_taken :
    ∃ report job run held id, overflowingBox.check "b" = .ok report ∧
      Run.Reaches overflowingBox "b" job run ∧ job.Adds run.session (job.after run).session held ∧
      held.ty.kind = .struct id ∧ held.initializer = .aggregate [.int 300] ∧
      ¬ ((Run.ofManifest overflowingBox "b").session.structAt id).Takes [.int 300] := by
  let spec : Manifest.Constant :=
    { name := "BIG", value := .construct "Box" [.chain (.int 200) [("+", .int 100)]] }
  let job : ConstantJob := ⟨⟨0⟩, spec, .item "b" (Pass.constantPath "m" 0 spec)⟩
  let run := (Run.binding overflowingBox "b").2
  obtain ⟨passes, goesOn, more, read, tooWide⟩ :
      (overflowingBox.check "b").toOption.isSome = true ∧
      (Run.binding overflowingBox "b").1 = true ∧
      ((job.after run).session.moduleAt ⟨0⟩).constants.length ≠
        (run.session.moduleAt ⟨0⟩).constants.length ∧
      ((job.after run).session.moduleAt ⟨0⟩).constants.getLast?.map
        (fun held => (held.ty.kind, held.initializer.ints?)) = some (.struct ⟨3⟩, some [300]) ∧
      (((Run.ofManifest overflowingBox "b").session.structAt ⟨3⟩).members[0]?).map
        (fun member => member.ty.accepts ((Literal.int 300).naturalType .builtin)) =
          some false := by
    decide +kernel
  have reaches : Run.Reaches overflowingBox "b" job run := ⟨goesOn, [], [], rfl, rfl⟩
  clear_value run
  obtain ⟨report, checked⟩ := exists_ok_of_isSome passes
  obtain ⟨held, adds, isStruct, isAggregate⟩ := reaches.adds_last more read
  refine ⟨report, job, run, held, ⟨3⟩, checked, reaches, adds, isStruct, isAggregate, ?_⟩
  rintro ⟨_, takes⟩
  obtain ⟨member, isMember, accepts⟩ := takes 0 _ rfl
  rw [isMember] at tooWide
  have refused : member.ty.accepts ((Literal.int 300).naturalType .builtin) = false :=
    Option.some.inj tooWide
  rw [accepts] at refused
  cases refused

end Assay
