import Assay.Proofs.Computation
import Assay.Proofs.Number.Words
import Assay.Scope.Module

/-!
Contract: the literals that fit a type.
-/

namespace Assay

/-! ## The range of literals -/

def Literal.InRange : Literal → Prop
  | .int value => Fold.leastInt ≤ value ∧ value ≤ Fold.greatestInt
  | _ => True

theorem Literal.kind_int_ne_string (value : Int) : (Literal.int value).kind ≠ .string := by
  simp only [kind, Kind.ofInt]
  split_ifs <;> decide

theorem Literal.inRange_word (value : Int64) : (Literal.int value.toInt).InRange := by
  have least := value.le_toInt
  have greatest := value.toInt_lt
  show Fold.leastInt ≤ value.toInt ∧ value.toInt ≤ Fold.greatestInt
  unfold Fold.leastInt Fold.greatestInt
  omega

namespace Fold

variable {op : BinOp} {result : Literal} {left right : Int} {fault : FoldFault}

theorem ints_inRange (computed : ints op left right = .ok result) : result.InRange := by
  obtain ⟨value, _, checked⟩ := bind_eq_ok.mp computed
  split at checked <;> cases checked
  next inRange => exact inRange

theorem reals_inRange {left right : Float} (computed : reals op left right fault = .ok result) :
    result.InRange := by
  unfold reals at computed
  split at computed
  case h_4 | h_5 =>
    split at computed
    · cases computed
    · cases computed
      trivial
  all_goals
    cases computed
    try trivial

/-- Every result is in range, whatever the operands are. -/
theorem binary_inRange {left right : Literal} (computed : binary op left right = .ok result) :
    result.InRange := by
  unfold binary at computed
  split at computed
  · exact ints_inRange computed
  · exact reals_inRange computed
  · exact reals_inRange computed
  · exact reals_inRange computed
  · unfold texts at computed
    split at computed <;> cases computed
    trivial
  · unfold bools at computed
    split at computed <;> cases computed <;> trivial
  · cases computed

theorem isWord_of_inRange {value : Int} (inRange : (Literal.int value).InRange) :
    IsWord value := by
  obtain ⟨least, greatest⟩ := inRange
  unfold leastInt at least
  unfold greatestInt at greatest
  rw [isWord_iff]
  omega

theorem intResult_ne_trap (leftInRange : (Literal.int left).InRange)
    (rightInRange : (Literal.int right).InRange) : intResult op left right ≠ .error .trap := by
  intro trapped
  rw [intResult_eq_trap_iff (isWord_of_inRange leftInRange) (isWord_of_inRange rightInRange),
    isTrap_iff] at trapped
  have least := leftInRange.1
  unfold leastInt at least
  omega

theorem reals_ne_trap {left right : Float} : reals op left right fault ≠ .error .trap := by
  intro trapped
  cases op with
  | div | mod => simp only [reals] at trapped; split at trapped <;> cases trapped
  | _ => cases trapped

/-- The one pair of words without a remainder lies far outside the range of literals. -/
theorem binary_ne_trap {left right : Literal} (leftInRange : left.InRange)
    (rightInRange : right.InRange) : binary op left right ≠ .error .trap := by
  intro trapped
  unfold binary at trapped
  split at trapped
  · next l r =>
    unfold ints at trapped
    cases isResult : intResult op l r with
    | error stop =>
      rw [isResult] at trapped
      cases trapped
      exact intResult_ne_trap leftInRange rightInRange isResult
    | ok value =>
      rw [isResult] at trapped
      change (if leastInt ≤ value ∧ value ≤ greatestInt then _ else _) = _ at trapped
      split at trapped <;> cases trapped
  · exact reals_ne_trap trapped
  · exact reals_ne_trap trapped
  · exact reals_ne_trap trapped
  · cases op <;> cases trapped
  · cases op <;> cases trapped
  · cases trapped

end Fold

/-! ## The ranges of the integer kinds -/

namespace Kind

def width (kind : Kind) : Nat :=
  8 * kind.size?.getD 0

def least (kind : Kind) : Int :=
  if kind.isSigned then -2 ^ (kind.width - 1) else 0

def greatest (kind : Kind) : Int :=
  if kind.isSigned then 2 ^ (kind.width - 1) - 1 else 2 ^ kind.width - 1

def Holds (kind : Kind) (value : Int) : Prop :=
  kind.least ≤ value ∧ value ≤ kind.greatest

variable {value : Int} {kind wider : Kind}

/-- The kind that an integer takes by itself holds it. -/
theorem ofInt_holds (inRange : (Literal.int value).InRange) : (ofInt value).Holds value := by
  obtain ⟨least, greatest⟩ := inRange
  unfold Fold.leastInt at least
  unfold Fold.greatestInt at greatest
  unfold ofInt Holds
  split_ifs <;> simp [Kind.least, Kind.greatest, isSigned, width, size?] <;> omega

def widening : List Kind :=
  .float32 :: integers

theorem mem_widening (widens : wider ∈ kind.promotions) : kind ∈ widening := by
  cases kind <;> first | decide | cases widens

theorem range_promotions : ∀ kind ∈ widening, ∀ wider ∈ kind.promotions,
    wider.isInteger = true → wider.least ≤ kind.least ∧ kind.greatest ≤ wider.greatest := by
  decide

theorem promotions_trans : ∀ kind ∈ widening, ∀ wider ∈ kind.promotions,
    ∀ widest ∈ wider.promotions, widest ∈ kind.promotions := by
  decide

def plain : List Kind :=
  .bool :: floats ++ integers

theorem promotions_plain : ∀ kind ∈ widening, ∀ wider ∈ kind.promotions, wider ∈ plain := by
  decide

/-- A wider integer kind holds what the narrower one does. -/
theorem Holds.promote (holds : kind.Holds value) (widens : wider ∈ kind.promotions)
    (isInteger : wider.isInteger = true) : wider.Holds value := by
  obtain ⟨leastLe, leGreatest⟩ :=
    range_promotions kind (mem_widening widens) wider widens isInteger
  exact ⟨Int.le_trans leastLe holds.1, Int.le_trans holds.2 leGreatest⟩

end Kind

/-! ## Types that accept a literal -/

namespace Ty

variable {slot ty : Ty} {literal : Literal}

theorem exists_kind_eq_struct (isStruct : ty.isStruct = true) : ∃ id, ty.kind = .struct id := by
  rw [Ty.isStruct, struct?] at isStruct
  split at isStruct
  · exact ⟨_, ‹_›⟩
  · cases isStruct

/-- The kinds that texts are held by: the built-in one and the runtime struct. -/
def Textual (ty : Ty) : Prop :=
  ty.kind = .string ∨ ty.kind = .struct Prelude.string

/-- A type that is a string by its name is one by its kind. -/
def Canonical (ty : Ty) : Prop :=
  ty.isString = true → ty.Textual

/-- Only the runtime struct has the name of strings. -/
theorem Canonical.of_named (named : ∀ id, ty.kind = .struct id → ty.name = Kind.string.spelling →
    id = Prelude.string) : ty.Canonical := by
  intro isString
  rw [Ty.isString, Bool.or_eq_true, Bool.and_eq_true] at isString
  rcases isString with isString | ⟨isStruct, isNamed⟩
  · exact .inl (of_decide_eq_true isString)
  · obtain ⟨id, isKind⟩ := exists_kind_eq_struct isStruct
    rw [named id isKind (of_decide_eq_true isNamed)] at isKind
    exact .inr isKind

/-- No spelling alone makes a struct. -/
theorem kind_ofName_ne_struct (name : String) (loc : Location) (id : StructId) :
    (ofName name loc).kind ≠ .struct id := by
  have builtin : ∀ bare, (Kind.ofSpelling? bare).getD .unresolved ≠ .struct id := by
    intro bare
    cases known : Kind.ofSpelling? bare with
    | none => simp
    | some kind =>
      have member := List.mem_of_find?_eq_some known
      rintro rfl
      simp [Kind.builtins] at member
  unfold ofName
  split
  exact builtin _

theorem canonical_ofName (name : String) (loc : Location) : (ofName name loc).Canonical :=
  .of_named fun id isStruct => absurd isStruct (kind_ofName_ne_struct name loc id)

/-- A literal that is in range and of a kind that the type accepts. For texts only the kind of the
type counts, because a type may take over the kind of a string but not its name. -/
structure Admits (ty : Ty) (literal : Literal) : Prop where
  inRange : literal.InRange
  accepts : literal.kind ≠ .string → ty.accepts (literal.naturalType .builtin) = true
  textual : literal.kind = .string → ty.Textual

/-- A built-in kind spells a plain type. -/
theorem ofKind_eq {kind : Kind} (member : kind ∈ Kind.builtins) (loc : Location) :
    ofKind kind loc = { kind := kind, name := kind.spelling, loc := loc } := by
  simp only [Kind.builtins, List.mem_cons, List.not_mem_nil, or_false] at member
  rcases member with rfl | rfl | rfl | rfl | rfl | rfl | rfl | rfl | rfl | rfl | rfl | rfl | rfl |
    rfl | rfl <;> rfl

theorem kind_mem_plain (notText : literal.kind ≠ .string) : literal.kind ∈ Kind.plain := by
  cases literal with
  | int value =>
    simp only [Literal.kind, Kind.ofInt]
    split_ifs <;> decide
  | text _ => exact absurd rfl notText
  | _ => simp [Literal.kind, Kind.plain, Kind.floats]

theorem isString_of_plain (plain : ty.kind ∈ Kind.plain) : ty.isString = false := by
  rw [isString, isStruct, struct?]
  generalize ty.kind = kind at plain
  simp only [Kind.plain, Kind.floats, Kind.integers, List.cons_append, List.nil_append,
    List.mem_cons, List.not_mem_nil, or_false] at plain
  rcases plain with rfl | rfl | rfl | rfl | rfl | rfl | rfl | rfl | rfl | rfl | rfl <;> rfl

/-- Both are references or neither is, and so with arrays and vectors. -/
def SameForm (slot value : Ty) : Prop :=
  slot.isRef = value.isRef ∧ slot.isArray = value.isArray ∧ slot.isVector = value.isVector

/-- A slot takes what is a string like itself, what has its kind and form, and what widens to its
kind. -/
theorem accepts_iff :
    slot.accepts ty = true ↔ slot.isString = true ∧ ty.isString = true ∨
      slot.kind = ty.kind ∧ slot.SameForm ty ∨ slot.kind ∈ ty.kind.promotions := by
  have form : ({ ty with isConst := slot.isConst } : Ty).isString = ty.isString ∧
      ({ ty with isConst := slot.isConst } : Ty).isArray = ty.isArray ∧
      ({ ty with isConst := slot.isConst } : Ty).isVector = ty.isVector := ⟨rfl, rfl, rfl⟩
  rw [accepts, same, form.1, form.2.1, form.2.2, promotesTo, SameForm]
  simp [and_assoc, or_assoc]

theorem accepts_iff_of_plain (plain : ty.kind ∈ Kind.plain) :
    slot.accepts ty = true ↔
      slot.kind = ty.kind ∧ slot.SameForm ty ∨ slot.kind ∈ ty.kind.promotions := by
  rw [accepts_iff, isString_of_plain plain]
  simp

theorem naturalType_eq (notText : literal.kind ≠ .string) (loc : Location) :
    literal.naturalType loc =
      { kind := literal.kind, name := literal.kind.spelling, isConst := true, loc := loc } := by
  have builtin : ∀ kind ∈ Kind.plain, kind ∈ Kind.builtins := by decide
  rw [Literal.naturalType, ofKind_eq (builtin _ (kind_mem_plain notText))]
  rfl

/-- Whether a slot takes a literal that is no text is a matter of its kind, and of its form if the kind
is that of the literal. -/
theorem accepts_naturalType (notText : literal.kind ≠ .string) (loc : Location) :
    ty.accepts (literal.naturalType loc) = true ↔
      (ty.kind = literal.kind ∧ ty.isRef = false ∧ ty.isArray = false ∧ ty.isVector = false) ∨
        ty.kind ∈ literal.kind.promotions := by
  have isPlain : (literal.naturalType loc).kind ∈ Kind.plain := by
    rw [naturalType_eq notText]
    exact kind_mem_plain notText
  rw [accepts_iff_of_plain isPlain, naturalType_eq notText]
  rfl

theorem admits_naturalType (inRange : literal.InRange) (loc : Location) :
    (literal.naturalType loc).Admits literal := by
  refine ⟨inRange, fun notText => (accepts_naturalType notText _).mpr (.inl ?_), fun isText => ?_⟩
  · rw [naturalType_eq notText]
    simp [isArray, isVector]
  · left
    rw [Literal.naturalType, isText]
    rfl

theorem Admits.kind_mem_plain (admits : ty.Admits literal) (notText : literal.kind ≠ .string) :
    ty.kind ∈ Kind.plain := by
  rcases (accepts_naturalType notText _).mp (admits.accepts notText) with ⟨same, _⟩ | widens
  · rw [same]
    exact Ty.kind_mem_plain notText
  · exact Kind.promotions_plain _ (Kind.mem_widening widens) _ widens

/-- The kinds for which a slot takes a value. -/
theorem accepts_cases (accepts : slot.accepts ty = true) :
    slot.isString = true ∧ ty.isString = true ∨ slot.kind = ty.kind ∨
      slot.kind ∈ ty.kind.promotions :=
  (accepts_iff.mp accepts).imp_right (Or.imp_left And.left)

/-- A slot that accepts a textual type is textual. -/
theorem Textual.of_accepts (textual : ty.Textual) (accepts : slot.accepts ty = true)
    (canonical : slot.Canonical) : slot.Textual := by
  rcases accepts_cases accepts with ⟨isString, _⟩ | sameKind | widens
  · exact canonical isString
  · rw [Textual, sameKind]
    exact textual
  · rcases textual with isString | isStruct
    · rw [isString] at widens
      cases widens
    · rw [isStruct] at widens
      cases widens

theorem kind_mem_plain_of_accepts (plain : ty.kind ∈ Kind.plain)
    (accepts : slot.accepts ty = true) : slot.kind ∈ Kind.plain := by
  rcases accepts_cases accepts with ⟨_, isString⟩ | sameKind | widens
  · rw [isString_of_plain plain] at isString
    cases isString
  · rw [sameKind]
    exact plain
  · exact Kind.promotions_plain _ (Kind.mem_widening widens) _ widens

/-- Only strings take texts. -/
theorem isString_of_accepts_text (isText : literal.kind = .string) {loc : Location}
    (accepts : slot.accepts (literal.naturalType loc) = true) : slot.isString = true := by
  have isKind : (literal.naturalType loc).kind = .string := by
    rw [Literal.naturalType, isText]
    rfl
  rcases accepts_cases accepts with ⟨isString, _⟩ | sameKind | widens
  · exact isString
  · rw [Ty.isString, sameKind, isKind]
    rfl
  · rw [isKind] at widens
    cases widens

/-- What is no text and admitted by a type is accepted by every slot that accepts the type. -/
theorem Admits.accepts_of_accepts (admits : ty.Admits literal) (notText : literal.kind ≠ .string)
    (accepts : slot.accepts ty = true) (loc : Location) :
    slot.accepts (literal.naturalType loc) = true := by
  have inner := (accepts_naturalType notText _).mp (admits.accepts notText)
  rw [accepts_naturalType notText]
  rcases (accepts_iff_of_plain (admits.kind_mem_plain notText)).mp accepts with
    ⟨kind, isRef, isArray, isVector⟩ | widens
  · rw [kind, isRef, isArray, isVector]
    exact inner
  · rcases inner with ⟨kind, _⟩ | widensFirst
    · exact .inr (kind ▸ widens)
    · exact .inr (Kind.promotions_trans _ (Kind.mem_widening widensFirst) _ widensFirst _ widens)

/-- What an accepted type admits is admitted. -/
theorem Admits.of_accepts (admits : ty.Admits literal) (accepts : slot.accepts ty = true)
    (canonical : slot.Canonical) : slot.Admits literal :=
  ⟨admits.inRange, fun notText => admits.accepts_of_accepts notText accepts .builtin,
    fun isText => (admits.textual isText).of_accepts accepts canonical⟩

theorem isVector_asConst (notArray : ty.isArray = false) (notVector : ty.isVector = false) :
    ty.asConst.isVector = false := by
  show (decide (0 < ty.count) && true) = false
  unfold isArray at notArray
  unfold isVector at notVector
  by_cases positive : 0 < ty.count
  · have nonzero : ty.count ≠ 0 := by omega
    simp_all
  · simp [positive]

theorem Admits.asConst (admits : ty.Admits literal) : ty.asConst.Admits literal := by
  refine ⟨admits.inRange, fun notText => ?_, admits.textual⟩
  have inner := (accepts_naturalType notText _).mp (admits.accepts notText)
  rw [accepts_naturalType notText]
  rcases inner with ⟨kind, isRef, isArray, isVector⟩ | widens
  · refine .inl ⟨kind, isRef, ?_, ?_⟩
    · simp [Ty.isArray, Ty.asConst]
    · exact isVector_asConst isArray isVector
  · exact .inr widens

/-- Only strings are held by another type than the declared one, the runtime struct. -/
theorem kind_constantType (ty : Ty) :
    (Module.constantType ty).kind =
      if ty.kind = .string then .struct Prelude.string else ty.kind := by
  unfold Module.constantType
  rw [Ty.isString, isStruct, struct?]
  cases isKind : ty.kind with
  | string =>
    simp only [decide_true, Bool.true_or, ↓reduceIte]
    rfl
  | _ => simp [isKind]

theorem Textual.kind_constantType (textual : ty.Textual) :
    (Module.constantType ty).kind = .struct Prelude.string := by
  rw [Ty.kind_constantType]
  rcases textual with isString | isStruct
  · rw [if_pos isString]
  · rw [isStruct, if_neg (by simp)]

theorem Admits.constantType (admits : ty.Admits literal) :
    (Module.constantType ty).Admits literal := by
  refine ⟨admits.inRange, fun notText => ?_, fun isText => ?_⟩
  · rw [Module.constantType, isString_of_plain (admits.kind_mem_plain notText)]
    exact admits.accepts notText
  · exact .inr (admits.textual isText).kind_constantType

/-- An integer that a type of an integer kind admits lies in the range of the kind. -/
theorem Admits.holds {value : Int} (admits : ty.Admits (.int value))
    (isInteger : ty.kind.isInteger = true) : ty.kind.Holds value := by
  have notText := Literal.kind_int_ne_string value
  have natural := Kind.ofInt_holds admits.inRange
  rcases (accepts_naturalType notText _).mp (admits.accepts notText) with ⟨same, _⟩ | widens
  · rw [same]
    exact natural
  · exact natural.promote widens isInteger

/-! ## The form of what is accepted -/

/-- Forms are compared where the kinds are the same. A value that widens to the kind of a slot is taken
whatever the forms are, so that forms agree exactly if they do so in widening. -/
theorem accepted_forms_agree_iff (slot value : Ty)
    (notStrings : ¬ (slot.isString = true ∧ value.isString = true)) :
    (slot.accepts value = true ↔
      slot.kind = value.kind ∧ slot.SameForm value ∨ slot.kind ∈ value.kind.promotions) ∧
    ((slot.accepts value = true → slot.SameForm value) ↔
      (slot.kind ∈ value.kind.promotions → slot.SameForm value)) := by
  have taken : slot.accepts value = true ↔
      slot.kind = value.kind ∧ slot.SameForm value ∨ slot.kind ∈ value.kind.promotions :=
    accepts_iff.trans (or_iff_right notStrings)
  refine ⟨taken, fun agree widens => agree (taken.mpr (.inr widens)), fun agree accepted => ?_⟩
  rcases taken.mp accepted with ⟨_, form⟩ | widens
  · exact form
  · exact agree widens

/-- An array of bytes may stand for an array of as many wider numbers. -/
theorem accepted_forms_agree_iff_arrays :
    let slot := (ofKind .uint16 .builtin).asArray 4
    let value := (ofKind .uint8 .builtin).asArray 4
    slot.accepts value = true ∧ slot.SameForm value := by
  intro slot value
  obtain ⟨taken, agree⟩ := accepted_forms_agree_iff slot value (by decide)
  have accepted := taken.mpr (.inr (by decide))
  exact ⟨accepted, agree.mpr (fun _ => ⟨rfl, rfl, rfl⟩) accepted⟩

/-- A reference to a number takes a narrower number that is no reference. -/
theorem reference_takes_narrower_number :
    ¬ ∀ slot value : Ty, ¬ (slot.isString = true ∧ value.isString = true) →
      slot.accepts value = true → slot.isRef = value.isRef ∧ slot.isArray = value.isArray ∧
        slot.isVector = value.isVector := by
  intro agree
  have form := agree (ofName "@uint16_t" .builtin) (ofName "uint8_t" .builtin) (by decide) (by decide)
  exact absurd form.1 (by decide)

end Ty

end Assay
