import Assay.Literal
import Assay.Number.Numeral
import Assay.Proofs.Number.Rounding

/-!
Contract: reading back the written forms of numbers.
-/

namespace Assay

namespace Number

namespace Numeral

/-! ## The parts of a numeral -/

/-- A numeral in parts: a sign, digits, digits after a point, and an exponent after its mark. -/
structure Parts where
  negative : Bool
  integer : List Char
  fraction : Option (List Char)
  exponent : Option (List Char)

namespace Parts

def unsigned (parts : Parts) : List Char :=
  parts.integer ++ (parts.fraction.elim [] ('.' :: ·) ++ parts.exponent.elim [] ('e' :: ·))

def chars (parts : Parts) : List Char :=
  if parts.negative then '-' :: parts.unsigned else parts.unsigned

def numeral (parts : Parts) : Numeral where
  negative := parts.negative
  digits := digitsValue (parts.integer ++ parts.fraction.getD [])
  exponent := exponentValue (parts.exponent.getD []) - (parts.fraction.getD []).length
  isInteger := parts.fraction.isNone && parts.exponent.isNone

/-- There are digits before the point, and only digits up to the exponent. -/
structure WellFormed (parts : Parts) : Prop where
  nonempty : parts.integer ≠ []
  integer : ∀ c ∈ parts.integer, c.isDigit
  fraction : ∀ c ∈ parts.fraction.getD [], c.isDigit
  exponent : ∀ c ∈ parts.exponent.getD [], c.isDigit ∨ c = '-' ∨ c = '+'

variable {parts : Parts}

/-- A list is split at the first character that is not of a kind. -/
theorem span_while {kind : Char → Bool} {inside rest : List Char} (all : ∀ c ∈ inside, kind c)
    (stops : ∀ c ∈ rest.head?, ¬ kind c) :
    (inside ++ rest).takeWhile kind = inside ∧ (inside ++ rest).dropWhile kind = rest := by
  rw [List.takeWhile_append_of_pos all, List.dropWhile_append_of_pos all]
  cases rest with
  | nil => simp
  | cons c rest =>
    have stop := stops c rfl
    simp [stop]

variable (wellFormed : parts.WellFormed)
include wellFormed

/-- A numeral starts with a digit, perhaps after a sign. -/
theorem WellFormed.head : ∃ c rest, parts.unsigned = c :: rest ∧ c.isDigit := by
  have nonempty := wellFormed.nonempty
  have integer := wellFormed.integer
  unfold unsigned
  cases isInteger : parts.integer with
  | nil => exact absurd isInteger nonempty
  | cons c digits =>
    rw [isInteger] at integer
    exact ⟨c, _, rfl, integer c List.mem_cons_self⟩

def startsNumeral : List Char → Bool
  | '-' :: c :: _ => c.isDigit
  | c :: _ => c.isDigit
  | [] => false

theorem WellFormed.startsNumeral : startsNumeral parts.chars = true := by
  obtain ⟨c, rest, isUnsigned, isDigit⟩ := wellFormed.head
  unfold chars Parts.startsNumeral
  rw [isUnsigned]
  cases parts.negative with
  | true => exact isDigit
  | false =>
    simp only [Bool.false_eq_true, if_false]
    split
    · next same =>
      cases same
      exact absurd isDigit (by decide)
    · next same =>
      cases same
      exact isDigit
    · next same => cases same

/-- The characters of numerals. -/
theorem WellFormed.mem_chars {c : Char} (member : c ∈ parts.chars) :
    c.isDigit ∨ c ∈ ['-', '+', '.', 'e'] := by
  have unsigned : ∀ c ∈ parts.unsigned, c.isDigit ∨ c ∈ ['-', '+', '.', 'e'] := by
    intro c member
    rcases List.mem_append.mp member with digit | behind
    · exact .inl (wellFormed.integer c digit)
    · rcases List.mem_append.mp behind with point | mark
      · have digits := wellFormed.fraction
        cases isFraction : parts.fraction with
        | none => simp [isFraction] at point
        | some fraction =>
          rw [isFraction] at point digits
          rcases List.mem_cons.mp point with rfl | digit
          · simp
          · exact .inl (digits c digit)
      · have digits := wellFormed.exponent
        cases isExponent : parts.exponent with
        | none => simp [isExponent] at mark
        | some exponent =>
          rw [isExponent] at mark digits
          rcases List.mem_cons.mp mark with rfl | digit
          · simp
          · rcases digits c digit with digit | rfl | rfl <;> simp_all
  unfold chars at member
  split at member
  · rcases List.mem_cons.mp member with rfl | later
    · simp
    · exact unsigned c later
  · exact unsigned c member

/-- Behind the digits comes a point, an exponent or nothing. -/
theorem WellFormed.span_integer :
    parts.unsigned.takeWhile Char.isDigit = parts.integer ∧
      parts.unsigned.dropWhile Char.isDigit =
        parts.fraction.elim [] ('.' :: ·) ++ parts.exponent.elim [] ('e' :: ·) := by
  apply span_while wellFormed.integer
  intro c first
  cases isFraction : parts.fraction with
  | none =>
    cases isExponent : parts.exponent with
    | none => simp [isFraction, isExponent] at first
    | some exponent =>
      simp only [isFraction, isExponent, Option.elim, List.nil_append, List.head?_cons,
        Option.mem_def, Option.some.injEq] at first
      simp [← first, Char.isDigit]
  | some fraction =>
    simp only [isFraction, Option.elim, List.cons_append, List.head?_cons, Option.mem_def,
      Option.some.injEq] at first
    simp [← first, Char.isDigit]

theorem WellFormed.span_fraction :
    (parts.fraction.getD [] ++ parts.exponent.elim [] ('e' :: ·)).takeWhile Char.isDigit =
        parts.fraction.getD [] ∧
      (parts.fraction.getD [] ++ parts.exponent.elim [] ('e' :: ·)).dropWhile Char.isDigit =
        parts.exponent.elim [] ('e' :: ·) := by
  apply span_while wellFormed.fraction
  cases parts.exponent <;> simp [Char.isDigit]

theorem WellFormed.not_minus (rest : List Char) : parts.unsigned ≠ '-' :: rest := by
  obtain ⟨c, others, isUnsigned, isDigit⟩ := wellFormed.head
  rw [isUnsigned]
  rintro ⟨⟩
  exact absurd isDigit (by decide)

/-- Reading a numeral gives back what its parts say. -/
theorem WellFormed.ofText_eq {text : String} (isText : text.toList = parts.chars) :
    ofText text = parts.numeral := by
  obtain ⟨integer, behindInteger⟩ := wellFormed.span_integer
  obtain ⟨fraction, behindFraction⟩ := wellFormed.span_fraction
  have notMinus := wellFormed.not_minus
  unfold ofText numeral
  rw [isText, chars]
  cases parts.negative
  all_goals
    simp only [Bool.false_eq_true, if_true, if_false, integer, behindInteger]
    cases isFraction : parts.fraction with
    | none => cases parts.exponent <;> simp
    | some digits =>
      simp only [isFraction, Option.getD_some] at fraction behindFraction
      simp only [Option.elim, List.cons_append] at fraction behindFraction ⊢
      simp only [fraction, behindFraction]
      cases parts.exponent <;> simp

end Parts

/-! ## Values of digits -/

def magnitude (numeral : Numeral) : ℚ :=
  numeral.digits * 10 ^ numeral.exponent

theorem digitsValue_eq (digits : List Char) : digitsValue digits = Nat.ofDigitChars 10 digits 0 :=
  Nat.ofDigitChars_eq_foldl.symm

@[simp] theorem digitsValue_toDigits (n : ℕ) : digitsValue (Nat.toDigits 10 n) = n := by
  rw [digitsValue_eq, Nat.ofDigitChars_ten_toDigits]

theorem digitsValue_append_zeros (digits : List Char) (count : ℕ) :
    digitsValue (digits ++ List.replicate count '0') = 10 ^ count * digitsValue digits := by
  rw [digitsValue_eq, Nat.ofDigitChars_append, Nat.ofDigitChars_replicate_zero, digitsValue_eq]

theorem digitsValue_zeros_append (count : ℕ) (digits : List Char) :
    digitsValue (List.replicate count '0' ++ digits) = digitsValue digits := by
  rw [digitsValue_eq, Nat.ofDigitChars_append, Nat.ofDigitChars_replicate_zero, mul_zero,
    digitsValue_eq]

theorem isDigit_toDigits (n : ℕ) : ∀ c ∈ Nat.toDigits 10 n, c.isDigit :=
  fun _ member => Nat.isDigit_of_mem_toDigits (by norm_num) (by norm_num) member

theorem exponentValue_toDigits (n : ℕ) : exponentValue (Nat.toDigits 10 n) = n := by
  have digits := isDigit_toDigits n
  unfold exponentValue
  split
  · next rest isDigits =>
    rw [isDigits] at digits
    exact absurd (digits '-' List.mem_cons_self) (by decide)
  · next rest isDigits =>
    rw [isDigits] at digits
    exact absurd (digits '+' List.mem_cons_self) (by decide)
  · rw [digitsValue_toDigits]

/-- An exponent with its sign, which may be left out above zero. -/
theorem exponentValue_signed (exponent : ℤ) (plusSign : Bool) :
    exponentValue ((if exponent < 0 then ['-'] else if plusSign then ['+'] else []) ++
      Nat.toDigits 10 exponent.natAbs) = exponent := by
  by_cases below : exponent < 0
  · rw [if_pos below]
    show -(digitsValue (Nat.toDigits 10 exponent.natAbs) : ℤ) = exponent
    rw [digitsValue_toDigits]
    omega
  · rw [if_neg below]
    have unsigned : (exponent.natAbs : ℤ) = exponent := by omega
    cases plusSign with
    | true =>
      show (digitsValue (Nat.toDigits 10 exponent.natAbs) : ℤ) = exponent
      rw [digitsValue_toDigits, unsigned]
    | false =>
      show exponentValue (Nat.toDigits 10 exponent.natAbs) = exponent
      rw [exponentValue_toDigits, unsigned]

end Numeral

/-! ## The parts of a written number -/

namespace Layout

open Numeral

def positionalParts (negative : Bool) (digits : List Char) (exponent : Int) : Parts :=
  let lead := (digits.length : Int) + exponent
  if 0 ≤ exponent then
    ⟨negative, digits ++ List.replicate exponent.toNat '0', some ['0'], none⟩
  else if 0 < lead then
    ⟨negative, digits.take lead.toNat, some (digits.drop lead.toNat), none⟩
  else
    ⟨negative, ['0'], some (List.replicate (-lead).toNat '0' ++ digits), none⟩

def scientificParts (layout : Layout) (negative : Bool) (digits : List Char) (lead : Int) :
    Parts where
  negative := negative
  integer := digits.take 1
  fraction := if digits.drop 1 = [] then none else some (digits.drop 1)
  exponent := some ((if lead < 0 then ['-'] else if layout.plusSign then ['+'] else []) ++
    Nat.toDigits 10 lead.natAbs)

def parts (layout : Layout) (x : Scaled) : Parts :=
  if x.significand = 0 then ⟨x.negative, ['0'], some ['0'], none⟩
  else
    let decimal := x.shortest layout.tie
    let digits := Nat.toDigits 10 decimal.digits
    let lead := (digits.length : Int) - 1 + decimal.exponent
    if layout.plainFrom ≤ lead ∧ lead ≤ layout.plainTo then
      positionalParts x.negative digits decimal.exponent
    else
      layout.scientificParts x.negative digits lead

theorem toList_positional (negative : Bool) (digits : List Char) (exponent : Int) :
    (positional digits exponent).toList = (positionalParts negative digits exponent).unsigned := by
  unfold positional positionalParts
  dsimp only
  split
  · simp [Parts.unsigned, zeros]
  · split <;> simp [Parts.unsigned, zeros]

theorem toList_scientific (layout : Layout) (negative : Bool) (digits : List Char) (lead : Int) :
    (layout.scientific digits lead).toList =
      (layout.scientificParts negative digits lead).unsigned := by
  unfold scientific scientificParts Parts.unsigned
  dsimp only
  have isSign : (if lead < 0 then "-" else if layout.plusSign then "+" else "").toList =
      if lead < 0 then ['-'] else if layout.plusSign then ['+'] else [] := by
    split
    · rfl
    · split <;> rfl
  cases isRest : digits.drop 1 <;> simp [isSign]

theorem negative_positionalParts (negative : Bool) (digits : List Char) (exponent : Int) :
    (positionalParts negative digits exponent).negative = negative := by
  unfold positionalParts
  dsimp only
  split
  · rfl
  · split <;> rfl

theorem negative_parts (layout : Layout) (x : Scaled) :
    (layout.parts x).negative = x.negative := by
  unfold parts
  dsimp only
  split
  · rfl
  · split
    · apply negative_positionalParts
    · rfl

theorem toList_finite (layout : Layout) (x : Scaled) :
    (layout.finite x).toList = (layout.parts x).chars := by
  have signed : ∀ (body : String) (parts : Parts), parts.negative = x.negative →
      body.toList = parts.unsigned →
        ((if x.negative then "-" else "") ++ body).toList = parts.chars := by
    intro body parts sameSign isBody
    rw [String.toList_append, isBody, Parts.chars, sameSign]
    cases x.negative <;> rfl
  unfold finite parts
  dsimp only
  by_cases isZero : x.significand = 0
  · rw [if_pos isZero, if_pos isZero]
    exact signed _ _ rfl rfl
  · rw [if_neg isZero, if_neg isZero]
    generalize (x.shortest layout.tie).exponent = exponent
    generalize Nat.toDigits 10 (x.shortest layout.tie).digits = digits
    generalize (digits.length : ℤ) - 1 + exponent = lead
    by_cases plain : layout.plainFrom ≤ lead ∧ lead ≤ layout.plainTo
    · rw [if_pos plain, if_pos plain]
      apply signed
      · apply negative_positionalParts
      · apply toList_positional
    · rw [if_neg plain, if_neg plain]
      apply signed
      · rfl
      · apply toList_scientific

/-! What the parts stand for -/

section Written

variable {digits : List Char} (nonempty : digits ≠ []) (all : ∀ c ∈ digits, c.isDigit)

include nonempty all

theorem wellFormed_positionalParts (negative : Bool) (exponent : Int) :
    (positionalParts negative digits exponent).WellFormed := by
  have zero : ∀ {count : ℕ}, ∀ c ∈ List.replicate count '0', c.isDigit := by
    intro count c member
    rw [List.eq_of_mem_replicate member]
    rfl
  unfold positionalParts
  dsimp only
  split
  · refine ⟨by simp [nonempty], ?_, by simp [Char.isDigit], by simp⟩
    intro c member
    exact (List.mem_append.mp member).elim (all c) (zero c)
  · split
    · refine ⟨?_, fun c member => all c (List.mem_of_mem_take member),
        fun c member => all c (List.mem_of_mem_drop member), by simp⟩
      simp only [ne_eq, List.take_eq_nil_iff, nonempty, or_false]
      omega
    · refine ⟨by simp, by simp [Char.isDigit], ?_, by simp⟩
      intro c member
      exact (List.mem_append.mp member).elim (zero c) (all c)

theorem wellFormed_scientificParts (layout : Layout) (negative : Bool) (lead : Int) :
    (layout.scientificParts negative digits lead).WellFormed := by
  refine ⟨by simp [scientificParts, nonempty], fun c member => all c (List.mem_of_mem_take member),
    ?_, ?_⟩
  · intro c member
    unfold scientificParts at member
    dsimp only at member
    split at member
    · cases member
    · exact all c (List.mem_of_mem_drop member)
  · intro c member
    rcases List.mem_append.mp member with sign | digit
    · split at sign
      · exact .inr (.inl (List.mem_singleton.mp sign))
      · split at sign
        · exact .inr (.inr (List.mem_singleton.mp sign))
        · cases sign
    · exact .inl (isDigit_toDigits _ c digit)

omit nonempty all

theorem magnitude_positionalParts (negative : Bool) (digits : List Char) (exponent : Int) :
    (positionalParts negative digits exponent).numeral.magnitude =
      digitsValue digits * 10 ^ exponent := by
  unfold positionalParts
  dsimp only
  split
  · next whole =>
    have isPower : (10 : ℚ) ^ exponent = 10 ^ (exponent.toNat + 1) * 10 ^ (-1 : ℤ) := by
      rw [← zpow_natCast, ← zpow_add₀ (by norm_num)]
      congr 1
      omega
    have isDigits : digits ++ List.replicate exponent.toNat '0' ++ ['0'] =
        digits ++ List.replicate (exponent.toNat + 1) '0' := by
      rw [List.append_assoc, List.replicate_succ']
    show (digitsValue (digits ++ List.replicate exponent.toNat '0' ++ ['0']) : ℚ) *
      10 ^ (-1 : ℤ) = _
    rw [isDigits, digitsValue_append_zeros, isPower]
    push_cast
    ring
  · next fractional =>
    split
    · next within =>
      have isExponent : (0 : ℤ) - (digits.drop (digits.length + exponent).toNat).length =
          exponent := by
        rw [List.length_drop]
        omega
      show (digitsValue (digits.take _ ++ digits.drop _) : ℚ) *
        10 ^ ((0 : ℤ) - (digits.drop (digits.length + exponent).toNat).length) = _
      rw [isExponent, List.take_append_drop]
    · next beyond =>
      have isExponent : (0 : ℤ) - (List.replicate (-(digits.length + exponent)).toNat '0' ++
          digits).length = exponent := by
        rw [List.length_append, List.length_replicate]
        omega
      have isDigits : ['0'] ++ (List.replicate (-(digits.length + exponent)).toNat '0' ++
          digits) = List.replicate ((-(digits.length + exponent)).toNat + 1) '0' ++ digits := by
        simp [List.replicate_succ]
      show (digitsValue (['0'] ++ (List.replicate (-(digits.length + exponent)).toNat '0' ++
        digits)) : ℚ) * 10 ^ ((0 : ℤ) - (List.replicate
          (-(digits.length + exponent)).toNat '0' ++ digits).length) = _
      rw [isExponent, isDigits, digitsValue_zeros_append]

include nonempty

theorem magnitude_scientificParts (layout : Layout) (negative : Bool) (exponent : Int) :
    (layout.scientificParts negative digits
        ((digits.length : ℤ) - 1 + exponent)).numeral.magnitude =
      digitsValue digits * 10 ^ exponent := by
  have isFraction : (layout.scientificParts negative digits
      ((digits.length : ℤ) - 1 + exponent)).fraction.getD [] = digits.drop 1 := by
    unfold scientificParts
    dsimp only
    split
    · next isNil => rw [isNil]; rfl
    · rfl
  have length : 0 < digits.length := List.length_pos_iff.mpr nonempty
  have isExponent : ((digits.length : ℤ) - 1 + exponent) - (digits.drop 1).length = exponent := by
    rw [List.length_drop]
    omega
  unfold magnitude Parts.numeral
  rw [isFraction]
  dsimp only [scientificParts]
  rw [List.take_append_drop, Option.getD_some, exponentValue_signed, isExponent]

end Written

variable (layout : Layout)
include layout

theorem wellFormed_parts (x : Scaled) : (layout.parts x).WellFormed := by
  unfold parts
  dsimp only
  split
  · constructor <;> simp [Char.isDigit]
  · split
    · exact wellFormed_positionalParts Nat.toDigits_ne_nil (isDigit_toDigits _) _ _
    · exact wellFormed_scientificParts Nat.toDigits_ne_nil (isDigit_toDigits _) _ _ _

/-- A written number is a numeral for its shortest decimal. -/
theorem magnitude_parts {x : Scaled} (nonzero : x.significand ≠ 0) :
    (layout.parts x).numeral.magnitude = (x.shortest layout.tie).value := by
  unfold parts
  dsimp only
  rw [if_neg nonzero]
  split
  · rw [magnitude_positionalParts, digitsValue_toDigits]
    rfl
  · rw [magnitude_scientificParts Nat.toDigits_ne_nil, digitsValue_toDigits]
    rfl

theorem magnitude_parts_zero {x : Scaled} (isZero : x.significand = 0) :
    (layout.parts x).numeral.magnitude = 0 := by
  unfold parts
  rw [if_pos isZero]
  simp [magnitude, Parts.numeral, digitsValue]

/-- The written form has a point or an exponent. -/
theorem isInteger_parts (x : Scaled) : (layout.parts x).numeral.isInteger = false := by
  unfold parts
  dsimp only
  split
  · rfl
  · split
    · unfold positionalParts
      dsimp only
      split
      · rfl
      · split <;> rfl
    · simp [Parts.numeral, scientificParts]

theorem ofText_finite (x : Scaled) : ofText (layout.finite x) = (layout.parts x).numeral :=
  (layout.wellFormed_parts x).ofText_eq (layout.toList_finite x)

/-- Numbers that are written alike are equal: the decimal that is read rounds to both. -/
theorem eq_of_finite_eq {x y : Scaled} (canonical : x.Canonical) (canonicalOther : y.Canonical)
    (same : layout.finite x = layout.finite y) : x = y := by
  have read : (layout.parts x).numeral = (layout.parts y).numeral := by
    rw [← ofText_finite, ← ofText_finite, same]
  have sameSign : x.negative = y.negative := by
    rw [← layout.negative_parts x, ← layout.negative_parts y]
    exact congrArg Numeral.negative read
  have sameMagnitude := congrArg magnitude read
  have sameNumber : x.significand = y.significand ∧ x.exponent = y.exponent := by
    by_cases isZero : x.significand = 0 <;> by_cases isZeroOther : y.significand = 0
    · have normal := canonical.normal
      have normalOther := canonicalOther.normal
      omega
    · rw [magnitude_parts_zero layout isZero, magnitude_parts layout isZeroOther] at sameMagnitude
      have positive := Scaled.shortest_pos canonicalOther isZeroOther layout.tie
      exact absurd sameMagnitude positive.ne
    · rw [magnitude_parts layout isZero, magnitude_parts_zero layout isZeroOther] at sameMagnitude
      have positive := Scaled.shortest_pos canonical isZero layout.tie
      exact absurd sameMagnitude positive.ne'
    · rw [magnitude_parts layout isZero, magnitude_parts layout isZeroOther] at sameMagnitude
      have contains := Scaled.contains_shortest canonical isZero layout.tie
      rw [sameMagnitude] at contains
      exact Scaled.eq_of_contains canonical canonicalOther contains
        (Scaled.contains_shortest canonicalOther isZeroOther layout.tie)
  obtain ⟨negative, significand, exponent⟩ := x
  obtain ⟨negativeOther, significandOther, exponentOther⟩ := y
  obtain ⟨rfl, rfl⟩ := sameNumber
  cases sameSign
  rfl

end Layout

/-! ## Integers -/

namespace Numeral

def integerParts (value : ℤ) : Parts :=
  ⟨decide (value < 0), Nat.toDigits 10 value.natAbs, none, none⟩

theorem toList_toString (value : ℤ) : (toString value).toList = (integerParts value).chars := by
  cases value with
  | ofNat n =>
    show n.repr.toList = _
    have unsigned : ¬ (n : ℤ) < 0 := by omega
    simp [integerParts, Parts.chars, Parts.unsigned, unsigned]
  | negSucc n =>
    show ("-" ++ (n + 1).repr).toList = _
    simp [integerParts, Parts.chars, Parts.unsigned]

theorem wellFormed_integerParts (value : ℤ) : (integerParts value).WellFormed :=
  ⟨Nat.toDigits_ne_nil, isDigit_toDigits _, by simp [integerParts], by simp [integerParts]⟩

/-- Reading an integer gives it back. -/
theorem int?_ofText_toString (value : ℤ) : (ofText (toString value)).int? = some value := by
  rw [(wellFormed_integerParts value).ofText_eq (toList_toString value)]
  simp only [int?, Parts.numeral, integerParts, Option.getD_none, List.append_nil,
    digitsValue_toDigits]
  by_cases below : value < 0
  · have nonzero : value.natAbs ≠ 0 := by omega
    have magnitude : -|value| = value := by rw [abs_of_neg below, neg_neg]
    simp [below, nonzero, magnitude]
  · have magnitude : |value| = value := abs_of_nonneg (not_lt.mp below)
    simp [below, magnitude]

end Numeral

end Number

/-! ## Real literals -/

namespace Literal

open Number

/-- A real literal is a numeral with a point or an exponent, or one of three words. -/
theorem realText_cases (x : Float) :
    (∃ scaled, Scaled.ofFloat? x = some scaled ∧ realText x = realLayout.finite scaled) ∨
      x = Float.ofBits 0x7FF0000000000000 ∧ realText x = "inf" ∨
      x = Float.ofBits 0xFFF0000000000000 ∧ realText x = "-inf" ∨
      x = Float.ofBits 0x7FF8000000000000 ∧ realText x = "NaN" := by
  cases isExact : Scaled.ofFloat? x with
  | some scaled =>
    left
    refine ⟨scaled, rfl, ?_⟩
    rw [realText, Layout.finite?, isExact]
    rfl
  | none =>
    right
    rcases Scaled.ofFloat?_eq_none isExact with rfl | rfl | rfl
    · exact .inl ⟨rfl, by decide +kernel⟩
    · exact .inr (.inl ⟨rfl, by decide +kernel⟩)
    · exact .inr (.inr ⟨rfl, by decide +kernel⟩)

/-- A finite number is written as a numeral. -/
theorem startsNumeral_finite (scaled : Scaled) :
    Numeral.Parts.startsNumeral (realLayout.finite scaled).toList = true := by
  rw [Layout.toList_finite]
  exact (realLayout.wellFormed_parts scaled).startsNumeral

/-- Floating-point numbers that are written alike are equal. -/
theorem eq_of_realText_eq {x y : Float} (same : realText x = realText y) : x = y := by
  have apart : ∀ {scaled : Scaled} {word : String}, realLayout.finite scaled = word →
      Numeral.Parts.startsNumeral word.toList = true := by
    rintro scaled _ rfl
    exact startsNumeral_finite scaled
  rcases realText_cases x with ⟨scaled, exact, text⟩ | ⟨isX, text⟩ | ⟨isX, text⟩ | ⟨isX, text⟩
  all_goals
    rcases realText_cases y with ⟨other, exactOther, textOther⟩ | ⟨isY, textOther⟩ |
      ⟨isY, textOther⟩ | ⟨isY, textOther⟩
    all_goals rw [text, textOther] at same
  · have equal := realLayout.eq_of_finite_eq (Scaled.canonical_ofFloat? exact)
      (Scaled.canonical_ofFloat? exactOther) same
    rw [← equal] at exactOther
    exact Scaled.eq_of_ofFloat? exact exactOther
  -- Two words are equal or not, and no word starts as a numeral.
  all_goals
    first
    | exact isX.trans isY.symm
    | exact absurd same (by decide)
    | exact absurd (apart same) (by decide)
    | exact absurd (apart same.symm) (by decide)

end Literal

end Assay
