import Assay.Number.Shortest
import Mathlib

/-!
Contract: the decimals that round to a floating-point number.
-/

namespace Assay.Number

/-! ## Exact values -/

def Scaled.magnitude (x : Scaled) : ℚ :=
  x.significand * 2 ^ x.exponent

def Decimal.value (x : Decimal) : ℚ :=
  x.digits * 10 ^ x.exponent

def Interval.Contains (interval : Interval) (value : ℚ) : Prop :=
  if interval.closed then
    interval.low * 2 ^ interval.exponent ≤ value ∧ value ≤ interval.high * 2 ^ interval.exponent
  else
    interval.low * 2 ^ interval.exponent < value ∧ value < interval.high * 2 ^ interval.exponent

/-- Numbers as they are stored: of 53 bits at most, and of fewer only at the lowest exponent. -/
structure Scaled.Canonical (x : Scaled) : Prop where
  bounded : x.significand < 2 ^ 53
  lowest : -1074 ≤ x.exponent
  normal : x.exponent = -1074 ∨ 2 ^ 52 ≤ x.significand

/-! ## Comparisons without fractions -/

theorem zpow_toNat {base : ℚ} (nonzero : base ≠ 0) (power : ℤ) :
    base ^ power.toNat = base ^ power * base ^ (-power).toNat := by
  rw [← zpow_natCast, ← zpow_natCast, ← zpow_add₀ nonzero]
  congr 1
  omega

def common (exponent place : ℤ) : ℚ :=
  10 ^ (-place).toNat * 2 ^ (-exponent).toNat

theorem common_pos (exponent place : ℤ) : 0 < common exponent place := by
  unfold common
  positivity

theorem cast_scale (exponent place : ℤ) :
    ((Nat.pow 10 (-place).toNat <<< exponent.toNat : ℕ) : ℚ) =
      2 ^ exponent * common exponent place := by
  rw [Nat.shiftLeft_eq, common, Nat.cast_mul, Nat.pow_eq, Nat.cast_pow, Nat.cast_pow,
    Nat.cast_ofNat, Nat.cast_ofNat, zpow_toNat two_ne_zero]
  ring

theorem cast_unit (exponent place : ℤ) :
    ((Nat.pow 10 place.toNat <<< (-exponent).toNat : ℕ) : ℚ) =
      10 ^ place * common exponent place := by
  rw [Nat.shiftLeft_eq, common, Nat.cast_mul, Nat.pow_eq, Nat.cast_pow, Nat.cast_pow,
    Nat.cast_ofNat, Nat.cast_ofNat, zpow_toNat (by norm_num : (10 : ℚ) ≠ 0)]
  ring

section Comparison

variable (a b : ℕ) (exponent place : ℤ)

theorem scaled_le_iff :
    a * (Nat.pow 10 (-place).toNat <<< exponent.toNat) ≤
        b * (Nat.pow 10 place.toNat <<< (-exponent).toNat) ↔
      (a : ℚ) * 2 ^ exponent ≤ b * 10 ^ place := by
  rw [← Nat.cast_le (α := ℚ), Nat.cast_mul, Nat.cast_mul, cast_scale, cast_unit, ← mul_assoc,
    ← mul_assoc, mul_le_mul_iff_left₀ (common_pos exponent place)]

theorem unit_le_iff :
    b * (Nat.pow 10 place.toNat <<< (-exponent).toNat) ≤
        a * (Nat.pow 10 (-place).toNat <<< exponent.toNat) ↔
      (b : ℚ) * 10 ^ place ≤ a * 2 ^ exponent := by
  rw [← Nat.cast_le (α := ℚ), Nat.cast_mul, Nat.cast_mul, cast_scale, cast_unit, ← mul_assoc,
    ← mul_assoc, mul_le_mul_iff_left₀ (common_pos exponent place)]

end Comparison

/-! ## The search for a decimal -/

namespace Interval

variable {interval : Interval} {tie : Tie} {place : ℤ}

def check (interval : Interval) (place : ℤ) (multiple : ℕ) : Bool :=
  let scale := Nat.pow 10 (-place).toNat <<< interval.exponent.toNat
  let unit := Nat.pow 10 place.toNat <<< (-interval.exponent).toNat
  if interval.closed then
    interval.low * scale ≤ multiple * unit && multiple * unit ≤ interval.high * scale
  else
    interval.low * scale < multiple * unit && multiple * unit < interval.high * scale

theorem check_eq_true (interval : Interval) (place : ℤ) (multiple : ℕ) :
    interval.check place multiple = true ↔ interval.Contains (multiple * 10 ^ place) := by
  unfold check Contains
  split
  · simp only [Bool.and_eq_true, decide_eq_true_eq, scaled_le_iff, unit_le_iff]
  · simp only [Bool.and_eq_true, decide_eq_true_eq, ← not_le, scaled_le_iff, unit_le_iff]

def below (interval : Interval) (place : ℤ) : ℕ :=
  interval.mid * (Nat.pow 10 (-place).toNat <<< interval.exponent.toNat) /
    (Nat.pow 10 place.toNat <<< (-interval.exponent).toNat)

/-- The search tries the multiples on both sides of the middle. -/
theorem nearestAt_cases (interval : Interval) (tie : Tie) (place : ℤ) :
    (∃ digits, interval.nearestAt tie place = some digits ∧
        interval.check place digits = true) ∨
      interval.nearestAt tie place = none ∧ interval.check place (interval.below place) = false ∧
        interval.check place (interval.below place + 1) = false := by
  unfold nearestAt
  dsimp only
  split
  · next first second =>
    have isBelow : interval.check place (interval.below place) = true := first
    have isAbove : interval.check place (interval.below place + 1) = true := second
    left
    refine ⟨_, rfl, ?_⟩
    split
    · exact isBelow
    · exact isAbove
    · split
      · exact isAbove
      · split
        · exact isBelow
        · exact isAbove
  · next first second => exact .inl ⟨_, rfl, first⟩
  · next first second => exact .inl ⟨_, rfl, second⟩
  · next first second => exact .inr ⟨rfl, first, second⟩

theorem contains_of_nearestAt {digits : ℕ} (found : interval.nearestAt tie place = some digits) :
    interval.Contains (digits * 10 ^ place) := by
  rw [← check_eq_true]
  rcases interval.nearestAt_cases tie place with ⟨other, isOther, checked⟩ | ⟨missing, _⟩
  · rw [found] at isOther
    cases isOther
    exact checked
  · rw [found] at missing
    cases missing

theorem below_le (interval : Interval) (place : ℤ) :
    (interval.below place : ℚ) * 10 ^ place ≤ interval.mid * 2 ^ interval.exponent := by
  rw [← unit_le_iff]
  exact Nat.div_mul_le_self _ _

theorem lt_above (interval : Interval) (place : ℤ) :
    (interval.mid : ℚ) * 2 ^ interval.exponent < (interval.below place + 1) * 10 ^ place := by
  have positive : 0 < Nat.pow 10 place.toNat <<< (-interval.exponent).toNat := by
    rw [Nat.shiftLeft_eq, Nat.pow_eq]
    positivity
  have less : interval.mid * (Nat.pow 10 (-place).toNat <<< interval.exponent.toNat) <
      (interval.below place + 1) * (Nat.pow 10 place.toNat <<< (-interval.exponent).toNat) := by
    rw [Nat.mul_comm (interval.below place + 1)]
    exact Nat.lt_mul_div_succ _ positive
  have notLe := (unit_le_iff interval.mid (interval.below place + 1) interval.exponent place).not.mp
    (Nat.not_le.mpr less)
  exact_mod_cast not_le.mp notLe

theorem contains_of_between {value : ℚ} (low : interval.low * 2 ^ interval.exponent < value)
    (high : value < interval.high * 2 ^ interval.exponent) : interval.Contains value := by
  unfold Contains
  split
  · exact ⟨low.le, high.le⟩
  · exact ⟨low, high⟩

theorem Contains.bounds {value : ℚ} (contains : interval.Contains value) :
    interval.low * 2 ^ interval.exponent ≤ value ∧ value ≤ interval.high * 2 ^ interval.exponent := by
  unfold Contains at contains
  split at contains
  · exact contains
  · exact ⟨contains.1.le, contains.2.le⟩

/-- Only a closed interval contains its ends. -/
theorem Contains.closed_of_end {value : ℚ} (contains : interval.Contains value)
    (isEnd : value = interval.low * 2 ^ interval.exponent ∨
      value = interval.high * 2 ^ interval.exponent) : interval.closed = true := by
  by_contra isOpen
  rw [Contains, if_neg isOpen] at contains
  rcases isEnd with isLow | isHigh
  · exact contains.1.ne isLow.symm
  · exact contains.2.ne isHigh

/-- A unit that is smaller than the interval has a multiple inside. -/
theorem exists_nearestAt (interval : Interval) (tie : Tie) (low : interval.low ≤ interval.mid)
    (high : interval.mid < interval.high)
    (narrow : (10 : ℚ) ^ place < (interval.high - interval.low) * 2 ^ interval.exponent) :
    ∃ digits, interval.nearestAt tie place = some digits := by
  rcases interval.nearestAt_cases tie place with ⟨digits, found, _⟩ | ⟨_, first, second⟩
  · exact ⟨digits, found⟩
  exfalso
  have positive : (0 : ℚ) < 2 ^ interval.exponent := by positivity
  have lowest : (interval.low : ℚ) * 2 ^ interval.exponent ≤
      interval.mid * 2 ^ interval.exponent :=
    mul_le_mul_of_nonneg_right (by exact_mod_cast low) positive.le
  have highest : (interval.mid : ℚ) * 2 ^ interval.exponent <
      interval.high * 2 ^ interval.exponent :=
    mul_lt_mul_of_pos_right (by exact_mod_cast high) positive
  have isBelow := interval.below_le place
  have isAbove := interval.lt_above place
  -- The multiple below the middle is not above the lower end, and the next one is not below the
  -- upper end, so that a whole unit covers the interval.
  have outsideBelow : (interval.below place : ℚ) * 10 ^ place ≤
      interval.low * 2 ^ interval.exponent := by
    by_contra inside
    have contains := contains_of_between (not_le.mp inside) (isBelow.trans_lt highest)
    rw [← check_eq_true, first] at contains
    cases contains
  have outsideAbove : (interval.high : ℚ) * 2 ^ interval.exponent ≤
      (interval.below place + 1) * 10 ^ place := by
    by_contra inside
    have contains := contains_of_between (lowest.trans_lt isAbove) (not_le.mp inside)
    have isChecked := (interval.check_eq_true place (interval.below place + 1)).mpr
      (by exact_mod_cast contains)
    rw [second] at isChecked
    cases isChecked
  linarith

end Interval

/-! ## The shortest decimal -/

namespace Decimal

theorem value_trim (fuel : ℕ) (x : Decimal) : (trim fuel x).value = x.value := by
  induction fuel generalizing x with
  | zero => rfl
  | succ fuel ih =>
    rw [trim]
    split
    · next trailing =>
      have isMultiple : (x.digits : ℚ) = 10 * (x.digits / 10 : ℕ) := by
        have split := Nat.div_add_mod x.digits 10
        rw [trailing.2, add_zero] at split
        exact_mod_cast split.symm
      rw [ih, value, value, zpow_add_one₀ (by norm_num), isMultiple]
      ring
    · rfl

end Decimal

namespace Scaled

variable {x y : Scaled}

/-- A power of ten that has as many digits as a number, or fewer. -/
theorem pow_length_toDigits_le {n : ℕ} (nonzero : n ≠ 0) :
    10 ^ ((Nat.toDigits 10 n).length - 1) ≤ n := by
  by_contra less
  have positive : 0 < (Nat.toDigits 10 n).length := Nat.length_toDigits_pos
  have long : 0 < (Nat.toDigits 10 n).length - 1 := by
    by_contra short
    have isZero : (Nat.toDigits 10 n).length - 1 = 0 := by omega
    rw [isZero, pow_zero] at less
    omega
  have shorter := (Nat.length_toDigits_le_iff (by norm_num) long).mpr (not_le.mp less)
  omega

/-- The number as a whole number of units of its last decimal place. -/
theorem cast_shifted (x : Scaled) :
    (((x.significand * Nat.pow 5 (-x.exponent).toNat) <<< x.exponent.toNat : ℕ) : ℚ) =
      x.magnitude * 10 ^ (-x.exponent).toNat := by
  have tens : (10 : ℚ) ^ (-x.exponent).toNat =
      2 ^ (-x.exponent).toNat * 5 ^ (-x.exponent).toNat := by
    rw [← mul_pow]
    norm_num
  rw [Nat.shiftLeft_eq, magnitude, tens, Nat.cast_mul, Nat.cast_mul, Nat.pow_eq, Nat.cast_pow,
    Nat.cast_pow, Nat.cast_ofNat, Nat.cast_ofNat, zpow_toNat two_ne_zero]
  ring

/-- The first digit of a number stands at the exponent that is looked up. -/
theorem zpow_decimalExponent_le (nonzero : x.significand ≠ 0) :
    (10 : ℚ) ^ x.decimalExponent ≤ x.magnitude := by
  let shifted := (x.significand * Nat.pow 5 (-x.exponent).toNat) <<< x.exponent.toNat
  have isShifted : (shifted : ℚ) = x.magnitude * 10 ^ (-x.exponent).toNat := x.cast_shifted
  have shiftedNonzero : shifted ≠ 0 := by
    show (x.significand * Nat.pow 5 (-x.exponent).toNat) <<< x.exponent.toNat ≠ 0
    rw [Nat.shiftLeft_eq, Nat.pow_eq]
    positivity
  have length : 0 < (Nat.toDigits 10 shifted).length := Nat.length_toDigits_pos
  have isExponent : x.decimalExponent =
      ((Nat.toDigits 10 shifted).length - 1 : ℕ) - ((-x.exponent).toNat : ℤ) := by
    rw [Nat.cast_sub length]
    rfl
  have le : (10 : ℚ) ^ ((Nat.toDigits 10 shifted).length - 1) ≤ shifted := by
    exact_mod_cast pow_length_toDigits_le shiftedNonzero
  rw [isExponent, zpow_sub₀ (by norm_num), zpow_natCast, zpow_natCast,
    div_le_iff₀ (by positivity), ← isShifted]
  exact le

/-! The interval of a number -/

theorem low_le_mid (x : Scaled) : x.interval.low ≤ x.interval.mid :=
  Nat.sub_le _ _

theorem mid_lt_high (x : Scaled) : x.interval.mid < x.interval.high := by
  simp [interval]

theorem cast_high (x : Scaled) : (x.interval.high : ℚ) = 4 * x.significand + 2 := by
  simp [interval]

/-- How far the interval reaches below a number. -/
theorem low_cases (nonzero : x.significand ≠ 0) :
    x.significand = 2 ^ 52 ∧ x.interval.low + 1 = 4 * x.significand ∨
      x.interval.low + 2 = 4 * x.significand := by
  unfold interval
  dsimp only
  split
  · next lowest =>
    left
    refine ⟨lowest.1, ?_⟩
    omega
  · right
    omega

theorem zpow_interval_exponent (x : Scaled) :
    (2 : ℚ) ^ x.exponent = 4 * 2 ^ x.interval.exponent := by
  have split : x.exponent = 2 + x.interval.exponent := by
    simp [interval]
  rw [split, zpow_add₀ two_ne_zero]
  norm_num

section

variable (canonical : x.Canonical) (nonzero : x.significand ≠ 0)
include canonical nonzero

/-- Sixteen places behind the first digit the unit is smaller than the interval. -/
theorem zpow_lt_width :
    (10 : ℚ) ^ (x.decimalExponent - 16) <
      (x.interval.high - x.interval.low) * 2 ^ x.interval.exponent := by
  have positive : (0 : ℚ) < 2 ^ x.interval.exponent := by positivity
  have lead := zpow_decimalExponent_le nonzero
  rw [magnitude, zpow_interval_exponent] at lead
  have isPlace : (10 : ℚ) ^ (x.decimalExponent - 16) = 10 ^ x.decimalExponent / 10 ^ 16 := by
    rw [zpow_sub₀ (by norm_num)]
    norm_cast
  rw [isPlace, div_lt_iff₀ (by positivity), cast_high]
  refine lead.trans_lt ?_
  rcases low_cases nonzero with ⟨isPower, isLow⟩ | isLow
  · have isLow : (x.interval.low : ℚ) + 1 = 4 * x.significand := by exact_mod_cast isLow
    have isPower : (x.significand : ℚ) = 2 ^ 52 := by exact_mod_cast isPower
    rw [eq_sub_of_add_eq isLow, isPower]
    linarith
  · have isLow : (x.interval.low : ℚ) + 2 = 4 * x.significand := by exact_mod_cast isLow
    have bounded : (x.significand : ℚ) * 2 ^ x.interval.exponent <
        2 ^ 53 * 2 ^ x.interval.exponent :=
      mul_lt_mul_of_pos_right (by exact_mod_cast canonical.bounded) positive
    rw [eq_sub_of_add_eq isLow]
    linarith

/-- The shortest decimal rounds to the number it was made for. -/
theorem contains_shortest (tie : Tie) : x.interval.Contains (x.shortest tie).value := by
  rw [shortest, Decimal.value_trim]
  have isFound : ∃ decimal, (List.range 17).findSome? (fun (extra : ℕ) =>
      (x.interval.nearestAt tie (x.decimalExponent - extra)).map fun digits =>
        Decimal.mk digits (x.decimalExponent - extra)) = some decimal := by
    rw [← Option.isSome_iff_exists, List.findSome?_isSome_iff]
    obtain ⟨digits, found⟩ := x.interval.exists_nearestAt tie x.low_le_mid x.mid_lt_high
      (zpow_lt_width canonical nonzero)
    refine ⟨16, by simp, ?_⟩
    simp [found]
  obtain ⟨decimal, found⟩ := isFound
  obtain ⟨extra, _, isDecimal⟩ := List.exists_of_findSome?_eq_some found
  obtain ⟨digits, isDigits, rfl⟩ := Option.map_eq_some_iff.mp isDecimal
  dsimp only
  rw [found]
  exact Interval.contains_of_nearestAt isDigits

theorem shortest_pos (tie : Tie) : 0 < (x.shortest tie).value := by
  have positive : 0 < x.interval.low := by
    have isLow := low_cases nonzero
    omega
  have low : (0 : ℚ) < x.interval.low * 2 ^ x.interval.exponent := by positivity
  exact low.trans_le (contains_shortest canonical nonzero tie).bounds.1

end

/-! ## Intervals of different numbers -/

def Precedes (x y : Scaled) : Prop :=
  x.exponent < y.exponent ∨ x.exponent = y.exponent ∧ x.significand < y.significand

/-- The first interval ends before the second begins, or where it begins if one of the numbers is
odd. -/
def EndsBefore (x y : Scaled) : Prop :=
  x.interval.high * 2 ^ x.interval.exponent ≤ (y.interval.low : ℚ) * 2 ^ y.interval.exponent ∧
    ((x.interval.high : ℚ) * 2 ^ x.interval.exponent = y.interval.low * 2 ^ y.interval.exponent →
      x.significand % 2 = 1 ∨ y.significand % 2 = 1)

/-- Of neighbours at one exponent, one is odd. -/
theorem endsBefore_of_same_exponent (canonical : x.Canonical) (same : x.exponent = y.exponent)
    (less : x.significand < y.significand) : x.EndsBefore y := by
  have positive : (0 : ℚ) < 2 ^ y.interval.exponent := by positivity
  have sameUnit : x.interval.exponent = y.interval.exponent := by simp [interval, same]
  have isLow : y.interval.low + 2 = 4 * y.significand := by
    unfold interval
    dsimp only
    rw [if_neg]
    · omega
    · rintro ⟨isPower, above⟩
      have normal := canonical.normal
      omega
  have isHigh : x.interval.high = 4 * x.significand + 2 := rfl
  rw [EndsBefore, sameUnit]
  constructor
  · apply mul_le_mul_of_nonneg_right _ positive.le
    exact_mod_cast (by omega : x.interval.high ≤ y.interval.low)
  · intro meet
    have isEnd : x.interval.high = y.interval.low := by
      exact_mod_cast mul_right_cancel₀ positive.ne' meet
    omega

/-- Above a power of two, where the unit doubles. -/
theorem endsBefore_of_lt_exponent (canonical : x.Canonical) (canonicalNext : y.Canonical)
    (less : x.exponent < y.exponent) : x.EndsBefore y := by
  have positive : (0 : ℚ) < 2 ^ x.interval.exponent := by positivity
  have doubled : 2 * (2 : ℚ) ^ x.interval.exponent ≤ 2 ^ y.interval.exponent := by
    rw [← zpow_one_add₀ two_ne_zero]
    apply zpow_le_zpow_right₀ one_le_two
    simp only [interval]
    omega
  have isHigh : x.interval.high + 2 ≤ 2 ^ 55 := by
    have bounded := canonical.bounded
    have isEnd : x.interval.high = 4 * x.significand + 2 := rfl
    omega
  have isLow : 2 ^ 54 ≤ y.interval.low + 1 := by
    have lowest := canonical.lowest
    have normal := canonicalNext.normal
    unfold interval
    dsimp only
    split <;> omega
  have highest : (x.interval.high : ℚ) * 2 ^ x.interval.exponent ≤
      (2 ^ 55 - 2) * 2 ^ x.interval.exponent := by
    apply mul_le_mul_of_nonneg_right _ positive.le
    have atMost : (x.interval.high : ℚ) + 2 ≤ 2 ^ 55 := by exact_mod_cast isHigh
    linarith
  have between : (2 ^ 55 - 2) * (2 : ℚ) ^ x.interval.exponent ≤
      y.interval.low * 2 ^ y.interval.exponent := by
    have atLeast : (2 : ℚ) ^ 54 ≤ y.interval.low + 1 := by exact_mod_cast isLow
    calc (2 ^ 55 - 2) * (2 : ℚ) ^ x.interval.exponent
        = (2 ^ 54 - 1) * (2 * (2 : ℚ) ^ x.interval.exponent) := by ring
      _ ≤ (y.interval.low : ℚ) * 2 ^ y.interval.exponent :=
          mul_le_mul (by linarith) doubled (by positivity) (by positivity)
  refine ⟨highest.trans between, fun meet => .inl ?_⟩
  -- The ends meet only above the largest significand, which is odd.
  have isLargest : (x.interval.high : ℚ) = 2 ^ 55 - 2 :=
    mul_right_cancel₀ positive.ne' (le_antisymm highest (meet ▸ between))
  have isEnd : x.interval.high = 4 * x.significand + 2 := rfl
  have isLargest : x.interval.high + 2 = 2 ^ 55 := by exact_mod_cast eq_sub_iff_add_eq.mp isLargest
  omega

theorem Precedes.endsBefore (precedes : x.Precedes y) (canonical : x.Canonical)
    (canonicalNext : y.Canonical) : x.EndsBefore y := by
  rcases precedes with less | ⟨same, less⟩
  · exact endsBefore_of_lt_exponent canonical canonicalNext less
  · exact endsBefore_of_same_exponent canonical same less

/-- No value rounds to two numbers. -/
theorem not_contains_of_precedes (canonical : x.Canonical) (canonicalNext : y.Canonical)
    (precedes : x.Precedes y) {value : ℚ} (first : x.interval.Contains value) :
    ¬ y.interval.Contains value := by
  intro second
  obtain ⟨apart, parity⟩ := precedes.endsBefore canonical canonicalNext
  have isHigh : value = x.interval.high * 2 ^ x.interval.exponent :=
    le_antisymm first.bounds.2 (apart.trans second.bounds.1)
  have isLow : value = y.interval.low * 2 ^ y.interval.exponent :=
    le_antisymm (first.bounds.2.trans apart) second.bounds.1
  have evenFirst : x.significand % 2 = 0 := of_decide_eq_true (first.closed_of_end (.inr isHigh))
  have evenSecond : y.significand % 2 = 0 := of_decide_eq_true (second.closed_of_end (.inl isLow))
  rcases parity (isHigh.symm.trans isLow) with odd | odd <;> omega

theorem eq_of_contains (canonical : x.Canonical) (canonicalNext : y.Canonical) {value : ℚ}
    (first : x.interval.Contains value) (second : y.interval.Contains value) :
    x.significand = y.significand ∧ x.exponent = y.exponent := by
  by_contra different
  have ordered : x.Precedes y ∨ y.Precedes x := by
    unfold Precedes
    omega
  rcases ordered with before | after
  · exact not_contains_of_precedes canonical canonicalNext before first second
  · exact not_contains_of_precedes canonicalNext canonical after second first

/-! ## Stored numbers -/

theorem canonical_ofFloat? {number : Float} (finite : ofFloat? number = some x) : x.Canonical := by
  simp only [ofFloat?, Nat.shiftLeft_eq, one_mul] at finite
  split at finite
  · cases finite
  split at finite
  all_goals
    cases finite
    constructor <;> dsimp only <;> omega

/-- Different finite numbers have different exact values. -/
theorem eq_of_ofFloat? {first second : Float} (finite : ofFloat? first = some x)
    (same : ofFloat? second = some x) : first = second := by
  have firstBound := first.toBits.toNat_lt
  have secondBound := second.toBits.toNat_lt
  rw [← Float.toBits_inj, ← UInt64.toNat_inj]
  simp only [ofFloat?, Nat.shiftLeft_eq, Nat.shiftRight_eq_div_pow, one_mul] at finite same
  generalize first.toBits.toNat = firstBits at *
  generalize second.toBits.toNat = secondBits at *
  split at finite
  · cases finite
  split at finite
  all_goals
    cases finite
    split at same
    · cases same
    split at same
    all_goals
      simp only [Option.some.injEq, Scaled.mk.injEq, decide_eq_decide] at same
      omega

/-- There is one bit pattern for what is not a number. -/
theorem toBits_of_fraction {number : Float} (field : (number.toBits.toNat >>> 52) % 0x800 = 2047)
    (fraction : number.toBits.toNat % 2 ^ 52 ≠ 0) : number.toBits = 0x7FF8000000000000 := by
  have isPattern : number.toBits.toBitVec =
      Float.Model.UnpackedFloat.packedNaN Float.Model.Format.binary64 := by
    apply number.toModel.valid.eq_packedNaN
    · apply BitVec.eq_of_toNat_eq
      simp only [Float.Model.UnpackedFloat.unpackExponent, BitVec.toNat_cast,
        BitVec.extractLsb_toNat]
      exact field
    · intro isZero
      apply fraction
      have isZero := congrArg BitVec.toNat isZero
      simp only [Float.Model.UnpackedFloat.unpackMantissa, BitVec.toNat_cast,
        BitVec.extractLsb_toNat] at isZero
      exact isZero
  rw [← UInt64.toBitVec_inj, isPattern]
  rfl

/-- The numbers without an exact value: the two infinities and what is not a number. -/
theorem ofFloat?_eq_none {number : Float} (infinite : ofFloat? number = none) :
    number = Float.ofBits 0x7FF0000000000000 ∨ number = Float.ofBits 0xFFF0000000000000 ∨
      number = Float.ofBits 0x7FF8000000000000 := by
  have bound := number.toBits.toNat_lt
  have field : (number.toBits.toNat >>> 52) % 0x800 = 2047 := by
    unfold ofFloat? at infinite
    dsimp only at infinite
    split at infinite
    · assumption
    · split at infinite <;> cases infinite
  by_cases fraction : number.toBits.toNat % 2 ^ 52 = 0
  · rw [Nat.shiftRight_eq_div_pow] at field
    have patterns : number.toBits = 0x7FF0000000000000 ∨
        number.toBits = 0xFFF0000000000000 := by
      rw [← UInt64.toNat_inj, ← UInt64.toNat_inj]
      show number.toBits.toNat = 0x7FF0000000000000 ∨ number.toBits.toNat = 0xFFF0000000000000
      omega
    rcases patterns with isPattern | isPattern
    · exact .inl (by rw [← isPattern, Float.ofBits_toBits])
    · exact .inr (.inl (by rw [← isPattern, Float.ofBits_toBits]))
  · exact .inr (.inr (by rw [← toBits_of_fraction field fraction, Float.ofBits_toBits]))

end Scaled

end Assay.Number
