import Assay.Fold
import Mathlib.Algebra.Group.Int.Defs
import Mathlib.Tactic.ByContra
import Mathlib.Tactic.SplitIfs

/-!
Contract: arithmetic on machine words against arithmetic on integers.
-/

namespace Assay.Fold

variable {left right result : Int} {stop : FoldStop}

def IsWord (value : Int) : Prop :=
  leastWord ≤ value ∧ value ≤ greatestWord

instance : DecidablePred IsWord := fun value =>
  inferInstanceAs (Decidable (leastWord ≤ value ∧ value ≤ greatestWord))

theorem isWord_iff :
    IsWord result ↔ -0x80000000000000000000000000000000 ≤ result ∧
      result ≤ 0x7FFFFFFFFFFFFFFFFFFFFFFFFFFFFFFF := by
  have least : leastWord = -0x80000000000000000000000000000000 := by decide
  have greatest : greatestWord = 0x7FFFFFFFFFFFFFFFFFFFFFFFFFFFFFFF := by decide
  rw [IsWord, least, greatest]

theorem word_of_isWord (isWord : IsWord result) : word stop result = .ok result :=
  if_pos isWord

theorem word_of_not_isWord (noWord : ¬ IsWord result) : word stop result = .error stop :=
  if_neg noWord

/-! ## Truncated division -/

/-- The least word over minus one has no quotient. -/
def IsTrap (left right : Int) : Prop :=
  left = leastWord ∧ right = -1

instance (left right : Int) : Decidable (IsTrap left right) :=
  inferInstanceAs (Decidable (left = leastWord ∧ right = -1))

theorem isTrap_iff : IsTrap left right ↔
    left = -0x80000000000000000000000000000000 ∧ right = -1 := by
  have least : leastWord = -0x80000000000000000000000000000000 := by decide
  rw [IsTrap, least]

/-- A divisor that is neither zero nor a unit at least halves the dividend. -/
theorem natAbs_tdiv_le_half (left : Int) (large : 2 ≤ right.natAbs) :
    (left.tdiv right).natAbs ≤ left.natAbs / 2 := by
  rw [Int.natAbs_tdiv]
  exact Nat.div_le_div_left large (by decide)

/-- Only the unit divisors leave no remainder of themselves. -/
theorem two_le_natAbs_of_tmod (rest : left.tmod right ≠ 0) (nonzero : right ≠ 0) :
    2 ≤ right.natAbs := by
  have divides : ¬ right ∣ left := fun divides => rest (Int.tmod_eq_zero_of_dvd divides)
  by_contra small
  have unit : right = 1 ∨ right = -1 := by omega
  rcases unit with rfl | rfl
  · exact divides (Int.one_dvd left)
  · exact divides (Int.neg_dvd.mpr (Int.one_dvd left))

theorem isWord_tdiv (leftWord : IsWord left) (nonzero : right ≠ 0)
    (defined : ¬ IsTrap left right) : IsWord (left.tdiv right) := by
  rw [isWord_iff] at leftWord ⊢
  rw [isTrap_iff] at defined
  by_cases large : 2 ≤ right.natAbs
  · have half := natAbs_tdiv_le_half left large
    omega
  · have unit : right = 1 ∨ right = -1 := by omega
    rcases unit with rfl | rfl
    · rw [Int.tdiv_one]
      exact leftWord
    · have negated : left.tdiv (-1) = -left := by rw [Int.tdiv_neg, Int.tdiv_one]
      rw [negated]
      omega

/-- The quotient of the trapping pair is one more than the greatest word. -/
theorem tdiv_of_isTrap (trap : IsTrap left right) :
    left.tdiv right = 0x80000000000000000000000000000000 := by
  obtain ⟨rfl, rfl⟩ := isTrap_iff.mp trap
  decide

theorem remainder_eq (leftWord : IsWord left) (nonzero : right ≠ 0)
    (defined : ¬ IsTrap left right) : remainder left right = .ok (left.tmod right) := by
  rw [remainder, word_of_isWord (isWord_tdiv leftWord nonzero defined)]
  rfl

theorem remainder_of_isTrap (trap : IsTrap left right) :
    remainder left right = .error .trap := by
  have noWord : ¬ IsWord (left.tdiv right) := by
    rw [tdiv_of_isTrap trap, isWord_iff]
    omega
  rw [remainder, word_of_not_isWord noWord]
  rfl

/-! ## Division that rounds down -/

/-- Rounding down is rounding toward zero, less one where a remainder is left and the signs
differ. -/
theorem fdiv_eq_tdiv_corrected (nonzero : right ≠ 0) :
    left.fdiv right =
      if left.tmod right ≠ 0 ∧ ¬ (left < 0 ↔ right < 0) then left.tdiv right - 1
      else left.tdiv right := by
  rw [Int.fdiv_eq_tdiv]
  by_cases divides : right ∣ left
  · rw [if_pos divides, if_neg (by simp [Int.tmod_eq_zero_of_dvd divides]), Int.sub_zero]
  · have rest : left.tmod right ≠ 0 := fun zero => divides (Int.dvd_of_tmod_eq_zero zero)
    rw [if_neg divides]
    rcases Int.lt_or_gt_of_ne nonzero with negative | positive
    · rw [Int.sign_eq_neg_one_of_neg negative]
      split_ifs <;> omega
    · rw [Int.sign_eq_one_of_pos positive]
      split_ifs <;> omega

/-- The remainder of a division that rounds toward zero is smaller than the divisor and not on the
other side of zero than the dividend. -/
theorem tmod_bounds (left : Int) (nonzero : right ≠ 0) :
    (left.tmod right).natAbs < right.natAbs ∧ (0 ≤ left → 0 ≤ left.tmod right) ∧
      (left ≤ 0 → left.tmod right ≤ 0) := by
  refine ⟨?_, fun nonneg => Int.tmod_nonneg right nonneg, fun nonpos => ?_⟩
  · rw [Int.natAbs_tmod]
    exact Nat.mod_lt _ (by omega)
  · have negated := Int.tmod_nonneg right (Int.neg_nonneg_of_nonpos nonpos)
    rw [Int.neg_tmod] at negated
    omega

/-- The remainder of rounding down is that of rounding toward zero, plus the divisor where one is
left and its sign is not that of the divisor. -/
theorem fmod_eq_tmod_corrected (nonzero : right ≠ 0) :
    left.fmod right =
      if left.tmod right ≠ 0 ∧ ¬ (left.tmod right < 0 ↔ right < 0) then left.tmod right + right
      else left.tmod right := by
  obtain ⟨_, aboveZero, belowZero⟩ := tmod_bounds left nonzero
  rw [Int.fmod_eq_tmod]
  by_cases divides : right ∣ left
  · rw [if_pos divides, if_neg (by simp [Int.tmod_eq_zero_of_dvd divides]), Int.add_zero]
  · have rest : left.tmod right ≠ 0 := fun zero => divides (Int.dvd_of_tmod_eq_zero zero)
    rw [if_neg divides]
    split_ifs <;> omega

theorem floorQuotient_zero (left : Int) :
    floorQuotient left 0 = .error (.fault .divisionByZero) :=
  if_pos rfl

theorem floorRemainder_zero (left : Int) :
    floorRemainder left 0 = .error (.fault .divisionByZero) :=
  if_pos rfl

/-- The corrected quotient is the one rounded down, and the correction itself never traps: it is
made only for quotients that are half as large as a word at most. -/
theorem floorQuotient_eq (leftWord : IsWord left) (nonzero : right ≠ 0) :
    floorQuotient left right = word (.fault .overflow) (left.fdiv right) := by
  rw [floorQuotient, if_neg nonzero, fdiv_eq_tdiv_corrected nonzero]
  by_cases trap : IsTrap left right
  · have noWord : ¬ IsWord (left.tdiv right) := by
      rw [tdiv_of_isTrap trap, isWord_iff]
      omega
    have noRest : left.tmod right = 0 := by
      rw [trap.2, Int.tmod_neg, Int.tmod_one]
    rw [word_of_not_isWord noWord, if_neg (by simp [noRest]), word_of_not_isWord noWord]
    rfl
  · have quotientWord := isWord_tdiv leftWord nonzero trap
    rw [word_of_isWord quotientWord, remainder_eq leftWord nonzero trap]
    change (if left.tmod right ≠ 0 ∧ ¬ (left < 0 ↔ right < 0) then
      word .trap (left.tdiv right - 1) else .ok (left.tdiv right)) = _
    split
    · next corrected =>
      have half := natAbs_tdiv_le_half left (two_le_natAbs_of_tmod corrected.1 nonzero)
      have lessWord : IsWord (left.tdiv right - 1) := by
        rw [isWord_iff] at leftWord ⊢
        omega
      rw [word_of_isWord lessWord, word_of_isWord lessWord]
    · rw [word_of_isWord quotientWord]

/-- The corrected remainder is that of rounding down. It lies between zero and the divisor, so the
correction never traps. -/
theorem floorRemainder_eq (leftWord : IsWord left) (rightWord : IsWord right)
    (nonzero : right ≠ 0) (defined : ¬ IsTrap left right) :
    floorRemainder left right = .ok (left.fmod right) := by
  rw [floorRemainder, if_neg nonzero, remainder_eq leftWord nonzero defined,
    fmod_eq_tmod_corrected nonzero]
  change (if left.tmod right ≠ 0 ∧ ¬ (left.tmod right < 0 ↔ right < 0) then
    word .trap (left.tmod right + right) else .ok (left.tmod right)) = _
  split
  · have smaller := (tmod_bounds left nonzero).1
    have sumWord : IsWord (left.tmod right + right) := by
      rw [isWord_iff] at rightWord ⊢
      omega
    exact word_of_isWord sumWord
  · rfl

theorem floorRemainder_of_isTrap (trap : IsTrap left right) :
    floorRemainder left right = .error .trap := by
  have nonzero : right ≠ 0 := by
    rw [trap.2]
    decide
  rw [floorRemainder, if_neg nonzero, remainder_of_isTrap trap]
  rfl

theorem isWord_fmod (rightWord : IsWord right) (nonzero : right ≠ 0) :
    IsWord (left.fmod right) := by
  have smaller := (tmod_bounds left nonzero).1
  rw [isWord_iff] at rightWord ⊢
  rw [fmod_eq_tmod_corrected nonzero]
  split <;> omega

/-! ## Traps -/

theorem word_overflow_ne_trap : word (.fault .overflow) result ≠ .error .trap := by
  unfold word
  split <;> simp

/-- Of all operators on words, only the remainder traps, and only on one pair. -/
theorem intResult_eq_trap_iff {op : BinOp} (leftWord : IsWord left) (rightWord : IsWord right) :
    intResult op left right = .error .trap ↔ op = .mod ∧ IsTrap left right := by
  cases op with
  | add | sub | mul => simp [intResult, word_overflow_ne_trap]
  | xor | and | or | dot => simp [intResult]
  | div =>
    rw [intResult]
    by_cases zero : right = 0
    · simp [zero, floorQuotient_zero]
    · simp [floorQuotient_eq leftWord zero, word_overflow_ne_trap]
  | mod =>
    rw [intResult]
    by_cases zero : right = 0
    · simp [zero, floorRemainder_zero, IsTrap]
    · by_cases trap : IsTrap left right
      · simp [floorRemainder_of_isTrap trap, trap]
      · simp [floorRemainder_eq leftWord rightWord zero trap, trap]

end Assay.Fold
