import Assay.Proofs.Number.Words
import Mathlib.Data.Int.Bitwise
import Mathlib.Data.Rat.Floor

/-!
Contract: operators on integer literals against exact arithmetic.
-/

namespace Assay.Fold

variable {left right result other : Int} {op : BinOp}

/-- The exact result of an operator on two integers. A quotient is rounded down to an integer; a
remainder is what this quotient leaves, and is on the side of the divisor; the bits of an integer
go on without end, as its sign. -/
inductive Exact (left right : Int) : BinOp → Int → Prop
  | add : Exact left right .add (left + right)
  | sub : Exact left right .sub (left - right)
  | mul : Exact left right .mul (left * right)
  | div (nonzero : right ≠ 0) : Exact left right .div ⌊(left / right : ℚ)⌋
  | mod {rest : Int} (nonzero : right ≠ 0) (splits : left = right * ⌊(left / right : ℚ)⌋ + rest)
      (side : rest ≠ 0 → (rest < 0 ↔ right < 0)) : Exact left right .mod rest
  | xor {result : Int}
      (bits : ∀ place, result.testBit place = (left.testBit place ^^ right.testBit place)) :
      Exact left right .xor result
  | and {result : Int}
      (bits : ∀ place, result.testBit place = (left.testBit place && right.testBit place)) :
      Exact left right .and result
  | or {result : Int}
      (bits : ∀ place, result.testBit place = (left.testBit place || right.testBit place)) :
      Exact left right .or result

/-! ## Quotients -/

theorem floor_div_eq_fdiv (nonzero : right ≠ 0) :
    ⌊(left / right : ℚ)⌋ = left.fdiv right := by
  rcases Int.lt_or_gt_of_ne nonzero with negative | positive
  · -- Both signs are turned, so that the divisor is a natural number.
    obtain ⟨divisor, rfl⟩ : ∃ divisor : Nat, right = -divisor := ⟨right.natAbs, by omega⟩
    have turned : ((left : ℚ) / ((-divisor : Int) : ℚ)) = ((-left : Int) : ℚ) / (divisor : ℚ) := by
      push_cast
      rw [div_neg, neg_div]
    rw [turned, Rat.floor_intCast_div_natCast,
      ← Int.fdiv_eq_ediv_of_nonneg (-left) (Int.natCast_nonneg divisor), ← Int.neg_fdiv_neg,
      Int.neg_neg]
  · obtain ⟨divisor, rfl⟩ : ∃ divisor : Nat, right = divisor := ⟨right.natAbs, by omega⟩
    rw [Int.cast_natCast, Rat.floor_intCast_div_natCast,
      ← Int.fdiv_eq_ediv_of_nonneg left (Int.natCast_nonneg divisor)]

theorem exact_fdiv (nonzero : right ≠ 0) : Exact left right .div (left.fdiv right) :=
  floor_div_eq_fdiv nonzero ▸ .div nonzero

theorem exact_fmod (nonzero : right ≠ 0) : Exact left right .mod (left.fmod right) := by
  refine .mod nonzero ?_ fun _ => ?_
  · rw [floor_div_eq_fdiv nonzero]
    exact (Int.mul_fdiv_add_fmod left right).symm
  · rcases Int.lt_or_gt_of_ne nonzero with negative | positive
    · have turned := Int.fmod_nonneg_of_pos (-left) (Int.neg_pos_of_neg negative)
      rw [Int.neg_fmod_neg] at turned
      omega
    · have nonneg := Int.fmod_nonneg_of_pos left positive
      omega

/-! ## Bits -/

/-- The bits of a word are those of its integer, and its sign fills the places beyond them. -/
theorem testBit_toInt {width : Nat} (word : BitVec width) (place : Nat) :
    word.toInt.testBit place = if place < width then word.getLsbD place else word.msb := by
  cases sign : word.msb with
  | false =>
    rw [BitVec.toInt_eq_toNat_of_msb sign]
    change word.toNat.testBit place = _
    split
    · rfl
    · next beyond => exact BitVec.getLsbD_of_ge word place (Nat.le_of_not_lt beyond)
  | true =>
    -- A negative integer has the bits of the complement, turned.
    have complement : word.toInt = Int.negSucc (~~~word).toNat := by
      have bound := word.isLt
      rw [BitVec.toInt_eq_msb_cond, if_pos sign, BitVec.toNat_not, Int.negSucc_eq]
      omega
    rw [complement]
    change (!(~~~word).getLsbD place) = _
    rw [BitVec.getLsbD_not]
    split <;> simp [*]

theorem two_pow_wordBits :
    (2 : Int) ^ (wordBits - 1) = 0x80000000000000000000000000000000 := by
  decide

theorem toInt_ofInt_of_isWord (isWord : IsWord result) :
    (BitVec.ofInt wordBits result).toInt = result := by
  rw [isWord_iff] at isWord
  apply BitVec.toInt_ofInt_eq_self (by decide)
  · rw [two_pow_wordBits]
    omega
  · rw [two_pow_wordBits]
    omega

theorem isWord_onWords (op : BitVec wordBits → BitVec wordBits → BitVec wordBits) :
    IsWord (onWords op left right) := by
  rw [isWord_iff, onWords]
  generalize op (.ofInt wordBits left) (.ofInt wordBits right) = word
  have least := word.le_toInt
  have greatest := word.toInt_lt
  rw [two_pow_wordBits] at least greatest
  omega

/-- An operation that works place by place does so on all the bits of two integers. -/
theorem testBit_onWords {op : BitVec wordBits → BitVec wordBits → BitVec wordBits}
    {onBits : Bool → Bool → Bool}
    (places : ∀ (first second : BitVec wordBits) (place : Nat), place < wordBits →
      (op first second).getLsbD place = onBits (first.getLsbD place) (second.getLsbD place))
    (signs : ∀ first second : BitVec wordBits,
      (op first second).msb = onBits first.msb second.msb)
    (leftWord : IsWord left) (rightWord : IsWord right) (place : Nat) :
    (onWords op left right).testBit place = onBits (left.testBit place) (right.testBit place) := by
  conv_rhs => rw [← toInt_ofInt_of_isWord leftWord, ← toInt_ofInt_of_isWord rightWord]
  rw [onWords, testBit_toInt, testBit_toInt, testBit_toInt]
  split
  · next within => exact places _ _ place within
  · exact signs _ _

/-- Integers with the same bits are the same. -/
theorem eq_of_testBit_eq (same : ∀ place, result.testBit place = other.testBit place) :
    result = other := by
  -- Beyond its own size a natural number has no bits, so the two signs agree.
  have apart : ∀ positive negative : Nat,
      ¬ ∀ place, positive.testBit place = !negative.testBit place := by
    intro positive negative opposite
    have positiveEnds := Nat.testBit_lt_two_pow
      (show positive < 2 ^ (positive + negative) from
        Nat.lt_of_le_of_lt (Nat.le_add_right _ _) Nat.lt_two_pow_self)
    have negativeEnds := Nat.testBit_lt_two_pow
      (show negative < 2 ^ (positive + negative) from
        Nat.lt_of_le_of_lt (Nat.le_add_left _ _) Nat.lt_two_pow_self)
    have contradictory := opposite (positive + negative)
    rw [positiveEnds, negativeEnds] at contradictory
    cases contradictory
  cases result with
  | ofNat first =>
    cases other with
    | ofNat second => exact congrArg Int.ofNat (Nat.eq_of_testBit_eq same)
    | negSucc second => exact absurd same (apart first second)
  | negSucc first =>
    cases other with
    | ofNat second => exact absurd (fun place => (same place).symm) (apart second first)
    | negSucc second =>
      refine congrArg Int.negSucc (Nat.eq_of_testBit_eq fun place => ?_)
      exact Bool.not_inj (same place)

/-! ## Results of operators -/

/-- An operator has at most one exact result. -/
theorem Exact.unique (first : Exact left right op result) (second : Exact left right op other) :
    other = result := by
  cases first with
  | add | sub | mul | div _ =>
    cases second
    rfl
  | mod _ splits _ =>
    cases second with
    | mod _ otherSplits _ => omega
  | xor bits =>
    cases second with
    | xor otherBits => exact eq_of_testBit_eq fun place => by rw [bits, otherBits]
  | and bits =>
    cases second with
    | and otherBits => exact eq_of_testBit_eq fun place => by rw [bits, otherBits]
  | or bits =>
    cases second with
    | or otherBits => exact eq_of_testBit_eq fun place => by rw [bits, otherBits]

/-- Where an operator on two words neither lacks a result nor traps, the machine computes the exact
one, or overflows if that is no word. -/
theorem exists_exact (leftWord : IsWord left) (rightWord : IsWord right) (supported : op ≠ .dot)
    (divisible : ¬ ((op = .div ∨ op = .mod) ∧ right = 0))
    (defined : ¬ (op = .mod ∧ IsTrap left right)) :
    ∃ result, Exact left right op result ∧
      intResult op left right = word (.fault .overflow) result := by
  cases op with
  | add => exact ⟨_, .add, rfl⟩
  | sub => exact ⟨_, .sub, rfl⟩
  | mul => exact ⟨_, .mul, rfl⟩
  | div =>
    have nonzero : right ≠ 0 := by simpa using divisible
    exact ⟨_, exact_fdiv nonzero, floorQuotient_eq leftWord nonzero⟩
  | mod =>
    have nonzero : right ≠ 0 := by simpa using divisible
    have noTrap : ¬ IsTrap left right := by simpa using defined
    refine ⟨_, exact_fmod nonzero, ?_⟩
    rw [word_of_isWord (isWord_fmod rightWord nonzero)]
    exact floorRemainder_eq leftWord rightWord nonzero noTrap
  | xor =>
    refine ⟨_, .xor fun place => ?_, (word_of_isWord (isWord_onWords _)).symm⟩
    exact testBit_onWords (by simp) (by simp) leftWord rightWord place
  | and =>
    refine ⟨_, .and fun place => ?_, (word_of_isWord (isWord_onWords _)).symm⟩
    exact testBit_onWords (by simp) (by simp) leftWord rightWord place
  | or =>
    refine ⟨_, .or fun place => ?_, (word_of_isWord (isWord_onWords _)).symm⟩
    exact testBit_onWords (by simp) (by simp) leftWord rightWord place
  | dot => exact absurd rfl supported

theorem ints_of_error {stop : FoldStop} (stopped : intResult op left right = .error stop) :
    ints op left right = .error stop := by
  rw [ints, stopped]
  rfl

/-- What is no word is no constant either, so the two checks of a result are one. -/
theorem ints_of_word (computed : intResult op left right = word (.fault .overflow) result) :
    ints op left right =
      if -2 ^ 63 ≤ result ∧ result ≤ 2 ^ 64 - 1 then .ok (.int result)
      else .error (.fault .overflow) := by
  by_cases isWord : IsWord result
  · rw [word_of_isWord isWord] at computed
    rw [ints, computed]
    rfl
  · rw [word_of_not_isWord isWord] at computed
    rw [ints_of_error computed, if_neg]
    rw [isWord_iff] at isWord
    omega

/-- Folding two integers is exact, for every operator and all machine words. Member access is not
supported; a quotient or remainder by zero is a division by zero; the remainder of the least word by
minus one traps. In every other case the operator has one exact result, and folding gives it if it
lies between the least signed and the greatest unsigned 64-bit integer, and an overflow if not. -/
theorem integer_folding_exact (op : BinOp) {left right : Int}
    (leftWord : -2 ^ 127 ≤ left ∧ left ≤ 2 ^ 127 - 1)
    (rightWord : -2 ^ 127 ≤ right ∧ right ≤ 2 ^ 127 - 1) :
    (op = .dot → binary op (.int left) (.int right) =
      .error (.fault (.unsupported .dot (.int left) (.int right)))) ∧
    (op = .div ∨ op = .mod → right = 0 →
      binary op (.int left) (.int right) = .error (.fault .divisionByZero)) ∧
    (op = .mod → left = -2 ^ 127 → right = -1 →
      binary op (.int left) (.int right) = .error .trap) ∧
    (op ≠ .dot → ¬ ((op = .div ∨ op = .mod) ∧ right = 0) →
      ¬ (op = .mod ∧ left = -2 ^ 127 ∧ right = -1) →
      ∃ result, (∀ other, Exact left right op other ↔ other = result) ∧
        binary op (.int left) (.int right) =
          if -2 ^ 63 ≤ result ∧ result ≤ 2 ^ 64 - 1 then .ok (.int result)
          else .error (.fault .overflow)) := by
  have leftIsWord : IsWord left := isWord_iff.mpr (by omega)
  have rightIsWord : IsWord right := isWord_iff.mpr (by omega)
  have trapEq : IsTrap left right ↔ left = -2 ^ 127 ∧ right = -1 := by
    rw [isTrap_iff]
    omega
  refine ⟨?_, ?_, ?_, ?_⟩
  · rintro rfl
    exact ints_of_error rfl
  · rintro (rfl | rfl) rfl
    · exact ints_of_error (floorQuotient_zero left)
    · exact ints_of_error (floorRemainder_zero left)
  · rintro rfl isLeast isMinusOne
    exact ints_of_error (floorRemainder_of_isTrap (trapEq.mpr ⟨isLeast, isMinusOne⟩))
  · intro supported divisible defined
    rw [← trapEq] at defined
    obtain ⟨result, exact, computed⟩ :=
      exists_exact leftIsWord rightIsWord supported divisible defined
    refine ⟨result, fun other => ⟨exact.unique, ?_⟩, ints_of_word computed⟩
    rintro rfl
    exact exact

/-- The least word by minus one has a quotient that overflows and a remainder that traps, and the
remainder of `-7` by `2` is on the side of `2`. -/
theorem integer_folding_exact_leastWord :
    binary .div (.int (-2 ^ 127)) (.int (-1)) = .error (.fault .overflow) ∧
    binary .mod (.int (-2 ^ 127)) (.int (-1)) = .error .trap ∧
    binary .mod (.int (-7)) (.int 2) = .ok (.int 1) := by
  have quotient : Exact (-2 ^ 127) (-1) .div (2 ^ 127) := by
    have isQuotient : (-2 ^ 127 : Int).fdiv (-1) = 2 ^ 127 := by decide
    exact isQuotient ▸ exact_fdiv (by decide)
  have rest : Exact (-7) 2 .mod 1 := by
    have isRest : (-7 : Int).fmod 2 = 1 := by decide
    exact isRest ▸ exact_fmod (by decide)
  obtain ⟨_, _, _, overflows⟩ := @integer_folding_exact .div (-2 ^ 127) (-1) (by decide) (by decide)
  obtain ⟨_, _, traps, _⟩ := @integer_folding_exact .mod (-2 ^ 127) (-1) (by decide) (by decide)
  obtain ⟨_, _, _, fits⟩ := @integer_folding_exact .mod (-7) 2 (by decide) (by decide)
  refine ⟨?_, traps rfl rfl rfl, ?_⟩
  · obtain ⟨result, exact, folded⟩ := overflows (by decide) (by decide) (by decide)
    rw [← (exact _).mp quotient] at folded
    rw [folded, if_neg (by decide)]
  · obtain ⟨result, exact, folded⟩ := fits (by decide) (by decide) (by decide)
    rw [← (exact _).mp rest] at folded
    rw [folded, if_pos (by decide)]

end Assay.Fold
