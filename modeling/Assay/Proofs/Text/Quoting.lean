import Assay.Text.Quoted
import Mathlib.Data.List.Basic

/-!
Contract: reading quoted texts.
-/

namespace Assay.Text

/-! ## Hexadecimal digits -/

def hexDigitValue (c : Char) : Nat :=
  if c.isDigit then c.toNat - '0'.toNat else 10 + (c.toNat - 'a'.toNat)

def hexValue (digits : List Char) : Nat :=
  digits.foldl (fun value c => 16 * value + hexDigitValue c) 0

theorem hexDigitValue_digitChar {digit : Nat} (small : digit < 16) :
    hexDigitValue digit.digitChar = digit := by
  have all : ∀ digit < 16, hexDigitValue (Nat.digitChar digit) = digit := by decide
  exact all digit small

theorem hexValue_toDigits (n : Nat) : hexValue (Nat.toDigits 16 n) = n := by
  induction n using Nat.strongRecOn with
  | ind n ih =>
    by_cases small : n < 16
    · rw [Nat.toDigits_of_lt_base small]
      simp [hexValue, hexDigitValue_digitChar small]
    · have shorter := ih (n / 16) (by omega)
      unfold hexValue at shorter ⊢
      rw [Nat.toDigits_of_base_le (by omega) (by omega), List.foldl_append, shorter,
        List.foldl_cons, List.foldl_nil, hexDigitValue_digitChar (Nat.mod_lt n (by omega))]
      omega

theorem brace_notMem_toDigits (n : Nat) : '}' ∉ Nat.toDigits 16 n := by
  have notDigit : ∀ digit < 16, '}' ≠ Nat.digitChar digit := by decide
  induction n using Nat.strongRecOn with
  | ind n ih =>
    by_cases small : n < 16
    · rw [Nat.toDigits_of_lt_base small, List.mem_singleton]
      exact notDigit n small
    · rw [Nat.toDigits_of_base_le (by omega) (by omega), List.mem_append, List.mem_singleton]
      rintro (earlier | last)
      · exact ih (n / 16) (by omega) earlier
      · exact notDigit _ (Nat.mod_lt n (by omega)) last

/-! ## Characters -/

variable {rest more first second : List Char} {c : Char} {atStart : Bool}

/-- Two lists that go on after the first of a character, which they hold nowhere before. -/
theorem split_at_first (absent : c ∉ first) (absentOther : c ∉ second)
    (same : first ++ c :: rest = second ++ c :: more) : first = second ∧ rest = more := by
  induction first generalizing second with
  | nil =>
    cases second with
    | nil => simpa using same
    | cons d second =>
      simp only [List.nil_append, List.cons_append, List.cons.injEq] at same
      exact absurd (same.1 ▸ List.mem_cons_self) absentOther
  | cons d first ih =>
    cases second with
    | nil =>
      simp only [List.nil_append, List.cons_append, List.cons.injEq] at same
      exact absurd (same.1 ▸ List.mem_cons_self) absent
    | cons e second =>
      simp only [List.cons_append, List.cons.injEq] at same
      simp only [List.mem_cons, not_or] at absent absentOther
      obtain ⟨rfl, tails⟩ := same
      obtain ⟨rfl, rfl⟩ := ih absent.2 absentOther.2 tails
      exact ⟨rfl, rfl⟩

def unescape? : Char → Option Char
  | '0' => some '\x00'
  | 't' => some '\t'
  | 'r' => some '\r'
  | 'n' => some '\n'
  | '\\' => some '\\'
  | '\x27' => some '\x27'
  | '\x22' => some '\x22'
  | _ => none

/-- A character is written by a letter, by its code point or as it is. -/
theorem quotedChar_cases (atStart : Bool) (c : Char) :
    (∃ letter, unescape? letter = some c ∧ (quotedChar atStart c).toList = ['\\', letter]) ∨
      (quotedChar atStart c).toList = '\\' :: 'u' :: '{' :: (Nat.toDigits 16 c.toNat ++ ['}']) ∨
      (c ≠ '\\' ∧ c ≠ '\x22') ∧ (quotedChar atStart c).toList = [c] := by
  unfold quotedChar
  split
  · exact .inl ⟨'0', rfl, rfl⟩
  · exact .inl ⟨'t', rfl, rfl⟩
  · exact .inl ⟨'r', rfl, rfl⟩
  · exact .inl ⟨'n', rfl, rfl⟩
  · exact .inl ⟨'\\', rfl, rfl⟩
  · exact .inl ⟨'\x27', rfl, rfl⟩
  · exact .inl ⟨'\x22', rfl, rfl⟩
  · next notNull notTab notReturn notLine notBackslash notSingle notDouble =>
    split
    · right
      left
      simp [escapedCodePoint]
    · exact .inr (.inr ⟨⟨notBackslash, notDouble⟩, by simp⟩)

/-- The written forms of characters are told apart by what they start with. -/
theorem quotedChar_prefix {d : Char}
    (same : (quotedChar atStart c).toList ++ rest = (quotedChar atStart d).toList ++ more) :
    c = d ∧ rest = more := by
  have notLetter : unescape? 'u' = none := rfl
  rcases quotedChar_cases atStart c with ⟨letter, stands, text⟩ | text | ⟨⟨notSlash, _⟩, text⟩
  all_goals
    rcases quotedChar_cases atStart d with ⟨other, standsOther, textOther⟩ | textOther |
      ⟨⟨notSlashOther, _⟩, textOther⟩
    all_goals
      rw [text, textOther] at same
      simp only [List.cons_append, List.nil_append, List.cons.injEq, List.append_assoc,
        true_and] at same
  · obtain ⟨rfl, rfl⟩ := same
    exact ⟨Option.some.inj (stands.symm.trans standsOther), rfl⟩
  · rw [same.1, notLetter] at stands
    cases stands
  · exact absurd same.1.symm notSlashOther
  · rw [← same.1, notLetter] at standsOther
    cases standsOther
  · obtain ⟨sameDigits, sameRest⟩ := split_at_first (brace_notMem_toDigits c.toNat)
      (brace_notMem_toDigits d.toNat) same
    have sameCode : c.toNat = d.toNat := by
      rw [← hexValue_toDigits c.toNat, sameDigits, hexValue_toDigits]
    exact ⟨Char.toNat_inj.mp sameCode, sameRest⟩
  · exact absurd same.1.symm notSlashOther
  · exact absurd same.1 notSlash
  · exact absurd same.1 notSlash
  · exact same

theorem quotedChar_head (atStart : Bool) (c : Char) :
    ∃ first others, (quotedChar atStart c).toList = first :: others ∧ first ≠ '\x22' := by
  rcases quotedChar_cases atStart c with ⟨letter, _, text⟩ | text | ⟨⟨_, notQuote⟩, text⟩
  · exact ⟨_, _, text, by decide⟩
  · exact ⟨_, _, text, by decide⟩
  · exact ⟨_, _, text, notQuote⟩

/-! ## Texts -/

def quotedChars : Bool → List Char → List Char
  | _, [] => []
  | atStart, c :: rest => (quotedChar atStart c).toList ++ quotedChars false rest

theorem toList_quoted (text : String) :
    (quoted text).toList = '\x22' :: (quotedChars true text.toList ++ ['\x22']) := by
  have joined : ∀ cs, (String.join (cs.map (quotedChar false))).toList = quotedChars false cs := by
    intro cs
    induction cs with
    | nil => rfl
    | cons c cs ih => simp [quotedChars, ← ih]
  unfold quoted
  cases text.toList with
  | nil => rfl
  | cons first rest => simp [quotedChars, joined]

theorem quotedChars_prefix {first second rest more : List Char} {atStart : Bool}
    (same : quotedChars atStart first ++ '\x22' :: rest =
      quotedChars atStart second ++ '\x22' :: more) : first = second ∧ rest = more := by
  induction first generalizing second atStart with
  | nil =>
    cases second with
    | nil => simpa [quotedChars] using same
    | cons d second =>
      obtain ⟨lead, others, text, notQuote⟩ := quotedChar_head atStart d
      simp only [quotedChars, text, List.nil_append, List.cons_append, List.cons.injEq] at same
      exact absurd same.1.symm notQuote
  | cons c first ih =>
    cases second with
    | nil =>
      obtain ⟨lead, others, text, notQuote⟩ := quotedChar_head atStart c
      simp only [quotedChars, text, List.nil_append, List.cons_append, List.cons.injEq] at same
      exact absurd same.1 notQuote
    | cons d second =>
      rw [quotedChars, quotedChars, List.append_assoc, List.append_assoc] at same
      obtain ⟨rfl, tails⟩ := quotedChar_prefix same
      obtain ⟨rfl, rfl⟩ := ih tails
      exact ⟨rfl, rfl⟩

/-- A quoted text ends where its closing quote stands, and no other text is written like it. -/
theorem quoted_prefix {first second : String}
    (same : (quoted first).toList ++ rest = (quoted second).toList ++ more) :
    first = second ∧ rest = more := by
  rw [toList_quoted, toList_quoted] at same
  simp only [List.cons_append, List.append_assoc, List.cons.injEq, true_and,
    List.nil_append] at same
  obtain ⟨sameText, sameRest⟩ := quotedChars_prefix same
  exact ⟨String.toList_injective sameText, sameRest⟩

end Assay.Text
