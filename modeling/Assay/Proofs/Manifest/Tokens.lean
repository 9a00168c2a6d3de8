import Assay.Expr.View
import Assay.Manifest.Basic
import Assay.Proofs.Number.Reading
import Assay.Proofs.Text.Quoting

/-!
Contract: the tokens of written expressions.
-/

namespace Assay

open Number.Numeral.Parts (startsNumeral)

/-! ## Words -/

/-- The characters that no word contains. -/
def isDelimiter (c : Char) : Bool :=
  c ∈ [' ', ',', '(', ')', '[', ']', '{', '}', '\x22', '@']

def IsWord (word : List Char) : Prop :=
  word ≠ [] ∧ ∀ c ∈ word, isDelimiter c = false

instance (word : List Char) : Decidable (IsWord word) :=
  decidable_of_iff (word ≠ [] ∧ word.all (! isDelimiter ·) = true) (by simp [IsWord])

/-- Words end at the first delimiter. -/
theorem IsWord.split {first second rest more : List Char} (isWord : IsWord first)
    (isWordOther : IsWord second) (stops : ∀ c ∈ rest.head?, isDelimiter c = true)
    (stopsOther : ∀ c ∈ more.head?, isDelimiter c = true) (same : first ++ rest = second ++ more) :
    first = second ∧ rest = more := by
  have span : ∀ {word rest : List Char}, IsWord word → (∀ c ∈ rest.head?, isDelimiter c = true) →
      (word ++ rest).takeWhile (! isDelimiter ·) = word ∧
        (word ++ rest).dropWhile (! isDelimiter ·) = rest := by
    intro word rest isWord stops
    apply Number.Numeral.Parts.span_while
    · simpa using isWord.2
    · simpa using stops
  have firstSpan := span isWord stops
  have secondSpan := span isWordOther stopsOther
  rw [same] at firstSpan
  exact ⟨firstSpan.1.symm.trans secondSpan.1, firstSpan.2.symm.trans secondSpan.2⟩

def reservedWords : List String :=
  ["true", "false", "inf", "-inf", "NaN"]

def IsPlainName (spelling : String) : Prop :=
  IsWord spelling.toList ∧ startsNumeral spelling.toList = false ∧ spelling ∉ reservedWords

instance (spelling : String) : Decidable (IsPlainName spelling) :=
  inferInstanceAs (Decidable (_ ∧ _))

namespace Literal

def isBare : Literal → Bool
  | .text _ => false
  | _ => true

theorem isWord_numeral {parts : Number.Numeral.Parts} (wellFormed : parts.WellFormed) :
    IsWord parts.chars := by
  constructor
  · intro isNil
    have starts := wellFormed.startsNumeral
    rw [isNil] at starts
    cases starts
  · intro c member
    cases delimits : isDelimiter c with
    | false => rfl
    | true =>
      have numeric := wellFormed.mem_chars member
      simp only [isDelimiter, List.mem_cons, List.not_mem_nil, or_false,
        decide_eq_true_eq] at delimits
      rcases delimits with rfl | rfl | rfl | rfl | rfl | rfl | rfl | rfl | rfl | rfl <;>
        exact absurd numeric (by decide)

/-- A literal other than a text is a numeral or a reserved word. -/
theorem render_cases {literal : Literal} (bare : literal.isBare = true) :
    IsWord literal.render.toList ∧
      (startsNumeral literal.render.toList = true ∨ literal.render ∈ reservedWords) := by
  cases literal with
  | bool value => cases value <;> decide +kernel
  | int value =>
    have wellFormed := Number.Numeral.wellFormed_integerParts value
    rw [render, Number.Numeral.toList_toString]
    exact ⟨isWord_numeral wellFormed, .inl wellFormed.startsNumeral⟩
  | real value =>
    rw [render]
    rcases realText_cases value with ⟨scaled, _, text⟩ | ⟨_, text⟩ | ⟨_, text⟩ | ⟨_, text⟩
    · have wellFormed := realLayout.wellFormed_parts scaled
      rw [text, Number.Layout.toList_finite]
      exact ⟨isWord_numeral wellFormed, .inl wellFormed.startsNumeral⟩
    all_goals
      rw [text]
      decide +kernel
  | text value => cases bare

theorem startsNumeral_toString (value : Int) : startsNumeral (toString value).toList = true := by
  rw [Number.Numeral.toList_toString]
  exact (Number.Numeral.wellFormed_integerParts value).startsNumeral

def sort : Literal → Option Bool
  | .bool _ => none
  | .int _ => some true
  | _ => some false

def writtenSort (text : String) : Option Bool :=
  if startsNumeral text.toList then some (Number.Numeral.ofText text).isInteger
  else if text ∈ ["true", "false"] then none else some false

/-- Only the numeral of an integer has neither a point nor an exponent. -/
theorem writtenSort_render {literal : Literal} (bare : literal.isBare = true) :
    writtenSort literal.render = literal.sort := by
  cases literal with
  | bool value => cases value <;> decide +kernel
  | int value =>
    rw [render, writtenSort, if_pos (startsNumeral_toString value),
      (Number.Numeral.wellFormed_integerParts value).ofText_eq (Number.Numeral.toList_toString value)]
    rfl
  | real value =>
    change writtenSort (realText value) = some false
    rcases realText_cases value with ⟨scaled, _, text⟩ | ⟨_, text⟩ | ⟨_, text⟩ | ⟨_, text⟩
    · rw [text, writtenSort, if_pos (startsNumeral_finite scaled), Number.Layout.ofText_finite,
        Number.Layout.isInteger_parts]
    all_goals
      rw [text]
      decide +kernel
  | text _ => cases bare

/-- Literals other than texts are known by their words. -/
theorem eq_of_render_eq {first second : Literal} (bare : first.isBare = true)
    (bareOther : second.isBare = true) (same : first.render = second.render) : first = second := by
  have sorts := writtenSort_render bare
  rw [same, writtenSort_render bareOther] at sorts
  cases first with
  | bool value =>
    cases second with
    | bool other =>
      cases value <;> cases other <;> first | rfl | exact absurd same (by decide +kernel)
    | int _ | real _ => cases sorts
    | text _ => cases bareOther
  | int value =>
    cases second with
    | int other =>
      have read := Number.Numeral.int?_ofText_toString value
      rw [show toString value = toString other from same,
        Number.Numeral.int?_ofText_toString] at read
      cases read
      rfl
    | bool _ | real _ => cases sorts
    | text _ => cases bareOther
  | real value =>
    cases second with
    | real other => rw [eq_of_realText_eq same]
    | bool _ | int _ => cases sorts
    | text _ => cases bareOther
  | text _ => cases bare

end Literal

/-! ## Tokens -/

namespace Manifest

inductive Mark where
  | ref
  | comma
  | group
  | list
  | index
  | endGroup
  | endList
  | endIndex
deriving DecidableEq, Repr

def Mark.chars : Mark → List Char
  | .ref => ['@']
  | .comma => [',', ' ']
  | .group => ['(']
  | .list => ['{']
  | .index => ['[']
  | .endGroup => [')']
  | .endList => ['}']
  | .endIndex => [']']

/-- Marks are told apart by their first characters. -/
theorem Mark.eq_of_head? {first second : Mark} (same : first.chars.head? = second.chars.head?) :
    first = second := by
  cases first <;> cases second <;> first | rfl | exact absurd same (by decide)

/-- A token of a written expression. The type of a constructor and the list it opens are one. -/
inductive Token where
  | literal (value : Literal)
  | name (spelling : String)
  | construct (type : String)
  | operator (op : BinOp)
  | mark (kind : Mark)

namespace Token

def chars : Token → List Char
  | .literal value => value.render.toList
  | .name spelling => spelling.toList
  | .construct type => type.toList ++ ['{']
  | .operator op => ' ' :: (op.symbol.toList ++ [' '])
  | .mark kind => kind.chars

/-- The spellings in a token are words, and those of names stand for no literal. -/
def Plain : Token → Prop
  | .name spelling => IsPlainName spelling
  | .construct type => IsWord type.toList
  | _ => True

/-- A token that goes on until something ends it. -/
def isOpen : Token → Bool
  | .literal value => value.isBare
  | .name _ => true
  | _ => false

/-- The delimiter that a token starts with, unless it starts with a word. -/
def lead? : Token → Option Char
  | .literal (.text _) => some '\x22'
  | .literal _ | .name _ | .construct _ => none
  | .operator _ => some ' '
  | .mark kind => kind.chars.head?

/-- What is left behind an open token ends it. A list that opens there would make it a
constructor. -/
def Ends (rest : List Char) : Prop :=
  ∀ c ∈ rest.head?, isDelimiter c = true ∧ c ≠ '{'

variable {token other : Token} {rest more : List Char}

theorem isWord_chars (plain : token.Plain) (isOpen : token.isOpen = true) : IsWord token.chars := by
  cases token with
  | literal value => exact (Literal.render_cases isOpen).1
  | name spelling => exact plain.1
  | construct _ | operator _ | mark _ => cases isOpen

theorem lead?_of_isOpen (isOpen : token.isOpen = true) : token.lead? = none := by
  cases token with
  | literal value =>
    cases value with
    | text _ => cases isOpen
    | bool _ | int _ | real _ => rfl
  | name spelling => rfl
  | construct _ | operator _ | mark _ => cases isOpen

/-- A token starts with its delimiter or with a word. -/
theorem chars_head (plain : token.Plain) :
    ∃ c others, token.chars = c :: others ∧
      token.lead? = if isDelimiter c then some c else none := by
  have word : ∀ {chars : List Char}, IsWord chars → ∀ more,
      ∃ c others, chars ++ more = c :: others ∧ none = if isDelimiter c then some c else none := by
    intro chars isWord more
    obtain ⟨c, others, rfl⟩ := List.exists_cons_of_ne_nil isWord.1
    refine ⟨c, others ++ more, rfl, ?_⟩
    rw [isWord.2 c List.mem_cons_self]
    rfl
  cases isOpen : token.isOpen with
  | true =>
    rw [lead?_of_isOpen isOpen, ← List.append_nil token.chars]
    exact word (isWord_chars plain isOpen) []
  | false =>
    cases token with
    | literal value =>
      cases value with
      | text value => exact ⟨_, _, Text.toList_quoted value, rfl⟩
      | bool _ | int _ | real _ => cases isOpen
    | name _ => cases isOpen
    | construct type => exact word plain ['{']
    | operator op => exact ⟨' ', _, rfl, rfl⟩
    | mark kind => cases kind <;> exact ⟨_, _, rfl, rfl⟩

theorem lead?_eq (plain : token.Plain) (plainOther : other.Plain)
    (same : token.chars ++ rest = other.chars ++ more) : token.lead? = other.lead? := by
  obtain ⟨c, others, isChars, lead⟩ := chars_head plain
  obtain ⟨d, othersToo, isCharsOther, leadOther⟩ := chars_head plainOther
  rw [isChars, isCharsOther] at same
  rw [lead, leadOther, (List.cons.inj same).1]

/-- Literals and names are known by their words. -/
theorem eq_of_word (plain : token.Plain) (plainOther : other.Plain) (isOpen : token.isOpen = true)
    (isOpenOther : other.isOpen = true) (same : token.chars = other.chars) : token = other := by
  have apart : ∀ {literal : Literal} {spelling : String}, literal.isBare = true →
      IsPlainName spelling → literal.render.toList ≠ spelling.toList := by
    intro literal spelling bare plain same
    rcases (Literal.render_cases bare).2 with starts | reserved
    · rw [same, plain.2.1] at starts
      cases starts
    · exact plain.2.2 (String.toList_injective same ▸ reserved)
  cases token with
  | literal value =>
    cases other with
    | literal value' =>
      rw [Literal.eq_of_render_eq isOpen isOpenOther (String.toList_injective same)]
    | name spelling => exact absurd same (apart isOpen plainOther)
    | construct _ | operator _ | mark _ => cases isOpenOther
  | name spelling =>
    cases other with
    | literal value => exact absurd same.symm (apart isOpenOther plain)
    | name spelling' => rw [String.toList_injective same]
    | construct _ | operator _ | mark _ => cases isOpenOther
  | construct _ | operator _ | mark _ => cases isOpen

/-- A word that is followed by what ends it is not the type of a constructor. -/
theorem word_ne_construct {type : String} (plain : token.Plain) (isOpen : token.isOpen = true)
    (isWord : IsWord type.toList) (ends : Ends rest) :
    token.chars ++ rest ≠ chars (.construct type) ++ more := by
  intro same
  rw [chars, List.append_assoc] at same
  have split := (isWord_chars plain isOpen).split isWord (fun c first => (ends c first).1)
    (by simp [isDelimiter]) same
  exact (ends '{' (by rw [split.2]; rfl)).2 rfl

theorem exists_construct (notOpen : ¬ token.isOpen = true) (noLead : token.lead? = none) :
    ∃ type, token = .construct type := by
  cases token with
  | literal value =>
    cases value with
    | text _ => cases noLead
    | bool _ | int _ | real _ => exact absurd rfl notOpen
  | name _ => exact absurd rfl notOpen
  | construct type => exact ⟨type, rfl⟩
  | operator _ => cases noLead
  | mark kind => cases kind <;> cases noLead

theorem exists_text (lead : token.lead? = some '\x22') : ∃ value, token = .literal (.text value) := by
  cases token with
  | literal value =>
    cases value with
    | text value => exact ⟨value, rfl⟩
    | bool _ | int _ | real _ => cases lead
  | name _ | construct _ => cases lead
  | operator _ => simp [lead?] at lead
  | mark kind => cases kind <;> simp [lead?, Mark.chars] at lead

theorem exists_operator (lead : token.lead? = some ' ') : ∃ op, token = .operator op := by
  cases token with
  | literal value =>
    cases value with
    | text _ => simp [lead?] at lead
    | bool _ | int _ | real _ => cases lead
  | name _ | construct _ => cases lead
  | operator op => exact ⟨op, rfl⟩
  | mark kind => cases kind <;> simp [lead?, Mark.chars] at lead

theorem eq_mark {kind : Mark} (lead : token.lead? = kind.chars.head?) : token = .mark kind := by
  cases token with
  | literal value => cases value <;> cases kind <;> simp [lead?, Mark.chars] at lead
  | name _ | construct _ | operator _ => cases kind <;> simp [lead?, Mark.chars] at lead
  | mark other => rw [Mark.eq_of_head? lead]

theorem eq_of_append_operator {op op' : BinOp}
    (same : chars (.operator op) ++ rest = chars (.operator op') ++ more) :
    op = op' ∧ rest = more := by
  have single : ∀ op : BinOp, ∃ c, op.symbol.toList = [c] := by
    intro op
    cases op <;> exact ⟨_, rfl⟩
  obtain ⟨c, isSymbol⟩ := single op
  obtain ⟨d, isSymbolOther⟩ := single op'
  simp only [chars, isSymbol, isSymbolOther, List.cons_append, List.nil_append, List.cons.injEq,
    true_and] at same
  have sameSymbol : op.symbol = op'.symbol := by
    apply String.toList_injective
    rw [isSymbol, isSymbolOther, same.1]
  have known := BinOp.ofSymbol?_symbol op
  rw [sameSymbol, BinOp.ofSymbol?_symbol] at known
  exact ⟨(Option.some.inj known).symm, same.2⟩

/-- Tokens that end by themselves are known by what they start with. -/
theorem eq_of_append_closed (plain : token.Plain) (plainOther : other.Plain)
    (notOpen : ¬ token.isOpen = true) (notOpenOther : ¬ other.isOpen = true)
    (same : token.chars ++ rest = other.chars ++ more) : token = other ∧ rest = more := by
  have sameLead := lead?_eq plain plainOther same
  cases token with
  | literal value =>
    cases value with
    | text value =>
      obtain ⟨value', rfl⟩ := exists_text sameLead.symm
      obtain ⟨rfl, rfl⟩ := Text.quoted_prefix same
      exact ⟨rfl, rfl⟩
    | bool _ | int _ | real _ => exact absurd rfl notOpen
  | name _ => exact absurd rfl notOpen
  | construct type =>
    obtain ⟨type', rfl⟩ := exists_construct notOpenOther sameLead.symm
    rw [chars, chars, List.append_assoc, List.append_assoc] at same
    have split := IsWord.split plain plainOther (by simp [isDelimiter]) (by simp [isDelimiter]) same
    exact ⟨by rw [String.toList_injective split.1], (List.cons.inj split.2).2⟩
  | operator op =>
    obtain ⟨op', rfl⟩ := exists_operator sameLead.symm
    obtain ⟨rfl, rfl⟩ := eq_of_append_operator same
    exact ⟨rfl, rfl⟩
  | mark kind =>
    obtain rfl := eq_mark sameLead.symm
    exact ⟨rfl, List.append_cancel_left same⟩

/-- A text is cut behind its first token in one way. -/
theorem eq_of_append (plain : token.Plain) (plainOther : other.Plain)
    (ends : token.isOpen = true → Ends rest) (endsOther : other.isOpen = true → Ends more)
    (same : token.chars ++ rest = other.chars ++ more) : token = other ∧ rest = more := by
  have sameLead := lead?_eq plain plainOther same
  by_cases isOpen : token.isOpen = true <;> by_cases isOpenOther : other.isOpen = true
  · have split := (isWord_chars plain isOpen).split (isWord_chars plainOther isOpenOther)
      (fun c first => (ends isOpen c first).1) (fun c first => (endsOther isOpenOther c first).1) same
    exact ⟨eq_of_word plain plainOther isOpen isOpenOther split.1, split.2⟩
  · obtain ⟨type, rfl⟩ := exists_construct isOpenOther (sameLead ▸ lead?_of_isOpen isOpen)
    exact absurd same (word_ne_construct plain isOpen plainOther (ends isOpen))
  · obtain ⟨type, rfl⟩ := exists_construct isOpen (sameLead ▸ lead?_of_isOpen isOpenOther)
    exact absurd same.symm (word_ne_construct plainOther isOpenOther plain (endsOther isOpenOther))
  · exact eq_of_append_closed plain plainOther isOpen isOpenOther same

/-! ## Tokens in a row -/

def text (tokens : List Token) : List Char :=
  tokens.flatMap chars

def endsWord : Token → Bool
  | .operator _ => true
  | .mark kind => kind ∈ [.comma, .index, .endGroup, .endList, .endIndex]
  | _ => false

/-- Behind every word stands a token that ends it. -/
def Spaced (tokens : List Token) : Prop :=
  tokens.IsChain fun token next => token.isOpen = true → next.endsWord = true

theorem ends_chars (endsWord : token.endsWord = true) : Ends (token.chars ++ rest) := by
  cases token with
  | operator op => simp [Ends, chars, isDelimiter]
  | mark kind =>
    cases kind with
    | ref | group | list => cases endsWord
    | _ => simp [Ends, chars, Mark.chars, isDelimiter]
  | literal _ | name _ | construct _ => cases endsWord

theorem Spaced.ends {tokens : List Token} (spaced : Spaced (token :: tokens))
    (isOpen : token.isOpen = true) : Ends (text tokens) := by
  cases tokens with
  | nil => simp [Ends, text]
  | cons next tokens =>
    have endsWord := (List.isChain_cons_cons.mp spaced).1 isOpen
    rw [text, List.flatMap_cons]
    exact ends_chars endsWord

theorem text_cons_ne_nil (plain : token.Plain) (tokens : List Token) : text (token :: tokens) ≠ [] := by
  obtain ⟨c, others, isChars, _⟩ := chars_head plain
  rw [text, List.flatMap_cons, isChars]
  simp

/-- A text is cut into tokens in one way. -/
theorem eq_of_text_eq {first second : List Token} (plain : ∀ token ∈ first, token.Plain)
    (plainOther : ∀ token ∈ second, token.Plain) (spaced : Spaced first)
    (spacedOther : Spaced second) (same : text first = text second) : first = second := by
  induction first generalizing second with
  | nil =>
    cases second with
    | nil => rfl
    | cons other second =>
      exact absurd same.symm (text_cons_ne_nil (plainOther other List.mem_cons_self) second)
  | cons token first ih =>
    cases second with
    | nil => exact absurd same (text_cons_ne_nil (plain token List.mem_cons_self) first)
    | cons other second =>
      obtain ⟨rfl, tails⟩ := eq_of_append (plain token List.mem_cons_self)
        (plainOther other List.mem_cons_self) spaced.ends spacedOther.ends same
      rw [ih (fun token member => plain token (List.mem_cons_of_mem _ member))
        (fun token member => plainOther token (List.mem_cons_of_mem _ member))
        (List.isChain_cons.mp spaced).2 (List.isChain_cons.mp spacedOther).2 tails]

end Token

end Manifest

end Assay
