import Assay.Proofs.Manifest.Building
import Assay.Proofs.Manifest.Tokens

/-!
Contract: the written form of an expression as a row of tokens.
-/

namespace Assay

theorem Ty.name_ofName {type : String} (isWord : IsWord type.toList) (loc : Location) :
    (Ty.ofName type loc).name = type := by
  unfold ofName
  split
  next isRef bare isSplit =>
  split at isSplit
  · next rest isName =>
    have reference := isWord.2 '@' (isName ▸ List.mem_cons_self)
    exact absurd reference (by decide)
  · cases isSplit
    rfl

namespace Manifest.Expr

/-! ## The tokens of an expression -/

mutual

def tokens : Expr → List Token
  | .int value => [.literal (.int value.toInt)]
  | .real value => [.literal (.real value)]
  | .text value => [.literal (.text value)]
  | .bool value => [.literal (.bool value)]
  | .name spelling => [.name spelling]
  | .group inner => .mark .group :: (tokens inner ++ [.mark .endGroup])
  | .ref inner => .mark .ref :: tokens inner
  | .list values => .mark .list :: (tokensAll [] values ++ [.mark .endList])
  | .chain first rest => tokens first ++ tokensRest rest
  | .construct type values => .construct type :: (tokensAll [] values ++ [.mark .endList])
  | .index source subscript =>
      tokens source ++ .mark .index :: (tokens subscript ++ [.mark .endIndex])

def tokensAll (separator : List Token) : List Expr → List Token
  | [] => []
  | value :: rest => separator ++ (tokens value ++ tokensAll [.mark .comma] rest)

def tokensRest : List (String × Expr) → List Token
  | [] => []
  | (symbol, operand) :: rest =>
      match BinOp.ofSymbol? symbol with
      | some op => .operator op :: (tokens operand ++ tokensRest rest)
      | none => tokensRest rest

end

/-! ## Conditions on all expressions within one -/

mutual

def all (holds : Expr → Bool) : Expr → Bool
  | .group inner => holds (.group inner) && all holds inner
  | .ref inner => holds (.ref inner) && all holds inner
  | .list values => holds (.list values) && allOf holds values
  | .chain first rest => holds (.chain first rest) && (all holds first && allOfRest holds rest)
  | .construct type values => holds (.construct type values) && allOf holds values
  | .index source subscript =>
      holds (.index source subscript) && (all holds source && all holds subscript)
  | leaf => holds leaf

def allOf (holds : Expr → Bool) : List Expr → Bool
  | [] => true
  | value :: rest => all holds value && allOf holds rest

def allOfRest (holds : Expr → Bool) : List (String × Expr) → Bool
  | [] => true
  | (_, operand) :: rest => all holds operand && allOfRest holds rest

end

/-- A name is a word that stands for no literal, and the type of a constructor is a word. -/
def hasPlainSpelling : Expr → Bool
  | .name spelling => decide (IsPlainName spelling)
  | .construct type _ => decide (IsWord type.toList)
  | _ => true

/-! ## The written form -/

section Text

variable (loc : Location)

theorem text_append (first second : List Token) :
    Token.text (first ++ second) = Token.text first ++ Token.text second := by
  simp [Token.text]

mutual

/-- The written form of an expression is made of its tokens. -/
theorem toList_render : ∀ {expr : Expr}, expr.all hasPlainSpelling = true →
    (expr.fold loc Arena.renderStep).toList = Token.text expr.tokens
  | .int _, _ | .real _, _ | .text _, _ | .bool _, _ | .name _, _ => by
    simp [fold, tokens, Arena.renderStep, Token.text, Token.chars]
  | .group inner, plain | .ref inner, plain => by
    have written := toList_render (Bool.and_eq_true_iff.mp plain).2
    simp [fold, tokens, Arena.renderStep, written, Token.text, Token.chars, Mark.chars]
  | .list values, plain => by
    have written := toList_intercalate_render (Bool.and_eq_true_iff.mp plain).2
    simp [fold, tokens, Arena.renderStep, written, Token.text, Token.chars, Mark.chars]
  | .chain first rest, plain => by
    have operands := Bool.and_eq_true_iff.mp (Bool.and_eq_true_iff.mp plain).2
    rw [fold, tokens, toList_renderRest operands.2, toList_render operands.1, text_append]
  | .construct type values, plain => by
    have parts := Bool.and_eq_true_iff.mp plain
    have written := toList_intercalate_render parts.2
    have name := Ty.name_ofName (of_decide_eq_true parts.1) loc
    simp [fold, tokens, Arena.renderStep, written, name, Token.text, Token.chars, Mark.chars]
  | .index source subscript, plain => by
    have operands := Bool.and_eq_true_iff.mp (Bool.and_eq_true_iff.mp plain).2
    have written := toList_render operands.1
    have writtenSubscript := toList_render operands.2
    simp [fold, tokens, Arena.renderStep, written, writtenSubscript, Token.text, Token.chars,
      Mark.chars]

theorem toList_intercalate_render : ∀ {values : List Expr}, allOf hasPlainSpelling values = true →
    (String.intercalate ", " (foldAll loc Arena.renderStep values)).toList =
      Token.text (tokensAll [] values)
  | [], _ => by
    simp [foldAll, tokensAll, Token.text]
  | [value], plain => by
    have written := toList_render (Bool.and_eq_true_iff.mp plain).1
    simp [foldAll, tokensAll, written]
  | value :: next :: rest, plain => by
    have operands := Bool.and_eq_true_iff.mp plain
    have written := toList_render operands.1
    have writtenRest := toList_intercalate_render operands.2
    rw [foldAll] at writtenRest
    rw [foldAll, foldAll, String.intercalate_cons_cons]
    simp [writtenRest, written, tokensAll, Token.text, Token.chars, Mark.chars]

theorem toList_renderRest : ∀ {rest : List (String × Expr)} {left : String},
    allOfRest hasPlainSpelling rest = true →
      (foldRest loc Arena.renderStep left rest).toList = left.toList ++ Token.text (tokensRest rest)
  | [], left, _ => by
    simp [foldRest, tokensRest, Token.text]
  | (symbol, operand) :: rest, left, plain => by
    have operands := Bool.and_eq_true_iff.mp plain
    have written := toList_render operands.1
    rw [foldRest, tokensRest]
    cases BinOp.ofSymbol? symbol with
    | none => exact toList_renderRest operands.2
    | some op =>
      dsimp only
      rw [toList_renderRest operands.2, Arena.renderStep]
      simp [written, Token.text, Token.chars]

end

end Text

/-! ## Plain tokens -/

mutual

theorem plain_tokens : ∀ {expr : Expr}, expr.all hasPlainSpelling = true →
    ∀ token ∈ expr.tokens, token.Plain
  | .int _, _ | .real _, _ | .text _, _ | .bool _, _ => by simp [tokens, Token.Plain]
  | .name _, plain => by simpa [tokens, Token.Plain] using of_decide_eq_true plain
  | .group inner, plain | .ref inner, plain => by
    have inside := plain_tokens (Bool.and_eq_true_iff.mp plain).2
    simpa [tokens, or_imp, forall_and, Token.Plain] using inside
  | .list values, plain => by
    have inside := plain_tokensAll [] (by simp) (Bool.and_eq_true_iff.mp plain).2
    simpa [tokens, or_imp, forall_and, Token.Plain] using inside
  | .chain first rest, plain => by
    have operands := Bool.and_eq_true_iff.mp (Bool.and_eq_true_iff.mp plain).2
    have inside := plain_tokens operands.1
    have behind := plain_tokensRest operands.2
    simpa [tokens, or_imp, forall_and] using ⟨inside, behind⟩
  | .construct type values, plain => by
    have parts := Bool.and_eq_true_iff.mp plain
    have isWord : IsWord type.toList := of_decide_eq_true parts.1
    have inside := plain_tokensAll [] (by simp) parts.2
    simpa [tokens, or_imp, forall_and, Token.Plain] using ⟨isWord, inside⟩
  | .index source subscript, plain => by
    have operands := Bool.and_eq_true_iff.mp (Bool.and_eq_true_iff.mp plain).2
    have first := plain_tokens operands.1
    have second := plain_tokens operands.2
    simpa [tokens, or_imp, forall_and, Token.Plain] using ⟨first, second⟩

theorem plain_tokensAll : ∀ {values : List Expr} (separator : List Token),
    (∀ token ∈ separator, token.Plain) → allOf hasPlainSpelling values = true →
      ∀ token ∈ tokensAll separator values, token.Plain
  | [], _, _, _ => by simp [tokensAll]
  | value :: rest, separator, plainSeparator, plain => by
    have operands := Bool.and_eq_true_iff.mp plain
    have inside := plain_tokens operands.1
    have behind := plain_tokensAll [.mark .comma] (by simp [Token.Plain]) operands.2
    simpa [tokensAll, or_imp, forall_and] using ⟨plainSeparator, inside, behind⟩

theorem plain_tokensRest : ∀ {rest : List (String × Expr)},
    allOfRest hasPlainSpelling rest = true → ∀ token ∈ tokensRest rest, token.Plain
  | [], _ => by simp [tokensRest]
  | (symbol, operand) :: rest, plain => by
    have operands := Bool.and_eq_true_iff.mp plain
    have inside := plain_tokens operands.1
    have behind := plain_tokensRest operands.2
    rw [tokensRest]
    cases BinOp.ofSymbol? symbol with
    | none => exact behind
    | some op => simpa [or_imp, forall_and, Token.Plain] using ⟨inside, behind⟩

end

/-! ## Words and what ends them -/

/-- What may stand behind any token. -/
def Closing (tail : List Token) : Prop :=
  ∀ token ∈ tail.head?, token.endsWord = true

variable {tail : List Token} {token : Token}

theorem spaced_cons_closing (token : Token) (spaced : Token.Spaced tail) (closing : Closing tail) :
    Token.Spaced (token :: tail) :=
  List.isChain_cons.mpr ⟨fun next first _ => closing next first, spaced⟩

theorem spaced_cons_closed (closed : token.isOpen = false) (spaced : Token.Spaced tail) :
    Token.Spaced (token :: tail) :=
  List.isChain_cons.mpr ⟨by simp [closed], spaced⟩

theorem closing_cons (endsWord : token.endsWord = true) (tail : List Token) :
    Closing (token :: tail) := by
  simpa [Closing] using endsWord

theorem closing_tokensAll (values : List Expr) (closing : Closing tail) :
    Closing (tokensAll [.mark .comma] values ++ tail) := by
  cases values with
  | nil => exact closing
  | cons value rest => exact closing_cons rfl _

theorem closing_tokensRest (rest : List (String × Expr)) (closing : Closing tail) :
    Closing (tokensRest rest ++ tail) := by
  induction rest with
  | nil => exact closing
  | cons link rest ih =>
    obtain ⟨symbol, operand⟩ := link
    rw [tokensRest]
    cases BinOp.ofSymbol? symbol with
    | none => exact ih
    | some op => exact closing_cons rfl _

mutual

/-- Within an expression, words stand only before what ends them. -/
theorem spaced_tokens : ∀ (expr : Expr) (tail : List Token), Token.Spaced tail → Closing tail →
    Token.Spaced (expr.tokens ++ tail)
  | .int _, _, spaced, closing | .real _, _, spaced, closing | .text _, _, spaced, closing
  | .bool _, _, spaced, closing | .name _, _, spaced, closing => by
    simpa [tokens] using spaced_cons_closing _ spaced closing
  | .group inner, tail, spaced, closing => by
    have inside := spaced_tokens inner (.mark .endGroup :: tail) (spaced_cons_closed rfl spaced)
      (closing_cons rfl tail)
    simpa [tokens] using spaced_cons_closed rfl inside
  | .ref inner, tail, spaced, closing => by
    have inside := spaced_tokens inner tail spaced closing
    simpa [tokens] using spaced_cons_closed rfl inside
  | .list values, tail, spaced, closing | .construct _ values, tail, spaced, closing => by
    have inside := spaced_tokensAll values [] (.mark .endList :: tail) (.inl rfl)
      (spaced_cons_closed rfl spaced) (closing_cons rfl tail)
    simpa [tokens] using spaced_cons_closed rfl inside
  | .chain first rest, tail, spaced, closing => by
    have inside := spaced_tokens first (tokensRest rest ++ tail)
      (spaced_tokensRest rest tail spaced closing) (closing_tokensRest rest closing)
    simpa [tokens] using inside
  | .index source subscript, tail, spaced, closing => by
    have second := spaced_tokens subscript (.mark .endIndex :: tail)
      (spaced_cons_closed rfl spaced) (closing_cons rfl tail)
    have first := spaced_tokens source (.mark .index :: (subscript.tokens ++
      .mark .endIndex :: tail)) (spaced_cons_closed rfl second) (closing_cons rfl _)
    simpa [tokens] using first

theorem spaced_tokensAll : ∀ (values : List Expr) (separator tail : List Token),
    separator = [] ∨ separator = [.mark .comma] → Token.Spaced tail → Closing tail →
      Token.Spaced (tokensAll separator values ++ tail)
  | [], _, _, _, spaced, _ => spaced
  | value :: rest, separator, tail, isSeparator, spaced, closing => by
    have behind := spaced_tokensAll rest [.mark .comma] tail (.inr rfl) spaced closing
    have inside := spaced_tokens value _ behind (closing_tokensAll rest closing)
    rcases isSeparator with rfl | rfl
    · simpa [tokensAll] using inside
    · simpa [tokensAll] using spaced_cons_closed rfl inside

theorem spaced_tokensRest : ∀ (rest : List (String × Expr)) (tail : List Token),
    Token.Spaced tail → Closing tail → Token.Spaced (tokensRest rest ++ tail)
  | [], _, spaced, _ => spaced
  | (symbol, operand) :: rest, tail, spaced, closing => by
    have behind := spaced_tokensRest rest tail spaced closing
    rw [tokensRest]
    cases BinOp.ofSymbol? symbol with
    | none => exact behind
    | some op =>
      have inside := spaced_tokens operand _ behind (closing_tokensRest rest closing)
      simpa using spaced_cons_closed rfl inside

end

/-- Expressions that are written alike have the same tokens. -/
theorem tokens_eq_of_render_eq {first second : Expr} (plain : first.all hasPlainSpelling = true)
    (plainOther : second.all hasPlainSpelling = true) {loc loc' : Location}
    (same : first.fold loc Arena.renderStep = second.fold loc' Arena.renderStep) :
    first.tokens = second.tokens := by
  have spaced : ∀ expr : Expr, Token.Spaced expr.tokens := by
    intro expr
    have whole := spaced_tokens expr [] .nil (by simp [Closing])
    simpa using whole
  apply Token.eq_of_text_eq (plain_tokens plain) (plain_tokens plainOther) (spaced first)
    (spaced second)
  rw [← toList_render loc plain, ← toList_render loc' plainOther, same]

end Manifest.Expr

end Assay
