import Assay.Proofs.Manifest.Writing

/-!
Contract: written expressions have one meaning.
-/

namespace Assay

namespace Manifest

variable {α : Type}

/-! ## Reading tokens -/

/-- What becomes of the values between two brackets. -/
inductive Bracket (α : Type) where
  | group
  | list
  | construct (type : String)
  | index (source : Option α)

/-- What has been read since a bracket opened: complete elements, and after the last comma an
operator that waits for its right operand and the last operand. -/
structure Frame (α : Type) where
  bracket : Bracket α
  elements : List α := []
  pending : Option (α × BinOp) := none
  operand : Option α := none

section Reader

variable (loc : Location) (step : Shape α → α)

namespace Frame

def value? (frame : Frame α) : Option α :=
  match frame.pending with
  | none => frame.operand
  | some (left, op) => frame.operand.map fun right => step (.binary op left right)

def collected (frame : Frame α) : List α :=
  frame.elements ++ (frame.value? step).toList

def next (frame : Frame α) : Frame α where
  bracket := frame.bracket
  elements := frame.collected step

def result (frame : Frame α) : Option α :=
  match frame.bracket with
  | .group => frame.value? step
  | .list => some (step (.list (frame.collected step)))
  | .construct type =>
      some (step (.construct (.ofName type loc) (step (.list (frame.collected step)))))
  | .index source =>
      source.bind fun value => (frame.value? step).map fun subscript =>
        step (.index value subscript)

end Frame

/-- Read one token, the innermost bracket first. Groups and references are passed over. -/
def read : List (Frame α) → Token → List (Frame α)
  | frame :: below, .literal value =>
      { frame with operand := some (step (.literal value)) } :: below
  | frame :: below, .name spelling =>
      { frame with operand := some (step (.name spelling)) } :: below
  | frame :: below, .operator op =>
      { frame with pending := (frame.value? step).map (·, op), operand := none } :: below
  | frame :: below, .construct type => { bracket := .construct type } :: frame :: below
  | frame :: below, .mark .comma => frame.next step :: below
  | frame :: below, .mark .group => { bracket := .group } :: frame :: below
  | frame :: below, .mark .list => { bracket := .list } :: frame :: below
  | frame :: below, .mark .index => { bracket := .index frame.operand } :: frame :: below
  | frame :: outer :: below, .mark .endGroup | frame :: outer :: below, .mark .endList
  | frame :: outer :: below, .mark .endIndex =>
      { outer with operand := frame.result loc step } :: below
  | frames, _ => frames

def readAll (frames : List (Frame α)) (tokens : List Token) : List (Frame α) :=
  tokens.foldl (read loc step) frames

end Reader

namespace Expr

def isClosed : Expr → Bool
  | .ref inner => isClosed inner
  | .chain first [] => isClosed first
  | .chain _ (_ :: _) => false
  | _ => true

/-- Operands to the right of an operator and what is indexed are closed. -/
def isGrouped : Expr → Bool
  | .chain _ rest => rest.all fun link => link.2.isClosed
  | .index source _ => source.isClosed
  | _ => true

section Reads

variable (loc : Location) (step : Shape α → α)

/-- The reader arrives at the value of an expression: whatever stands before a closed one, and else
if no operator waits for its right operand. -/
structure Reads (expr : Expr) : Prop where
  closed : expr.isClosed = true → ∀ frame below,
    readAll loc step (frame :: below) expr.tokens =
      { frame with operand := some (expr.fold loc step) } :: below
  fresh : ∀ (frame : Frame α) (below : List (Frame α)), frame.pending = none →
    ∃ pending operand, readAll loc step (frame :: below) expr.tokens =
        { frame with pending := pending, operand := operand } :: below ∧
      Frame.value? step { frame with pending := pending, operand := operand } =
        some (expr.fold loc step)

variable {loc step}

theorem Reads.of_closed {expr : Expr} (reads : ∀ (frame : Frame α) (below : List (Frame α)),
    readAll loc step (frame :: below) expr.tokens =
      { frame with operand := some (expr.fold loc step) } :: below) : Reads loc step expr where
  closed := fun _ => reads
  fresh := by
    intro frame below isFresh
    refine ⟨none, some (expr.fold loc step), ?_, rfl⟩
    rw [reads, ← isFresh]

theorem readAll_append (frames : List (Frame α)) (first second : List Token) :
    readAll loc step frames (first ++ second) =
      readAll loc step (readAll loc step frames first) second :=
  List.foldl_append

theorem readAll_cons (frames : List (Frame α)) (token : Token) (tokens : List Token) :
    readAll loc step frames (token :: tokens) =
      readAll loc step (read loc step frames token) tokens :=
  rfl

def ReadsAll (loc : Location) (step : Shape α → α) (values : List Expr) : Prop :=
  ∀ (separator : List Token) (frame : Frame α) (below : List (Frame α)),
    readAll loc step (frame :: below) separator = frame.next step :: below →
      ∃ last : Frame α, readAll loc step (frame :: below) (tokensAll separator values) =
          last :: below ∧ last.bracket = frame.bracket ∧
        last.collected step = frame.collected step ++ foldAll loc step values

/-- The operators of a chain are applied to what was read before it. -/
def ReadsRest (loc : Location) (step : Shape α → α) (rest : List (String × Expr)) : Prop :=
  ∀ (frame : Frame α) (below : List (Frame α)) (left : α), frame.value? step = some left →
    ∃ pending operand, readAll loc step (frame :: below) (tokensRest rest) =
        { frame with pending := pending, operand := operand } :: below ∧
      Frame.value? step { frame with pending := pending, operand := operand } =
        some (foldRest loc step left rest)

end Reads

/-- Groups and references have the values of what stands in them. -/
def Transparent (step : Shape α → α) : Prop :=
  ∀ op child, step (.unary op child) = child

section Grouped

variable {loc : Location} {step : Shape α → α}

mutual

/-- The reader arrives at the fold of an expression whose open operands stand in groups. -/
theorem reads_of_grouped (transparent : Transparent step) : ∀ {expr : Expr},
    expr.all isGrouped = true → Reads loc step expr
  | .int _, _ | .real _, _ | .text _, _ | .bool _, _ | .name _, _ => .of_closed fun _ _ => rfl
  | .group inner, grouped => by
    have inside := reads_of_grouped transparent (Bool.and_eq_true_iff.mp grouped).2
    apply Reads.of_closed
    intro frame below
    obtain ⟨pending, operand, reads, value⟩ :=
      inside.fresh { bracket := .group } (frame :: below) rfl
    rw [tokens, readAll_cons, readAll_append, fold, transparent, ← value]
    exact congrArg (readAll loc step · [.mark .endGroup]) reads
  | .ref inner, grouped => by
    have inside := reads_of_grouped transparent (Bool.and_eq_true_iff.mp grouped).2
    constructor
    · intro isClosed frame below
      rw [tokens, fold, transparent]
      exact inside.closed isClosed frame below
    · intro frame below isFresh
      rw [tokens, fold, transparent]
      exact inside.fresh frame below isFresh
  | .list values, grouped => by
    have inside := readsAll_of_grouped transparent (Bool.and_eq_true_iff.mp grouped).2
    apply Reads.of_closed
    intro frame below
    obtain ⟨last, reads, isBracket, collected⟩ :=
      inside [] { bracket := .list } (frame :: below) rfl
    have result : last.result loc step = some (step (.list (foldAll loc step values))) := by
      rw [Frame.result, isBracket, collected]
      rfl
    rw [tokens, readAll_cons, readAll_append, fold, ← result]
    exact congrArg (readAll loc step · [.mark .endList]) reads
  | .chain first rest, grouped => by
    have parts := Bool.and_eq_true_iff.mp grouped
    have operands := Bool.and_eq_true_iff.mp parts.2
    have start := reads_of_grouped transparent operands.1
    have behind := readsRest_of_grouped transparent parts.1 operands.2
    constructor
    · intro isClosed frame below
      cases rest with
      | nil =>
        rw [tokens, tokensRest, List.append_nil]
        exact start.closed isClosed frame below
      | cons link rest => cases isClosed
    · intro frame below isFresh
      obtain ⟨pending, operand, reads, value⟩ := start.fresh frame below isFresh
      rw [tokens, readAll_append, reads]
      exact behind _ below _ value
  | .construct type values, grouped => by
    have inside := readsAll_of_grouped transparent (Bool.and_eq_true_iff.mp grouped).2
    apply Reads.of_closed
    intro frame below
    obtain ⟨last, reads, isBracket, collected⟩ :=
      inside [] { bracket := .construct type } (frame :: below) rfl
    have result : last.result loc step =
        some (step (.construct (.ofName type loc) (step (.list (foldAll loc step values))))) := by
      rw [Frame.result, isBracket, collected]
      rfl
    rw [tokens, readAll_cons, readAll_append, fold, ← result]
    exact congrArg (readAll loc step · [.mark .endList]) reads
  | .index source subscript, grouped => by
    have parts := Bool.and_eq_true_iff.mp grouped
    have operands := Bool.and_eq_true_iff.mp parts.2
    have first := reads_of_grouped transparent operands.1
    have second := reads_of_grouped transparent operands.2
    apply Reads.of_closed
    intro frame below
    obtain ⟨pending, operand, reads, value⟩ := second.fresh
      { bracket := .index (some (source.fold loc step)) }
      ({ frame with operand := some (source.fold loc step) } :: below) rfl
    have result : Frame.result loc step
        { bracket := .index (some (source.fold loc step)), pending := pending, operand := operand } =
          some (step (.index (source.fold loc step) (subscript.fold loc step))) := by
      rw [Frame.result]
      exact congrArg (Option.map fun value => step (.index (source.fold loc step) value)) value
    rw [tokens, readAll_append, first.closed parts.1, readAll_cons, readAll_append, fold, ← result]
    exact congrArg (readAll loc step · [.mark .endIndex]) reads

theorem readsAll_of_grouped (transparent : Transparent step) : ∀ {values : List Expr},
    allOf isGrouped values = true → ReadsAll loc step values
  | [], _ => by
    intro separator frame below _
    exact ⟨frame, rfl, rfl, (List.append_nil _).symm⟩
  | value :: rest, grouped => by
    have operands := Bool.and_eq_true_iff.mp grouped
    have inside := reads_of_grouped transparent operands.1
    have behind := readsAll_of_grouped transparent operands.2
    intro separator frame below separates
    obtain ⟨pending, operand, reads, isValue⟩ := inside.fresh (frame.next step) below rfl
    obtain ⟨last, readsRest, isBracket, collected⟩ := behind [.mark .comma]
      { frame.next step with pending := pending, operand := operand } below rfl
    refine ⟨last, ?_, isBracket, ?_⟩
    · rw [tokensAll, readAll_append, separates, readAll_append, reads, readsRest]
    · rw [collected, Frame.collected, isValue, foldAll]
      simp [Frame.next]

theorem readsRest_of_grouped (transparent : Transparent step) : ∀ {rest : List (String × Expr)},
    rest.all (fun link => link.2.isClosed) = true → allOfRest isGrouped rest = true →
      ReadsRest loc step rest
  | [], _, _ => by
    intro frame below left value
    exact ⟨frame.pending, frame.operand, rfl, value⟩
  | (symbol, operand) :: rest, closed, grouped => by
    have operands := Bool.and_eq_true_iff.mp grouped
    have isClosed := Bool.and_eq_true_iff.mp closed
    have inside := reads_of_grouped transparent operands.1
    have behind := readsRest_of_grouped transparent isClosed.2 operands.2
    intro frame below left value
    rw [tokensRest, foldRest]
    cases BinOp.ofSymbol? symbol with
    | none => exact behind frame below left value
    | some op =>
      dsimp only
      rw [readAll_cons, readAll_append, read, value, inside.closed isClosed.1]
      exact behind _ below _ rfl

end

/-- Expressions with the same tokens fold alike. -/
theorem fold_eq_of_tokens_eq (transparent : Transparent step) {first second : Expr}
    (grouped : first.all isGrouped = true) (groupedOther : second.all isGrouped = true)
    (same : first.tokens = second.tokens) : first.fold loc step = second.fold loc step := by
  obtain ⟨pending, operand, reads, value⟩ :=
    (reads_of_grouped transparent grouped).fresh { bracket := .group } [] rfl
  obtain ⟨pendingOther, operandOther, readsOther, valueOther⟩ :=
    (reads_of_grouped transparent groupedOther).fresh { bracket := .group } [] rfl
  rw [same, readsOther] at reads
  rw [(List.cons.inj reads).1, value] at valueOther
  exact Option.some.inj valueOther

end Grouped

end Expr

end Manifest

/-! ## The place of a value -/

def Ty.placed (place : Location) (ty : Ty) : Ty :=
  { ty with loc := place }

theorem Ty.placed_ofName (place : Location) (name : String) (loc : Location) :
    (Ty.ofName name loc).placed place = Ty.ofName name place := by
  unfold ofName
  dsimp only
  split <;> rfl

def Shape.placed {α : Type} (place : Location) : Shape α → Shape α
  | .construct target child => .construct (target.placed place) child
  | shape => shape

namespace Value

mutual

def placed (place : Location) : Value → Value
  | .literal value => .literal value
  | .name spelling => .name spelling
  | .list elements => .list (placedAll place elements)
  | .construct target argument => .construct (target.placed place) (placed place argument)
  | .index source subscript => .index (placed place source) (placed place subscript)

def placedAll (place : Location) : List Value → List Value
  | [] => []
  | value :: rest => placed place value :: placedAll place rest

end

variable {env : Environment} {place : Location}

theorem placed_ofName (spelling : String) : (ofName env spelling).placed place = ofName env spelling := by
  unfold ofName
  split <;> rfl

theorem combine_placed (op : BinOp) (left right : Value) :
    (combine op left right).map (placed place) =
      combine op (left.placed place) (right.placed place) := by
  cases left with
  | literal left =>
    cases right with
    | literal right =>
      simp only [placed, combine]
      cases Fold.binary op left right <;> rfl
    | _ => rfl
  | _ => rfl

theorem mapM_placed (outcomes : List (Except FoldStop Value)) :
    (outcomes.mapM id).map (placedAll place) =
      (outcomes.map (Except.map (placed place))).mapM id := by
  induction outcomes with
  | nil => rfl
  | cons outcome outcomes ih =>
    rw [List.map_cons, List.mapM_cons, List.mapM_cons, ← ih]
    cases outcome with
    | error stop => rfl
    | ok value => cases outcomes.mapM id <;> rfl

/-- Values do not depend on where an expression stands but for the places in them. -/
theorem ofShape_placed (shape : Shape (Except FoldStop Value)) :
    (ofShape env shape).map (placed place) =
      ofShape env ((shape.map (Except.map (placed place))).placed place) := by
  cases shape with
  | literal value => rfl
  | name spelling => exact congrArg Except.ok (placed_ofName spelling)
  | list elements =>
    simp only [Shape.map, Shape.placed, ofShape, ← mapM_placed]
    cases elements.mapM id <;> rfl
  | unary op child => rfl
  | construct target child => cases child <;> rfl
  | binary op left right =>
    cases left with
    | error stop => rfl
    | ok left =>
      cases right with
      | error stop => rfl
      | ok right => exact combine_placed op left right
  | step op child => rfl
  | index source subscript => cases source <;> cases subscript <;> rfl

end Value

namespace Manifest.Expr

section Placed

variable (env : Environment) (loc place : Location)

mutual

/-- The value of an expression at another place. -/
theorem fold_placed : ∀ expr : Expr,
    (expr.fold loc (Value.ofShape env)).map (Value.placed place) =
      expr.fold place (Value.ofShape env)
  | .int _ | .real _ | .text _ | .bool _ | .name _ => by
    rw [fold, Value.ofShape_placed]
    rfl
  | .group inner | .ref inner => by
    rw [fold, Value.ofShape_placed, fold, ← fold_placed inner]
    rfl
  | .list values => by
    rw [fold, Value.ofShape_placed, fold, ← foldAll_placed values]
    rfl
  | .chain first rest => by
    rw [fold, foldRest_placed, fold_placed first, fold]
  | .construct type values => by
    rw [fold, Value.ofShape_placed, fold, ← foldAll_placed values]
    simp only [Shape.map, Shape.placed, Value.ofShape_placed, Ty.placed_ofName]
  | .index source subscript => by
    rw [fold, Value.ofShape_placed, fold, ← fold_placed source, ← fold_placed subscript]
    rfl

theorem foldAll_placed : ∀ values : List Expr,
    (foldAll loc (Value.ofShape env) values).map (Except.map (Value.placed place)) =
      foldAll place (Value.ofShape env) values
  | [] => rfl
  | value :: rest => by
    rw [foldAll, List.map_cons, fold_placed value, foldAll_placed rest, foldAll]

theorem foldRest_placed : ∀ (rest : List (String × Expr)) (left : Except FoldStop Value),
    (foldRest loc (Value.ofShape env) left rest).map (Value.placed place) =
      foldRest place (Value.ofShape env) (left.map (Value.placed place)) rest
  | [], left => rfl
  | (symbol, operand) :: rest, left => by
    rw [foldRest, foldRest]
    cases BinOp.ofSymbol? symbol with
    | none => exact foldRest_placed rest left
    | some op =>
      dsimp only
      rw [foldRest_placed rest, Value.ofShape_placed, ← fold_placed operand]
      rfl

end

end Placed

/-! ## Allocated expressions -/

/-- Two expressions whose names and types are plain words, and in which every chain with an
operator that stands to the right of another operator, or that is indexed, stands in a group:
if they are written alike, they evaluate alike, apart from the places of types. -/
theorem eval_eq_of_render_eq {first second : Expr}
    (plain : first.all hasPlainSpelling = true) (plainOther : second.all hasPlainSpelling = true)
    (grouped : first.all isGrouped = true) (groupedOther : second.all isGrouped = true)
    {loc place : Location} {before beforeOther after afterOther : Arena} {id other : ExprId}
    (acyclic : before.Acyclic) (acyclicOther : beforeOther.Acyclic)
    (built : (lower loc first).run.run before = (.ok id, after))
    (builtOther : (lower place second).run.run beforeOther = (.ok other, afterOther))
    (same : after.render id = afterOther.render other) (env : Environment) :
    (after.eval env id).map (Value.placed place) = afterOther.eval env other := by
  have sameText : first.fold loc Arena.renderStep = second.fold place Arena.renderStep := by
    rw [← combine_of_lower "" Arena.renderStep loc acyclic built,
      ← combine_of_lower "" Arena.renderStep place acyclicOther builtOther]
    exact same
  have sameTokens := tokens_eq_of_render_eq plain plainOther sameText
  have evaluated : after.eval env id = first.fold loc (Value.ofShape env) :=
    combine_of_lower _ _ loc acyclic built
  have evaluatedOther : afterOther.eval env other = second.fold place (Value.ofShape env) :=
    combine_of_lower _ _ place acyclicOther builtOther
  rw [evaluated, evaluatedOther, fold_placed]
  exact fold_eq_of_tokens_eq (fun _ _ => rfl) grouped groupedOther sameTokens

/-- A chain that is the first operand of another, here under a reference, needs no group. -/
theorem eval_eq_of_render_eq_nested :
    let group := Expr.group (.chain (.name "x") [("-", .int 2)])
    let first := Expr.construct "Point" [.chain (.ref (.chain (.int 8) [("-", group)]))
      [("*", .real 1.5)], .index (.name "xs") (.text "a\"b")]
    let second := Expr.construct "Point" [.ref (.chain (.int 8) [("-", group), ("*", .real 1.5)]),
      .index (.chain (.name "xs") []) (.text "a\"b")]
    let built := (lower .builtin first).run.run {}
    let builtOther := (lower .builtin second).run.run {}
    built.1 = .ok ⟨13⟩ ∧ builtOther.1 = .ok ⟨13⟩ ∧
      built.2.render ⟨13⟩ = builtOther.2.render ⟨13⟩ ∧
      ∀ env, (built.2.eval env ⟨13⟩).map (Value.placed .builtin) = builtOther.2.eval env ⟨13⟩ := by
  intro group first second built builtOther
  have plain : first.all hasPlainSpelling = true ∧ second.all hasPlainSpelling = true := by
    decide +kernel
  have grouped : first.all isGrouped = true ∧ second.all isGrouped = true := by
    decide +kernel
  have empty : ({} : Arena).Acyclic := Arena.Acyclic.of_index fun ⟨_, found, _⟩ => by cases found
  have roots : built.1 = .ok ⟨13⟩ ∧ builtOther.1 = .ok ⟨13⟩ := by decide +kernel
  have same : built.2.render ⟨13⟩ = builtOther.2.render ⟨13⟩ := by decide +kernel
  exact ⟨roots.1, roots.2, same, eval_eq_of_render_eq plain.1 plain.2 grouped.1 grouped.2 empty empty
    (Prod.ext roots.1 rfl) (Prod.ext roots.2 rfl) same⟩

def shown (env : Environment) (expr : Expr) : Option (String × Except FoldStop Value) :=
  let (outcome, arena) := (lower .builtin expr).run.run {}
  outcome.toOption.map fun id => (arena.render id, arena.eval env id)

/-- Texts with two meanings: a chain to the right of an operator, a chain that is indexed, and a
name that is spelled like a literal. -/
theorem written_alike_apart :
    (shown (fun _ => none) (.chain (.int 8) [("-", .int 3), ("-", .int 2)]) =
        some ("8 - 3 - 2", .ok (.literal (.int 3))) ∧
      shown (fun _ => none) (.chain (.int 8) [("-", .chain (.int 3) [("-", .int 2)])]) =
        some ("8 - 3 - 2", .ok (.literal (.int 7)))) ∧
    (shown (fun _ => none) (.index (.chain (.int 1) [("+", .int 2)]) (.int 0)) =
        some ("1 + 2[0]", .ok (.index (.literal (.int 3)) (.literal (.int 0)))) ∧
      shown (fun _ => none) (.chain (.int 1) [("+", .index (.int 2) (.int 0))]) =
        some ("1 + 2[0]", .error (.fault (.notLiteral .add)))) ∧
    shown (fun _ => some (.int 5)) (.name "true") = some ("true", .ok (.literal (.int 5))) ∧
      shown (fun _ => some (.int 5)) (.bool true) = some ("true", .ok (.literal (.bool true))) :=
  ⟨⟨rfl, rfl⟩, ⟨rfl, rfl⟩, rfl, rfl⟩

end Manifest.Expr

end Assay
