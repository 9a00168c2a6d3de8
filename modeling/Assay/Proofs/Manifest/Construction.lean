import Assay.Proofs.Manifest.Denotation

/-!
Contract: expressions that build a struct.
-/

namespace Assay.Manifest.Expr

variable {env : Environment} {arena : Arena} {values : List Expr} {ids : List ExprId}
  {value : Value}

/-- The type and the arguments of a constructor, looked for in groups, references and chains without
an operator. -/
def constructor? : Expr → Option (String × List Expr)
  | .construct type arguments => some (type, arguments)
  | .group inner | .ref inner | .chain inner [] => constructor? inner
  | _ => none

/-- A number, a truth value, or a name for one. -/
def IsPlain (env : Environment) : Expr → Prop
  | .int _ | .real _ | .bool _ => True
  | .name spelling => ∃ literal, env spelling = some literal ∧ literal.kind ≠ .string
  | _ => False

theorem IsPlain.notText {expr : Expr} {literal : Literal} (plain : expr.IsPlain env)
    (denotes : denote? env expr = some (.ok literal)) : literal.kind ≠ .string := by
  cases expr with
  | int value =>
    cases denotes
    exact Literal.kind_int_ne_string value.toInt
  | real _ | bool _ =>
    cases denotes
    simp [Literal.kind]
  | name spelling =>
    obtain ⟨held, bound, notText⟩ := plain
    rw [denote?, bound] at denotes
    cases denotes
    exact notText
  | _ => cases plain

/-! ## Elements -/

theorem RepresentsAll.length_eq (all : RepresentsAll none arena values ids) :
    ids.length = values.length := by
  induction values generalizing ids with
  | nil =>
    cases all
    rfl
  | cons value rest ih =>
    obtain ⟨first, others, rfl, _, tail⟩ := all
    simp [ih tail]

theorem RepresentsAll.at (all : RepresentsAll none arena values ids) {slot : Nat} {value : Expr}
    (found : values[slot]? = some value) :
    ∃ id, ids[slot]? = some id ∧ Represents none arena value id := by
  induction values generalizing ids slot with
  | nil => cases found
  | cons head rest ih =>
    obtain ⟨first, others, rfl, represents, tail⟩ := all
    cases slot with
    | zero =>
      cases found
      exact ⟨first, rfl, represents⟩
    | succ slot => exact ih tail found

/-! ## Constructors -/

/-- The node of a constructor within `id`, its elements and what they mean, and the value of `id`
that comes of it. -/
structure Builds (arena : Arena) (env : Environment) (arguments : List Expr) (id : ExprId)
    (value : Value) (target : Ty) (child : ExprId) (elements : List ExprId) : Prop where
  node : ∃ inner, arena.Within inner id ∧ arena.shape? inner = some (.construct target child)
  list : arena.shape? child = some (.list elements)
  represents : RepresentsAll none arena arguments elements
  meaning : ∃ values, value = .construct target (.list values) ∧
    elements.map (arena.eval env) = values.map .ok

theorem Builds.lift {arguments : List Expr} {id child : ExprId} {target : Ty}
    {elements : List ExprId} {arg : ExprId}
    (builds : Builds arena env arguments child value target arg elements)
    (operand : arena.Operand child id) : Builds arena env arguments id value target arg elements :=
  let ⟨inner, within, found⟩ := builds.node
  ⟨⟨inner, within.tail operand, found⟩, builds.list, builds.represents, builds.meaning⟩

theorem Represents.builds (acyclic : arena.Acyclic) :
    ∀ {expr : Expr} {id : ExprId} {value : Value} {type : String} {arguments : List Expr},
      Represents none arena expr id → constructor? expr = some (type, arguments) →
        arena.eval env id = .ok value →
          ∃ target child elements, Builds arena env arguments id value target child elements
  | .construct _ _, id, value, _, _, ⟨target, child, elements, found, _, foundList, all⟩,
      isConstructor, meaning => by
      cases isConstructor
      rw [acyclic.eval_of_shape? found] at meaning
      simp only [Shape.map, Value.ofShape] at meaning
      obtain ⟨listed, argument, rfl⟩ := map_eq_ok.mp meaning
      obtain ⟨values, rfl, elementwise⟩ := acyclic.eval_list_values foundList argument
      exact ⟨target, child, elements, ⟨id, .refl, found⟩, foundList, all, values, rfl, elementwise⟩
  | .group inner, id, _, _, _, ⟨child, found, represents⟩, isConstructor, meaning
  | .ref inner, id, _, _, _, ⟨child, found, represents⟩, isConstructor, meaning => by
    rw [acyclic.eval_of_shape? found] at meaning
    obtain ⟨target, arg, elements, builds⟩ := represents.builds acyclic isConstructor meaning
    have operand : arena.Operand child id :=
      Arena.operand_iff_shape?.mpr ⟨_, found, by simp [Shape.children]⟩
    exact ⟨target, arg, elements, builds.lift operand⟩
  | .chain first [], id, _, _, _, ⟨start, represents, same⟩, isConstructor, meaning => by
    cases same
    exact represents.builds acyclic isConstructor meaning
  | .int _, _, _, _, _, _, isConstructor, _ | .real _, _, _, _, _, _, isConstructor, _
  | .text _, _, _, _, _, _, isConstructor, _ | .bool _, _, _, _, _, _, isConstructor, _
  | .name _, _, _, _, _, _, isConstructor, _ | .list _, _, _, _, _, _, isConstructor, _
  | .chain _ (_ :: _), _, _, _, _, _, isConstructor, _
  | .index _ _, _, _, _, _, _, isConstructor, _ => by cases isConstructor

theorem RepresentsRest.eval_literal (acyclic : arena.Acyclic) {rest : List (String × Expr)}
    {left root : ExprId} (represents : RepresentsRest none arena rest left root) (linked : rest ≠ [])
    (meaning : arena.eval env root = .ok value) : ∃ literal, value = .literal literal := by
  induction rest generalizing left with
  | nil => exact absurd rfl linked
  | cons head rest ih =>
    obtain ⟨op, right, node, _, _, found, tail⟩ := represents
    cases rest with
    | nil =>
      cases tail
      exact acyclic.eval_binary_literal found meaning
    | cons next rest => exact ih tail (by simp)

/-- Without a constructor there is no constructed value. -/
theorem Represents.eval_ne_construct (acyclic : arena.Acyclic) {target : Ty} {argument : Value} :
    ∀ {expr : Expr} {id : ExprId}, Represents none arena expr id → constructor? expr = none →
      arena.eval env id ≠ .ok (.construct target argument)
  | .int _, _, found, _, meaning | .real _, _, found, _, meaning | .text _, _, found, _, meaning
  | .bool _, _, found, _, meaning => by
    rw [acyclic.eval_of_shape? found] at meaning
    cases meaning
  | .name _, _, found, _, meaning => by
    rw [acyclic.eval_of_shape? found] at meaning
    simp only [Shape.map, Value.ofShape, Value.ofName] at meaning
    split at meaning <;> cases meaning
  | .group _, _, ⟨_, found, represents⟩, missing, meaning
  | .ref _, _, ⟨_, found, represents⟩, missing, meaning => by
    rw [acyclic.eval_of_shape? found] at meaning
    exact represents.eval_ne_construct acyclic missing meaning
  | .list _, _, ⟨_, found, _⟩, _, meaning => by
    obtain ⟨_, isList, _⟩ := acyclic.eval_list_values found meaning
    cases isList
  | .chain _ [], _, ⟨_, represents, same⟩, missing, meaning => by
    cases same
    exact represents.eval_ne_construct acyclic missing meaning
  | .chain _ (_ :: _), _, ⟨_, _, rest⟩, _, meaning => by
    obtain ⟨_, isLiteral⟩ := rest.eval_literal acyclic (by simp) meaning
    cases isLiteral
  | .construct _ _, _, _, missing, _ => by cases missing
  | .index _ _, _, ⟨source, subscript, found, _⟩, _, meaning => by
    rw [acyclic.eval_of_shape? found] at meaning
    obtain ⟨_, _, later⟩ := bind_eq_ok.mp meaning
    obtain ⟨_, _, ⟨⟩⟩ := bind_eq_ok.mp later

end Assay.Manifest.Expr
