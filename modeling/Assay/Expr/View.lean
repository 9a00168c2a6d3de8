import Assay.Expr.Arena

/-!
Contract: what can be read off an expression without looking any name up.

Owns: the type, the constness, the outputs and the written form of an expression.

Does not own: resolution, which makes the types of names known.
-/

namespace Assay.Arena

/-! ## Outputs -/

/-- The expressions that produce the values of `id`: the elements of a list, else `id` alone. -/
def outputs (arena : Arena) (id : ExprId) : List ExprId :=
  match arena.shapeAt id with
  | .list elements => elements
  | _ => [id]

/-! ## Types -/

/-- The type of a node whose operands have the types given. A type that is known stands. -/
def typeStep (node : Node) (operands : Shape Ty) : Ty :=
  if node.ty.isNull then
    match operands with
    | .literal _ | .name _ => node.ty
    | .list [] => .null
    | .list (first :: _) => first
    | .unary .group child | .step _ child => child
    | .unary .ref child => child.asRef
    | .construct target _ => target
    | .binary _ left _ => left
    | .index source _ => source.element
  else
    node.ty

def typeOf (arena : Arena) : ExprId → Ty :=
  arena.fold .null fun _ node operands => typeStep node operands

/-- Keep the type of a node once it is known. -/
def rememberType (arena : Arena) (id : ExprId) : Arena :=
  let ty := arena.typeOf id
  if ty.isNull then arena else arena.setType id ty

/-! ## Constness -/

/-- A literal is constant, a name if its type is const, a constructor if the types of all its
arguments are, any other form if its operands are. An element of an array never is. -/
def constStep (arena : Arena) (node : Node) (operands : Shape Bool) : Bool :=
  match operands with
  | .literal _ => true
  | .name _ => node.ty.isConst
  | .list elements => elements.all id
  | .unary _ child | .step _ child => child
  | .binary _ left right => left && right
  | .construct _ _ =>
      node.shape.children.all fun child =>
        (arena.outputs child).all fun output => (arena.typeOf output).isConst
  | .index _ _ => false

def isConst (arena : Arena) : ExprId → Bool :=
  arena.fold false fun _ node operands => arena.constStep node operands

/-! ## Written form -/

def renderStep (operands : Shape String) : String :=
  match operands with
  | .literal value => value.render
  | .name spelling => spelling
  | .list elements => "\x7b" ++ String.intercalate ", " elements ++ "\x7d"
  | .unary .group child => "(" ++ child ++ ")"
  | .unary .ref child => "@" ++ child
  | .construct target child => target.name ++ child
  | .binary op left right => left ++ " " ++ op.symbol ++ " " ++ right
  | .step op child => child ++ op.symbol
  | .index source subscript => source ++ "[" ++ subscript ++ "]"

/-- The expression as a program writes it. -/
def render (arena : Arena) : ExprId → String :=
  arena.fold "" fun _ _ operands => renderStep operands

end Assay.Arena
