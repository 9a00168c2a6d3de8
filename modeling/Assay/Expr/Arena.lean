import Assay.Expr.Shape

/-!
Contract: expressions as nodes of one growing arena.

Owns:
- allocation of nodes, which never moves or removes one;
- changes to the type or one operand of a node;
- evaluation of an expression from its leaves up.

Does not own: what is evaluated. Nodes may be shared; an expression has a value from the leaves up
only if no node lies below itself.
-/

namespace Assay

/-- A node: its place, the type known for it so far (null while none is known) and its form. -/
structure Node where
  loc : Location
  ty : Ty
  shape : Shape ExprId
deriving Repr, Inhabited

structure Arena where
  nodes : Array Node := #[]
deriving Repr, Inhabited

namespace Arena

def size (arena : Arena) : Nat :=
  arena.nodes.size

def node? (arena : Arena) (id : ExprId) : Option Node :=
  arena.nodes[id.index]?

def nodeAt (arena : Arena) (id : ExprId) : Node :=
  (arena.node? id).getD default

def shapeAt (arena : Arena) (id : ExprId) : Shape ExprId :=
  (arena.nodeAt id).shape

def locAt (arena : Arena) (id : ExprId) : Location :=
  (arena.nodeAt id).loc

def literal? (arena : Arena) (id : ExprId) : Option Literal :=
  (arena.shapeAt id).literal?

/-! ## Allocation -/

def alloc (node : Node) : StateM Arena ExprId :=
  modifyGet fun arena => (⟨arena.size⟩, ⟨arena.nodes.push node⟩)

theorem size_alloc (arena : Arena) (node : Node) :
    ((alloc node).run arena).2.size = arena.size + 1 :=
  Array.size_push node

theorem node?_alloc (arena : Arena) (node : Node) (id : ExprId) :
    ((alloc node).run arena).2.node? id =
      if id.index = arena.size then some node else arena.node? id :=
  Array.getElem?_push

/-- A literal has its natural type from the start. -/
def addLiteral (value : Literal) (loc : Location) : StateM Arena ExprId :=
  alloc ⟨loc, value.naturalType loc, .literal value⟩

/-- A node whose type is not known yet. -/
def add (shape : Shape ExprId) (loc : Location) : StateM Arena ExprId :=
  alloc ⟨loc, .null, shape⟩

/-- `first op e op e …`, grouped strictly from the left. Each operator stands where its left
operand does. -/
def addChain (first : ExprId) (rest : List (BinOp × ExprId)) : StateM Arena ExprId :=
  rest.foldlM (fun left (op, right) => do
    add (.binary op left right) ((← get).locAt left)) first

/-! ## Change -/

def modifyNode (arena : Arena) (id : ExprId) (f : Node → Node) : Arena :=
  ⟨arena.nodes.modify id.index f⟩

@[simp] theorem size_modifyNode (arena : Arena) (id : ExprId) (f : Node → Node) :
    (arena.modifyNode id f).size = arena.size :=
  Array.size_modify

theorem node?_modifyNode (arena : Arena) (id other : ExprId) (f : Node → Node) :
    (arena.modifyNode id f).node? other =
      if id = other then (arena.node? other).map f else arena.node? other := by
  have sameIndex : id.index = other.index ↔ id = other := by
    cases id
    cases other
    simp
  simp only [← sameIndex]
  exact Array.getElem?_modify

def setType (arena : Arena) (id : ExprId) (ty : Ty) : Arena :=
  arena.modifyNode id fun node => { node with ty := ty }

def setShape (arena : Arena) (id : ExprId) (shape : Shape ExprId) : Arena :=
  arena.modifyNode id fun node => { node with shape := shape }

/-- Forget a type that was derived from the operands. -/
def forgetType (arena : Arena) (id : ExprId) : Arena :=
  arena.modifyNode id fun node =>
    if node.shape.typeIsDerived then { node with ty := .null } else node

/-- Put `new` into the first operand of `parent` that is `old`, if there is one. -/
def replaceOperand? (arena : Arena) (parent old new : ExprId) : Option Arena :=
  ((arena.shapeAt parent).replaceFirst? old new).map (arena.setShape parent)

/-! ## Evaluation from the leaves up -/

/-- The value of an expression when each node's value is computed from the values of its operands.
No path is followed beyond `depth` nodes. -/
def foldWithin
    {α : Type}
    (arena : Arena)
    (stop : α)
    (value : ExprId → Node → Shape α → α) :
    Nat → ExprId → α
  | 0, _ => stop
  | depth + 1, id =>
      match arena.node? id with
      | none => stop
      | some node =>
          value id node (node.shape.map fun child => arena.foldWithin stop value depth child)

/-- As `foldWithin`, with room for every path that meets no node twice. -/
def fold
    {α : Type}
    (arena : Arena)
    (stop : α)
    (value : ExprId → Node → Shape α → α)
    (id : ExprId) : α :=
  arena.foldWithin stop value arena.size id

end Arena

end Assay
