import Assay.Check.Run

/-!
Contract: the handles that a run holds, and the definitions they stand for.
-/

namespace Assay

inductive Handle where
  | module (id : ModuleId)
  | struct (id : StructId)
  | func (id : FuncId)
  | block (id : BlockId)
  | object (id : ObjectId)
  | expr (id : ExprId)
deriving DecidableEq, Repr

/-- How many definitions of each sort have been allocated. -/
structure Bounds where
  modules : Nat
  structs : Nat
  funcs : Nat
  blocks : Nat
  objects : Nat
  exprs : Nat
deriving DecidableEq, Repr

namespace Bounds

def holds (bounds : Bounds) : Handle → Bool
  | .module id => id.index < bounds.modules
  | .struct id => id.index < bounds.structs
  | .func id => id.index < bounds.funcs
  | .block id => id.index < bounds.blocks
  | .object id => id.index < bounds.objects
  | .expr id => id.index < bounds.exprs

def Covers (bounds : Bounds) (handles : List Handle) : Prop :=
  ∀ handle ∈ handles, bounds.holds handle = true

instance (bounds : Bounds) (handles : List Handle) : Decidable (bounds.Covers handles) :=
  inferInstanceAs (Decidable (∀ handle ∈ handles, bounds.holds handle = true))

structure Le (small large : Bounds) : Prop where
  modules : small.modules ≤ large.modules
  structs : small.structs ≤ large.structs
  funcs : small.funcs ≤ large.funcs
  blocks : small.blocks ≤ large.blocks
  objects : small.objects ≤ large.objects
  exprs : small.exprs ≤ large.exprs

variable {bounds small middle large : Bounds} {handle : Handle} {handles : List Handle}

theorem Le.refl (bounds : Bounds) : bounds.Le bounds :=
  ⟨Nat.le_refl _, Nat.le_refl _, Nat.le_refl _, Nat.le_refl _, Nat.le_refl _, Nat.le_refl _⟩

theorem Le.of_eq (same : small = large) : small.Le large :=
  same ▸ .refl small

theorem Le.trans (first : small.Le middle) (second : middle.Le large) : small.Le large where
  modules := Nat.le_trans first.modules second.modules
  structs := Nat.le_trans first.structs second.structs
  funcs := Nat.le_trans first.funcs second.funcs
  blocks := Nat.le_trans first.blocks second.blocks
  objects := Nat.le_trans first.objects second.objects
  exprs := Nat.le_trans first.exprs second.exprs

theorem Le.holds (grows : small.Le large) (held : small.holds handle = true) :
    large.holds handle = true := by
  obtain ⟨modules, structs, funcs, blocks, objects, exprs⟩ := grows
  cases handle <;> simp only [Bounds.holds, decide_eq_true_eq] at held ⊢ <;> omega

theorem Covers.mono (covers : small.Covers handles) (grows : small.Le large) :
    large.Covers handles :=
  fun handle member => grows.holds (covers handle member)

@[simp] theorem covers_nil : bounds.Covers [] := by
  simp [Covers]

@[simp] theorem covers_cons :
    bounds.Covers (handle :: handles) ↔ bounds.holds handle = true ∧ bounds.Covers handles := by
  simp [Covers]

@[simp] theorem covers_append {first second : List Handle} :
    bounds.Covers (first ++ second) ↔ bounds.Covers first ∧ bounds.Covers second := by
  simp [Covers, or_imp, forall_and]

@[simp] theorem covers_flatMap {α : Type} {items : List α} {handles : α → List Handle} :
    bounds.Covers (items.flatMap handles) ↔ ∀ item ∈ items, bounds.Covers (handles item) := by
  simp only [Covers, List.mem_flatMap]
  exact ⟨fun covers item member handle held => covers handle ⟨item, member, held⟩,
    fun covers handle ⟨item, member, held⟩ => covers item member handle held⟩

@[simp] theorem covers_map {α : Type} {items : List α} {handle : α → Handle} :
    bounds.Covers (items.map handle) ↔ ∀ item ∈ items, bounds.holds (handle item) = true := by
  simp [Covers]

end Bounds

/-! ## Handles of types -/

def ScopeId.handle : ScopeId → Handle
  | .module id => .module id
  | .func id => .func id
  | .block id => .block id

def Kind.handles : Kind → List Handle
  | .object id => [.object id]
  | .function id => [.func id]
  | .struct id => [.struct id]
  | _ => []

def Ty.handles (ty : Ty) : List Handle :=
  ty.kind.handles ++ ty.definedIn.toList.map .module

/-- No built-in kind carries a definition. -/
theorem Kind.handles_ofSpelling (name : String) :
    ((Kind.ofSpelling? name).getD .unresolved).handles = [] := by
  cases known : Kind.ofSpelling? name with
  | none => rfl
  | some kind =>
    have builtin : ∀ kind ∈ Kind.builtins, kind.handles = [] := by decide
    exact builtin kind (List.mem_of_find?_eq_some known)

namespace Ty

@[simp] theorem handles_ofName (name : String) (loc : Location) : (ofName name loc).handles = [] := by
  unfold ofName handles
  dsimp only
  rw [Kind.handles_ofSpelling]
  rfl

@[simp] theorem handles_ofKind (kind : Kind) (loc : Location) : (ofKind kind loc).handles = [] :=
  handles_ofName _ loc

@[simp] theorem handles_null : null.handles = [] :=
  handles_ofKind _ _

@[simp] theorem handles_ofStruct (id : StructId) (name : String) (loc : Location) :
    (ofStruct id name loc).handles = [.struct id] :=
  rfl

@[simp] theorem handles_refToStruct (id : StructId) (name : String) (loc : Location) :
    (refToStruct id name loc).handles = [.struct id] :=
  rfl

@[simp] theorem handles_asConst (ty : Ty) : ty.asConst.handles = ty.handles :=
  rfl

@[simp] theorem handles_asRef (ty : Ty) : ty.asRef.handles = ty.handles :=
  rfl

@[simp] theorem handles_asArray (ty : Ty) (count : Int) : (ty.asArray count).handles = ty.handles :=
  rfl

@[simp] theorem handles_asUnboundedArray (ty : Ty) : ty.asUnboundedArray.handles = ty.handles :=
  rfl

@[simp] theorem handles_element (ty : Ty) : ty.element.handles = ty.handles :=
  rfl

end Ty

@[simp] theorem Literal.handles_naturalType (value : Literal) (loc : Location) :
    (value.naturalType loc).handles = [] := by
  unfold Literal.naturalType
  simp

/-! ## Handles of definitions -/

def Struct.handles (struct : Struct) : List Handle :=
  struct.owner.toList.map ScopeId.handle ++ struct.members.flatMap fun member => member.ty.handles

def Constant.handles (constant : Constant) : List Handle :=
  constant.ty.handles ++ constant.owner.toList.map .module

def Global.handles (global : Global) : List Handle :=
  global.ty.handles ++ global.owner.toList.map .module

def Object.handles (object : Object) : List Handle :=
  object.owner.toList.map .module

def Module.handles (module : Module) : List Handle :=
  module.imports.map (fun entry => .module entry.2) ++
    module.structs.map (fun entry => .struct entry.2) ++
    module.objects.map (fun entry => .object entry.2) ++
    module.funcs.map (fun entry => .func entry.2) ++
    module.constants.flatMap Constant.handles ++ module.globals.flatMap Global.handles

def Func.handles (func : Func) : List Handle :=
  [.struct func.inbound, .struct func.outbound] ++ func.blocks.map .block ++
    func.parent.toList.map ScopeId.handle

def Block.handles (block : Block) : List Handle :=
  .struct block.vars :: block.init.map (fun entry => .expr entry.2) ++
    block.parent.toList.map ScopeId.handle

def Shape.types {α : Type} : Shape α → List Ty
  | .construct target _ => [target]
  | _ => []

def Node.handles (node : Node) : List Handle :=
  node.shape.children.map .expr ++ (node.ty :: node.shape.types).flatMap Ty.handles

def Session.handles (session : Session) : List Handle :=
  session.modules.toList.flatMap Module.handles ++ session.structs.toList.flatMap Struct.handles ++
    session.funcs.toList.flatMap Func.handles ++ session.blocks.toList.flatMap Block.handles ++
    session.objects.toList.flatMap Object.handles

def Session.bounds (session : Session) (exprs : Nat) : Bounds :=
  { modules := session.modules.size
    structs := session.structs.size
    funcs := session.funcs.size
    blocks := session.blocks.size
    objects := session.objects.size
    exprs := exprs }

theorem Session.bounds_le (session : Session) {few many : Nat} (le : few ≤ many) :
    (session.bounds few).Le (session.bounds many) :=
  { Bounds.Le.refl (session.bounds few) with exprs := le }

def Frame.handles (frame : Frame) : List Handle :=
  [.module frame.module, .block frame.block]

def Run.bounds (run : Run) : Bounds :=
  run.session.bounds run.arena.size

/-- Every handle that a run holds, in its lists as well as inside its definitions and nodes. -/
def Run.handles (run : Run) : List Handle :=
  run.modules.map (fun entry => .module entry.1) ++ run.blocks.flatMap Frame.handles ++
    run.session.handles ++ run.arena.nodes.toList.flatMap Node.handles

end Assay
