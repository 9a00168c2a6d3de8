/-!
Contract: the handles by which definitions and expression nodes refer to each other.

Owns: one index type for each arena, and the three kinds of scope a name is looked up in.

Does not own: the arenas, and whether a handle has been allocated.
-/

namespace Assay

structure ModuleId where
  index : Nat
deriving DecidableEq, Repr, Inhabited

structure StructId where
  index : Nat
deriving DecidableEq, Repr, Inhabited

structure FuncId where
  index : Nat
deriving DecidableEq, Repr, Inhabited

structure BlockId where
  index : Nat
deriving DecidableEq, Repr, Inhabited

structure ObjectId where
  index : Nat
deriving DecidableEq, Repr, Inhabited

/-- A node of an expression arena. -/
structure ExprId where
  index : Nat
deriving DecidableEq, Repr, Inhabited

/-- A scope in which names are looked up. -/
inductive ScopeId where
  | module (id : ModuleId)
  | func (id : FuncId)
  | block (id : BlockId)
deriving DecidableEq, Repr, Inhabited

end Assay
