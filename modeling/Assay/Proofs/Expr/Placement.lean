import Assay.Proofs.Expr.Coverage

/-!
Contract: expressions do not depend on where in an arena they stand.
-/

namespace Assay

def Node.rename (rename : ExprId → ExprId) (node : Node) : Node :=
  { node with shape := node.shape.map rename }

theorem Ty.struct_mem_handles {ty : Ty} {id : StructId} (isStruct : ty.struct? = some id) :
    .struct id ∈ ty.handles := by
  unfold struct? at isStruct
  split at isStruct
  · next found =>
    cases isStruct
    simp [handles, found, Kind.handles]
  · cases isStruct

/-! ## Forms -/

namespace Shape

variable {α β γ : Type}

theorem map_map (f : α → β) (g : β → γ) (shape : Shape α) :
    (shape.map f).map g = shape.map (g ∘ f) := by
  cases shape <;> simp [map]

@[simp] theorem literal?_map (f : α → β) (shape : Shape α) :
    (shape.map f).literal? = shape.literal? := by
  cases shape <;> rfl

@[simp] theorem isOperator_map (f : α → β) (shape : Shape α) :
    (shape.map f).isOperator = shape.isOperator := by
  cases shape <;> rfl

@[simp] theorem typeIsDerived_map (f : α → β) (shape : Shape α) :
    (shape.map f).typeIsDerived = shape.typeIsDerived := by
  cases shape <;> rfl

theorem replace_map [DecidableEq α] [DecidableEq β] {f : α → β} (injective : f.Injective)
    (old new : α) (elements : List α) :
    (elements.map f).replace (f old) (f new) = (elements.replace old new).map f := by
  induction elements with
  | nil => rfl
  | cons first rest ih =>
    have same : (f old == f first) = (old == first) := by
      rw [Bool.eq_iff_iff, beq_iff_eq, beq_iff_eq, injective.eq_iff]
    rw [List.map_cons, List.replace_cons, List.replace_cons, ih, same]
    cases old == first <;> rfl

/-- Replacing an operand commutes with an injective change of all operands. -/
theorem replaceFirst?_map [DecidableEq α] [DecidableEq β] {f : α → β} (injective : f.Injective)
    (old new : α) (shape : Shape α) :
    (shape.map f).replaceFirst? (f old) (f new) = (shape.replaceFirst? old new).map (map f) := by
  have same : ∀ first second, f first = f second ↔ first = second := fun _ _ => injective.eq_iff
  cases shape with
  | literal value => rfl
  | name spelling => rfl
  | list elements =>
    have member : f old ∈ elements.map f ↔ old ∈ elements :=
      List.mem_map_of_injective injective
    simp only [map, replaceFirst?, member, replace_map injective]
    split <;> rfl
  | unary op child | construct target child | step op child =>
    simp only [map, replaceFirst?, same]
    split <;> rfl
  | binary op left right | index source subscript =>
    simp only [map, replaceFirst?, same]
    split
    · rfl
    · split <;> rfl

end Shape

namespace Arena

/-! ## Moved arenas -/

/-- The handle of a node that has been moved behind the nodes of `base`. -/
def past (base : Arena) (id : ExprId) : ExprId :=
  ⟨base.size + id.index⟩

theorem past_empty (id : ExprId) : ({} : Arena).past id = id := by
  simp [past, size]

theorem past_injective (base : Arena) : base.past.Injective := by
  intro first second same
  cases first
  cases second
  simpa [past] using same

@[simp] theorem past_inj {base : Arena} {first second : ExprId} :
    base.past first = base.past second ↔ first = second :=
  base.past_injective.eq_iff

def behind (base arena : Arena) : Arena :=
  ⟨base.nodes ++ arena.nodes.map (Node.rename base.past)⟩

variable {base arena : Arena} {id : ExprId}

theorem behind_empty (base : Arena) : base.behind {} = base := by
  simp [behind]

theorem node?_in_front (held : base.Allocated id) (arena : Arena) :
    (base.behind arena).node? id = base.node? id :=
  Array.getElem?_append_left held

section

variable (base arena id)

theorem size_behind : (base.behind arena).size = base.size + arena.size := by
  simp [behind, size]

theorem node?_behind :
    (base.behind arena).node? (base.past id) =
      (arena.node? id).map (Node.rename base.past) := by
  simp [behind, node?, past, size, Array.getElem?_append]

theorem nodeAt_behind :
    (base.behind arena).nodeAt (base.past id) =
      (arena.nodeAt id).rename base.past := by
  rw [nodeAt, node?_behind, nodeAt]
  cases arena.node? id <;> rfl

theorem shapeAt_behind :
    (base.behind arena).shapeAt (base.past id) =
      (arena.shapeAt id).map base.past := by
  rw [shapeAt, nodeAt_behind]
  rfl

theorem locAt_behind : (base.behind arena).locAt (base.past id) = arena.locAt id := by
  rw [locAt, nodeAt_behind]
  rfl

theorem literal?_behind : (base.behind arena).literal? (base.past id) = arena.literal? id := by
  rw [literal?, shapeAt_behind, Shape.literal?_map]
  rfl

theorem alloc_behind (node : Node) :
    (alloc (node.rename base.past)).run (base.behind arena) =
      (base.past ((alloc node).run arena).1,
        base.behind ((alloc node).run arena).2) := by
  show ((⟨(base.behind arena).size⟩ : ExprId), _) = _
  rw [size_behind]
  refine Prod.ext rfl ?_
  show (⟨(base.behind arena).nodes.push _⟩ : Arena) = base.behind ⟨arena.nodes.push node⟩
  simp [behind]

theorem modifyNode_behind {change changeBehind : Node → Node}
    (same : ∀ node, changeBehind (node.rename base.past) = (change node).rename base.past) :
    (base.behind arena).modifyNode (base.past id) changeBehind =
      base.behind (arena.modifyNode id change) := by
  have moved : (base.nodes ++ arena.nodes.map (Node.rename base.past)).modify
      (base.nodes.size + id.index) changeBehind =
        base.nodes ++ (arena.nodes.modify id.index change).map (Node.rename base.past) := by
    apply Array.ext_getElem?
    intro place
    rw [Array.getElem?_modify, Array.getElem?_append, Array.getElem?_append]
    by_cases inFront : place < base.nodes.size
    · rw [if_pos inFront, if_pos inFront, if_neg (by omega)]
    · rw [if_neg inFront, if_neg inFront, Array.getElem?_map, Array.getElem?_map,
        Array.getElem?_modify]
      by_cases isPlace : base.nodes.size + id.index = place
      · rw [if_pos isPlace, if_pos (by omega)]
        cases arena.nodes[place - base.nodes.size]? with
        | none => rfl
        | some node => exact congrArg some (same node)
      · rw [if_neg isPlace, if_neg (by omega)]
  exact congrArg Arena.mk moved

theorem setType_behind (ty : Ty) :
    (base.behind arena).setType (base.past id) ty = base.behind (arena.setType id ty) :=
  modifyNode_behind base arena id fun _ => rfl

theorem setShape_behind (shape : Shape ExprId) :
    (base.behind arena).setShape (base.past id) (shape.map base.past) =
      base.behind (arena.setShape id shape) :=
  modifyNode_behind base arena id fun _ => rfl

theorem forgetType_behind :
    (base.behind arena).forgetType (base.past id) = base.behind (arena.forgetType id) := by
  refine modifyNode_behind base arena id fun node => ?_
  show (if (node.shape.map base.past).typeIsDerived then _ else _) = _
  rw [Shape.typeIsDerived_map]
  split <;> rfl

theorem forgetTypes_behind (path : List ExprId) :
    (path.map base.past).foldl forgetType (base.behind arena) =
      base.behind (path.foldl forgetType arena) := by
  induction path generalizing arena with
  | nil => rfl
  | cons id path ih =>
    rw [List.map_cons, List.foldl_cons, List.foldl_cons, forgetType_behind, ih]

theorem replaceOperand?_behind (parent old new : ExprId) :
    (base.behind arena).replaceOperand? (base.past parent) (base.past old)
        (base.past new) =
      (arena.replaceOperand? parent old new).map base.behind := by
  rw [replaceOperand?, replaceOperand?, shapeAt_behind,
    Shape.replaceFirst?_map base.past_injective]
  cases (arena.shapeAt parent).replaceFirst? old new with
  | none => rfl
  | some shape => exact congrArg some (setShape_behind base arena parent shape)

end

/-! ## Evaluation from the leaves up -/

section Fold

variable {α β : Type} {stop : α} {stopBehind : β} {value : ExprId → Node → Shape α → α}
  {valueBehind : ExprId → Node → Shape β → β}

/-- The computation at each moved node gives what `moved` makes of the value. -/
def Transfers (base arena : Arena) (moved : α → β) (value : ExprId → Node → Shape α → α)
    (valueBehind : ExprId → Node → Shape β → β) : Prop :=
  ∀ ⦃id node⦄, arena.node? id = some node → ∀ operands,
    valueBehind (base.past id) (node.rename base.past) (operands.map moved) =
      moved (value id node operands)

theorem foldWithin_behind (acyclic : arena.Acyclic) (moved : α → β)
    (transfers : Transfers base arena moved value valueBehind) {depth depthBehind : Nat}
    (room : arena.rank id < depth) (roomBehind : arena.rank id < depthBehind) :
    (base.behind arena).foldWithin (moved stop) valueBehind depthBehind (base.past id) =
      moved (arena.foldWithin stop value depth id) := by
  induction depth generalizing depthBehind id with
  | zero => omega
  | succ depth ih =>
    obtain ⟨depthBehind, rfl⟩ : ∃ less, depthBehind = less + 1 := ⟨depthBehind - 1, by omega⟩
    cases found : arena.node? id with
    | none => simp [foldWithin, node?_behind, found]
    | some node =>
      have foundBehind : (base.behind arena).node? (base.past id) =
          some (node.rename base.past) := by
        rw [node?_behind, found]
        rfl
      rw [foldWithin_of_node? stop value found, foldWithin_of_node? _ _ foundBehind,
        ← transfers found]
      congr 1
      show (node.shape.map base.past).map _ = _
      rw [Shape.map_map, Shape.map_map]
      apply Shape.map_congr
      intro child member
      have smaller := acyclic.rank_lt (operand_of_mem found member)
      exact ih (by omega) (by omega)

theorem fold_of_unallocated (unallocated : ¬ arena.Allocated id) :
    arena.fold stop value id = stop := by
  rw [fold]
  cases arena.size with
  | zero => rfl
  | succ depth => simp [foldWithin, node?_eq_none unallocated]

theorem not_allocated_behind (unallocated : ¬ arena.Allocated id) :
    ¬ (base.behind arena).Allocated (base.past id) := by
  unfold Allocated at unallocated ⊢
  rw [size_behind]
  show ¬ base.size + id.index < _
  omega

/-- Room for every path of an arena is room for every path of the moved one. -/
theorem Acyclic.rank_lt_size_behind (acyclic : arena.Acyclic) (allocated : arena.Allocated id) :
    arena.rank id < (base.behind arena).size := by
  have room := acyclic.rank_lt_size allocated
  rw [size_behind]
  omega

theorem Acyclic.fold_moved (acyclic : arena.Acyclic) (moved : α → β) (stops : stopBehind = moved stop)
    (transfers : Transfers base arena moved value valueBehind) :
    (base.behind arena).fold stopBehind valueBehind (base.past id) =
      moved (arena.fold stop value id) := by
  subst stops
  by_cases allocated : arena.Allocated id
  · exact foldWithin_behind acyclic moved transfers (acyclic.rank_lt_size allocated)
      (acyclic.rank_lt_size_behind allocated)
  · rw [fold_of_unallocated allocated, fold_of_unallocated (not_allocated_behind allocated)]

/-- What does not mention nodes is the same for a moved expression. -/
theorem Acyclic.fold_behind (acyclic : arena.Acyclic) {valueBehind : ExprId → Node → Shape α → α}
    (same : ∀ ⦃id node⦄, arena.node? id = some node → ∀ operands,
      valueBehind (base.past id) (node.rename base.past) operands =
        value id node operands) :
    (base.behind arena).fold stop valueBehind (base.past id) = arena.fold stop value id := by
  refine acyclic.fold_moved (fun value => value) rfl fun other node found operands => ?_
  rw [show operands.map (fun value => value) = operands from operands.map_id]
  exact same found operands

end Fold

/-! ## What is read off an expression -/

theorem outputs_behind (base arena : Arena) (id : ExprId) :
    (base.behind arena).outputs (base.past id) =
      (arena.outputs id).map base.past := by
  rw [outputs, outputs, shapeAt_behind]
  cases arena.shapeAt id <;> rfl

namespace Acyclic

variable (acyclic : arena.Acyclic) (base : Arena) (id : ExprId)

include acyclic

theorem typeOf_behind : (base.behind arena).typeOf (base.past id) = arena.typeOf id :=
  acyclic.fold_behind fun _ _ _ _ => rfl

theorem render_behind : (base.behind arena).render (base.past id) = arena.render id :=
  acyclic.fold_behind fun _ _ _ _ => rfl

theorem constStep_behind (node : Node) (operands : Shape Bool) :
    (base.behind arena).constStep (node.rename base.past) operands =
      arena.constStep node operands := by
  cases operands with
  | construct target child =>
    simp only [constStep, Node.rename, Shape.children_map, List.all_map, Function.comp_def,
      outputs_behind, acyclic.typeOf_behind]
  | _ => rfl

theorem isConst_behind : (base.behind arena).isConst (base.past id) = arena.isConst id :=
  acyclic.fold_behind fun _ node _ operands => acyclic.constStep_behind base node operands

theorem operatorCount_behind :
    (base.behind arena).operatorCount (base.past id) = arena.operatorCount id := by
  refine acyclic.fold_behind fun _ node _ operands => ?_
  show (node.shape.map base.past).isOperator.toNat + _ = _
  rw [Shape.isOperator_map]

theorem rememberType_behind :
    (base.behind arena).rememberType (base.past id) = base.behind (arena.rememberType id) := by
  rw [rememberType, rememberType, acyclic.typeOf_behind]
  split
  · rfl
  · exact setType_behind base arena id _

theorem names_behind :
    (base.behind arena).names (base.past id) =
      (arena.names id).map (Prod.map base.past fun name => name) := by
  refine acyclic.fold_moved (List.map (Prod.map base.past fun name => name)) rfl
    fun other node _ operands => ?_
  rw [Shape.children_map, List.map_append, List.map_flatten]
  cases shape : node.shape <;> simp [Node.rename, shape, Shape.map]

theorem pathTo?_behind (target : ExprId) :
    (base.behind arena).pathTo? (base.past id) (base.past target) =
      (arena.pathTo? id target).map (List.map base.past) := by
  refine acyclic.fold_moved (Option.map (List.map base.past)) rfl
    fun other node _ operands => ?_
  simp only [Node.rename, Shape.children_map, List.zip_map, List.findSome?_map,
    List.map_findSome?, Function.comp_def, Prod.map_fst, Prod.map_snd, past_inj]
  congr 1
  funext entry
  split
  · rfl
  · cases entry.2 <;> rfl

end Acyclic

/-! ## The next branch -/

theorem deeper_map (moved : ExprId → ExprId) (best found : Option (Nat × ExprId)) :
    deeper (best.map (Prod.map (fun depth => depth) moved))
        (found.map (Prod.map (fun depth => depth) moved)) =
      (deeper best found).map (Prod.map (fun depth => depth) moved) := by
  cases best with
  | none => rfl
  | some best =>
    cases found with
    | none => rfl
    | some found =>
      show (if best.1 ≤ found.1 then _ else _) = Option.map _ (if best.1 ≤ found.1 then _ else _)
      split <;> rfl

theorem foldl_deeper_map (moved : ExprId → ExprId) (branches : List (Option (Nat × ExprId)))
    (best : Option (Nat × ExprId)) :
    (branches.map (Option.map (Prod.map (fun depth => depth) moved))).foldl deeper
        (best.map (Prod.map (fun depth => depth) moved)) =
      (branches.foldl deeper best).map (Prod.map (fun depth => depth) moved) := by
  induction branches generalizing best with
  | nil => rfl
  | cons branch branches ih =>
    rw [List.map_cons, List.foldl_cons, List.foldl_cons, deeper_map, ih]

theorem Acyclic.constBranch?_behind (acyclic : arena.Acyclic) (base : Arena) (id : ExprId) :
    (base.behind arena).constBranch? (base.past id) =
      (arena.constBranch? id).map base.past := by
  have moved : (base.behind arena).fold none (base.behind arena).branchStep (base.past id) =
      (arena.fold none arena.branchStep id).map (Prod.map (fun depth => depth) base.past) := by
    refine acyclic.fold_moved (Option.map (Prod.map (fun depth => depth) base.past)) rfl
      fun other node _ operands => ?_
    rw [branchStep, branchStep, acyclic.isConst_behind]
    show (if (node.shape.map base.past).isOperator && _ then _ else _) = _
    rw [Shape.isOperator_map, Shape.children_map]
    split
    · rfl
    · rw [← foldl_deeper_map, List.map_map, List.map_map]
      congr 1
      apply List.map_congr_left
      intro branch _
      cases branch <;> rfl
  rw [constBranch?, constBranch?, moved, Option.map_map, Option.map_map]
  rfl

/-! ## Validity -/

section Validity

variable {first second : Session} {bounds : Bounds}

/-- Constructors are checked against the structs of the session, so two sessions that hold the same
structs judge alike. -/
theorem Acyclic.checkNode_behind (acyclic : arena.Acyclic) {node : Node}
    (covered : node.CoveredBy bounds)
    (structs : ∀ struct, bounds.holds (.struct struct) = true →
      second.structAt struct = first.structAt struct) (base : Arena) :
    (base.behind arena).checkNode second (node.rename base.past) = arena.checkNode first node := by
  obtain ⟨loc, ty, shape⟩ := node
  cases shape with
  | index source subscript =>
    simp only [checkNode, Node.rename, Shape.map, acyclic.typeOf_behind]
  | construct target child =>
    have values : ((base.behind arena).outputs (base.past child)).map (base.behind arena).typeOf =
        (arena.outputs child).map arena.typeOf := by
      rw [outputs_behind, List.map_map]
      exact List.map_congr_left fun output _ => acyclic.typeOf_behind base output
    show (base.behind arena).checkConstructor second loc target (base.past child) =
      arena.checkConstructor first loc target child
    unfold checkConstructor
    rw [values]
    cases isStruct : target.struct? with
    | none => rfl
    | some struct =>
      have held : bounds.holds (.struct struct) = true :=
        covered.types target (List.mem_singleton_self _) _ (Ty.struct_mem_handles isStruct)
      simp only [structs struct held]
  | _ => rfl

theorem Acyclic.check_behind (acyclic : arena.Acyclic) (covered : arena.CoveredBy bounds)
    (structs : ∀ struct, bounds.holds (.struct struct) = true →
      second.structAt struct = first.structAt struct) (base : Arena) (id : ExprId) :
    (base.behind arena).check second (base.past id) = arena.check first id := by
  refine acyclic.fold_behind fun other node found operands => ?_
  rw [acyclic.checkNode_behind (covered found) structs]

theorem Acyclic.checkOutputs_behind (acyclic : arena.Acyclic) (base : Arena)
    (outputs : List ExprId) :
    (base.behind arena).checkOutputs (outputs.map base.past) = arena.checkOutputs outputs := by
  unfold checkOutputs
  rw [List.findIdx?_map]
  have same : ((fun output => !((base.behind arena).typeOf output).isConst) ∘ base.past) =
      fun output => !(arena.typeOf output).isConst := by
    funext output
    simp only [Function.comp_apply, acyclic.typeOf_behind]
  rw [same]
  cases found : outputs.findIdx? fun output => !(arena.typeOf output).isConst with
  | none => rfl
  | some index =>
    obtain ⟨bound, _⟩ := List.findIdx?_eq_some_iff_getElem.mp found
    have isOutput : (outputs.map base.past).getD index default =
        base.past (outputs.getD index default) := by
      simp [List.getD, bound]
    simp only [isOutput, locAt_behind, acyclic.typeOf_behind]

theorem Acyclic.requireConst_behind (acyclic : arena.Acyclic) (base : Arena) (id : ExprId) :
    (base.behind arena).requireConst (base.past id) = arena.requireConst id := by
  unfold requireConst
  rw [shapeAt_behind]
  cases shape : arena.shapeAt id with
  | list elements => exact acyclic.checkOutputs_behind base elements
  | construct target child =>
    simp only [Shape.map, outputs_behind, acyclic.checkOutputs_behind]
  | unary op child =>
    cases op <;> simp only [Shape.map, Shape.label, acyclic.isConst_behind, locAt_behind]
  | _ => simp only [Shape.map, Shape.label, acyclic.isConst_behind, locAt_behind]

end Validity

end Arena

end Assay
