import Assay.Proofs.Check.CleanSteps
import Assay.Proofs.Scope.Bookkeeping
import Mathlib.Data.List.Sort

/-!
Contract: what the variables of blocks start from, in every state that operations lead to.
-/

namespace Assay

/-! ## One block -/

variable {name : String} {struct : Struct} {operation : Operation}

theorem Struct.contains_iff_idxOf? :
    struct.contains name = true ↔ (struct.idxOf? name).isSome = true := by
  rw [idxOf?, List.findIdx?_isSome, contains]

namespace Block

variable {block : Block} {vars : Struct} {name : String}

/-- No name starts from two expressions, and no name but that of a variable starts from one. -/
structure Proper (block : Block) (vars : Struct) : Prop where
  distinct : block.started.Nodup
  declared : ∀ name ∈ block.started, vars.contains name = true

namespace Proper

theorem mono (proper : block.Proper vars) {later : Struct}
    (kept : ∀ name, vars.contains name = true → later.contains name = true) :
    block.Proper later :=
  ⟨proper.distinct, fun name member => kept name (proper.declared name member)⟩

theorem setInit (proper : block.Proper vars) (declared : vars.contains name = true)
    (expr : ExprId) : (block.setInit name expr).Proper vars := by
  obtain ⟨distinct, others⟩ := proper
  constructor
  · rw [started_setInit]
    split
    · exact distinct
    · next absent =>
      rw [← List.concat_eq_append]
      exact distinct.concat absent
  · intro other member
    rcases mem_started_setInit.mp member with rfl | older
    · exact declared
    · exact others other older

end Proper

end Block

/-! ## Operations that leave the blocks alone -/

namespace Edit

open Stopping (Keeps)

variable {base : Session} {module : ModuleId}

def SameBlocks (base session : Session) : Prop :=
  session.blocks = base.blocks

theorem addMember_sameBlocks {session : Session} {id : StructId} {name : String} {ty : Ty}
    {struct : Struct} (same : SameBlocks base session)
    (_ : (session.structAt id).addMember name ty = .ok struct) :
    SameBlocks base (session.setStruct id struct) :=
  same

theorem describeStruct_sameBlocks (id : StructId) :
    Keeps (SameBlocks base) (describeStruct module id) :=
  describeStruct_keeps (fun same _ => same) fun struct session same =>
    (annotateStruct_annotates struct id session (.refl module session)).blocks.trans same

theorem addStruct_sameBlocks (id : StructId) : Keeps (SameBlocks base) (addStruct module id) :=
  addStruct_keeps (fun same _ => same) (describeStruct_sameBlocks id)

theorem addFunc_sameBlocks (id : FuncId) : Keeps (SameBlocks base) (addFunc module id) := by
  refine .get_bind fun session => Keeps.bind (changeModule_keeps fun same _ => same) (fun _ => ?_) session
  refine Keeps.bind (fun _ same => same) fun _ => ?_
  refine (addStruct_sameBlocks _).bind fun _ => (addStruct_sameBlocks _).bind fun _ => ?_
  exact .forM fun block _ => .get_bind fun state =>
    describeStruct_sameBlocks (state.blockAt block).vars state

theorem installPrelude_sameBlocks : Keeps (SameBlocks base) (installPrelude module) :=
  Keeps.bind (.forM fun id _ => addStruct_sameBlocks id) fun _ => .forM fun kind _ session same =>
    (describeKind_annotates kind session (.refl module session)).blocks.trans same

end Edit

def Operation.touchesBlocks : Operation → Bool
  | .newBlock _ _ | .attachBlock _ _ _ | .setInit _ _ _ | .foldBlock _ _ => true
  | _ => false

theorem Operation.blocks_eq (other : operation.touchesBlocks = false) (session : Session) :
    (operation.run session).blocks = session.blocks := by
  cases operation with
  | newModule name loc => rfl
  | newStruct name loc packed => rfl
  | newFunc name loc => rfl
  | newObject name loc => rfl
  | addMember struct name ty => exact Edit.addMember_keeps Edit.addMember_sameBlocks session rfl
  | addInbound func name ty => exact Edit.addInbound_keeps Edit.addMember_sameBlocks func session rfl
  | addOutbound func name ty => exact Edit.addOutbound_keeps Edit.addMember_sameBlocks func session rfl
  | addLocal block name ty => exact Edit.addLocal_keeps Edit.addMember_sameBlocks block session rfl
  | addImport module imported =>
    exact Stopping.Keeps.get_bind (fun state =>
      @Edit.changeModule_keeps (Edit.SameBlocks session) _ _ (fun same _ => same) state) session rfl
  | addStruct module struct => exact Edit.addStruct_sameBlocks struct session rfl
  | addObject module object => 
    exact @Edit.addObject_keeps _ (Edit.SameBlocks session) _ (fun same _ => same) session rfl
  | addFunc module func => exact Edit.addFunc_sameBlocks func session rfl
  | addConstant module constant =>
    exact (Edit.addConstant_annotates constant session (.refl module session)).blocks
  | addGlobal module global =>
    exact (Edit.addGlobal_annotates global session (.refl module session)).blocks
  | findString module text loc => rfl
  | intern module text => rfl
  | installPrelude module => exact Edit.installPrelude_sameBlocks session rfl
  | bindStruct struct => exact (session.bindStruct_sameOwners struct).blocks
  | bindModule module log =>
    exact (Session.LastsBinding.bindStructs (Session.lastsBinding_sameOwners session)
      ⟨rfl, rfl, fun _ => rfl⟩ _ _ log).blocks
  | newBlock name? loc => cases other
  | attachBlock func role block => cases other
  | setInit block name expr => cases other
  | foldBlock block arena => cases other

/-! ## All blocks of a session -/

namespace Session

variable {session before after : Session} {block : BlockId} {name : String} {id : StructId}

def Proper (session : Session) : Prop :=
  ∀ block, (session.blockAt block).Proper (session.structAt (session.blockAt block).vars)

theorem blockProper_of_empty {state : Block} (empty : state.init = []) (vars : Struct) :
    state.Proper vars := by
  constructor
  · simp [Block.started, empty]
  · simp [Block.started, empty]

/-- A struct that contains a name has been allocated. -/
theorem held_of_contains (contains : (session.structAt id).contains name = true) :
    id.index < session.structs.size := by
  apply Nat.lt_of_not_le
  intro unheld
  rw [structAt, Array.getElem?_eq_none unheld] at contains
  cases contains

theorem Upholds.contains (upholds : before.Upholds after)
    (contains : (before.structAt id).contains name = true) :
    (after.structAt id).contains name = true := by
  rw [Struct.contains_iff_idxOf?, Option.isSome_iff_exists] at *
  obtain ⟨slot, found⟩ := contains
  have held : id.index < before.structs.size :=
    held_of_contains (Struct.contains_iff_idxOf?.mpr (Option.isSome_of_eq_some found))
  exact ⟨slot, (upholds.structs id held).idxOf? found⟩

/-- Variables are never lost, so blocks that start from the same expressions stay proper. -/
theorem Proper.upholds (proper : before.Proper) (upholds : before.Upholds after)
    (same : ∀ block, (after.blockAt block).init = (before.blockAt block).init ∧
      (after.blockAt block).vars = (before.blockAt block).vars) : after.Proper := by
  intro block
  obtain ⟨init, vars⟩ := same block
  have still := (proper block).mono fun _ => upholds.contains
  rw [← vars] at still
  obtain ⟨distinct, declared⟩ := still
  rw [Block.started, ← init] at distinct declared
  exact ⟨distinct, declared⟩

theorem Proper.setInit (proper : session.Proper)
    (declared : (session.structAt (session.blockAt block).vars).contains name = true)
    (expr : ExprId) :
    (session.modifyBlock block fun state => state.setInit name expr).Proper := by
  intro other
  rw [blockAt_modifyBlock]
  split
  · next same =>
    obtain ⟨rfl, _⟩ := same
    exact (proper block).setInit declared expr
  · exact proper other

theorem mem_initsInOrder {entry : String × ExprId} (listed : entry ∈ session.initsInOrder block) :
    (session.structAt (session.blockAt block).vars).contains entry.1 = true ∧
      entry ∈ (session.blockAt block).init := by
  obtain ⟨member, isMember, found⟩ := List.mem_filterMap.mp listed
  obtain ⟨init, isInit, rfl⟩ := Option.map_eq_some_iff.mp found
  exact ⟨Struct.contains_eq_true.mpr (List.mem_map_of_mem isMember), Table.mem_of_lookup isInit⟩

theorem blockAt_setInit_vars (session : Session) (block : BlockId) (name : String) (expr : ExprId) :
    ((session.modifyBlock block fun state => state.setInit name expr).blockAt block).vars =
      (session.blockAt block).vars := by
  rw [blockAt_modifyBlock]
  split
  · rfl
  · rfl

theorem Proper.foldBlock (proper : session.Proper) (arena : Arena) (block : BlockId) :
    (session.foldBlock arena block).session.Proper := by
  -- The variables of the block stay declared while the expressions are exchanged.
  refine (foldBlock_keeps (motive := fun later => later.Proper ∧ later.structs = session.structs ∧
    (later.blockAt block).vars = (session.blockAt block).vars) (fun {later} _ _ _ member kept => ?_)
    ⟨proper, rfl, rfl⟩ arena).1
  obtain ⟨still, structs, vars⟩ := kept
  have declared := (mem_initsInOrder member).1
  have sameVars : later.structAt (later.blockAt block).vars =
      session.structAt (session.blockAt block).vars := by
    rw [vars, structAt, structAt, structs]
  rw [← sameVars] at declared
  exact ⟨still.setInit declared _, structs, (blockAt_setInit_vars ..).trans vars⟩

theorem proper_ofTarget (target : Target) : (ofTarget target).Proper :=
  fun _ => blockProper_of_empty rfl _

end Session

theorem Operation.proper {session : Session} (consistent : session.Consistent)
    (allocated : operation.Allocated session) (proper : session.Proper) :
    (operation.run session).Proper := by
  have upholds : session.Upholds (operation.run session) :=
    (operation.changes consistent allocated).upholds
  cases touches : operation.touchesBlocks with
  | false =>
    have blocks := operation.blocks_eq touches session
    refine proper.upholds upholds fun block => ?_
    rw [Session.blockAt, Session.blockAt, blocks]
    exact ⟨rfl, rfl⟩
  | true =>
    cases operation with
    | newBlock name? loc =>
      have isRun := congrArg Prod.snd
        (Session.allocBlock_run (name?.getD (Session.unnamedBlock loc)) loc session)
      rw [show run session (.newBlock name? loc) = _ from isRun] at upholds ⊢
      intro block
      rcases Session.getD_push_cases session.blocks _ block.index with same | new
      · rw [Session.blockAt, same]
        exact (proper block).mono fun _ => upholds.contains
      · rw [Session.blockAt, new]
        exact Session.blockProper_of_empty rfl _
    | attachBlock func role block =>
      refine proper.upholds upholds fun other => ?_
      have isBlock : (run session (.attachBlock func role block)).blockAt other =
          (session.modifyBlock block fun state =>
            { state with parent := some (.func func) }).blockAt other := rfl
      rw [isBlock, Session.blockAt_modifyBlock]
      split <;> exact ⟨rfl, rfl⟩
    | setInit block name expr =>
      change ((Edit.setInit block name expr).run.run session).2.Proper
      rw [Edit.setInit, Stopping.run_get_bind]
      cases declared : (session.structAt (session.blockAt block).vars).contains name with
      | false => exact proper
      | true => exact proper.setInit declared expr
    | foldBlock block arena => exact proper.foldBlock arena block
    | _ => cases touches

namespace Session

variable {session before after : Session} {block : BlockId}

theorem Reachable.proper (reachable : session.Reachable) : session.Proper := by
  obtain ⟨target, reaches⟩ := reachable
  exact (reaches.keeps (consistent_ofTarget target) (fun operation still allocated proper =>
    operation.proper still allocated proper) (proper_ofTarget target)).2

end Session

/-! ## The order of the variables -/

namespace Struct

def slotKey (struct : Struct) (name : String) : Nat :=
  (struct.idxOf? name).elim 0 (· + 1)

/-- Whether the first pair may stand before the second one when pairs are sorted by the places of
their names. -/
def slotLe (struct : Struct) (first second : String × ExprId) : Bool :=
  struct.slotKey first.1 ≤ struct.slotKey second.1

variable {struct : Struct} {own : StructId} {first second : String × ExprId}

theorem slotLe_iff :
    struct.slotLe first second = true ↔ struct.slotKey first.1 ≤ struct.slotKey second.1 :=
  decide_eq_true_iff

theorem pairwise_slotLe (struct : Struct) (entries : List (String × ExprId)) :
    (entries.mergeSort struct.slotLe).Pairwise fun first second =>
      struct.slotLe first second = true := by
  apply List.pairwise_mergeSort
  · intro first second third le leNext
    rw [slotLe_iff] at *
    omega
  · intro first second
    rw [Bool.or_eq_true, slotLe_iff, slotLe_iff]
    omega

/-- Members stand in the order of their places, each with a name of its own. -/
theorem Arranged.pairwise_slotKey (arranged : struct.Arranged own) :
    struct.members.Pairwise fun first second =>
      first.name ≠ second.name ∧ struct.slotKey first.name ≤ struct.slotKey second.name := by
  have place (slot : Nat) (bound : slot < struct.members.length) :
      struct.slotKey (struct.members[slot]).name = slot + 1 := by
    have found : struct.idxOf? (struct.members[slot]).name = some slot := by
      rw [arranged.idxOf?_eq_some, List.getElem?_eq_getElem bound]
      rfl
    rw [slotKey, found, Option.elim_some]
  rw [List.pairwise_iff_getElem]
  intro earlier later isEarlier isLater before
  have first := place earlier isEarlier
  have second := place later isLater
  constructor
  · intro same
    rw [same] at first
    omega
  · omega

/-- Members that may stand on either side of each other are the same member. -/
theorem Arranged.name_eq_of_slotLe (arranged : struct.Arranged own)
    (declared : struct.contains first.1 = true) (le : struct.slotLe first second = true)
    (ge : struct.slotLe second first = true) : first.1 = second.1 := by
  rw [contains_iff_idxOf?, Option.isSome_iff_exists] at declared
  obtain ⟨slot, isSlot⟩ := declared
  rw [slotLe_iff, slotKey, slotKey, isSlot] at le ge
  cases isOther : struct.idxOf? second.1 with
  | none => simp [isOther] at le
  | some other =>
    have same : slot = other := by
      simp only [isOther, Option.elim_some] at le ge
      omega
    subst same
    have found := arranged.idxOf?_eq_some.mp isSlot
    rw [arranged.idxOf?_eq_some.mp isOther] at found
    exact (Option.some.inj found).symm

end Struct

namespace Session

variable {session : Session} {block : BlockId} {own : StructId}

/-- Pairs of names and expressions, sorted by the places of the names among the variables of a
block. -/
def sortedBySlot (session : Session) (block : BlockId) (entries : List (String × ExprId)) :
    List (String × ExprId) :=
  entries.mergeSort (session.structAt (session.blockAt block).vars).slotLe

variable (arranged : (session.structAt (session.blockAt block).vars).Arranged own)
include arranged

theorem initsInOrder_pairwise :
    (session.initsInOrder block).Pairwise fun first second =>
      first.1 ≠ second.1 ∧
        (session.structAt (session.blockAt block).vars).slotLe first second = true := by
  rw [initsInOrder, List.pairwise_filterMap]
  refine arranged.pairwise_slotKey.imp fun places first isFirst second isSecond => ?_
  obtain ⟨_, _, rfl⟩ := Option.map_eq_some_iff.mp isFirst
  obtain ⟨_, _, rfl⟩ := Option.map_eq_some_iff.mp isSecond
  exact ⟨places.1, Struct.slotLe_iff.mpr places.2⟩

/-- The variables that start from an expression, each with it, are what the block lists. -/
theorem initsInOrder_perm (proper : session.Proper) :
    (session.initsInOrder block).Perm (session.blockAt block).init := by
  obtain ⟨distinct, declared⟩ := proper block
  rw [List.perm_ext_iff_of_nodup]
  · rintro ⟨name, init⟩
    refine ⟨fun member => (mem_initsInOrder member).2, fun member => ?_⟩
    have contains := declared name (List.mem_map.mpr ⟨_, member, rfl⟩)
    obtain ⟨slot, isMember, rfl⟩ := List.mem_map.mp (Struct.contains_eq_true.mp contains)
    refine List.mem_filterMap.mpr ⟨slot, isMember, ?_⟩
    rw [(Table.lookup_eq_some_iff_mem distinct).mpr member]
    rfl
  · exact (initsInOrder_pairwise arranged).imp fun apart same => apart.1 (congrArg Prod.fst same)
  · exact List.Nodup.of_map Prod.fst distinct

/-- However the expressions of a block are listed, sorting them gives them in the order of the
variables. -/
theorem sortedBySlot_eq (proper : session.Proper) {listed : List (String × ExprId)}
    (permutation : listed.Perm (session.blockAt block).init) :
    session.sortedBySlot block listed = session.initsInOrder block := by
  have sorted := (List.mergeSort_perm listed
    (session.structAt (session.blockAt block).vars).slotLe).trans permutation
  refine List.Perm.eq_of_pairwise ?_ (Struct.pairwise_slotLe _ listed)
    ((initsInOrder_pairwise arranged).imp fun both => both.2)
    (sorted.trans (initsInOrder_perm arranged proper).symm)
  rintro ⟨name, init⟩ ⟨other, found⟩ isFirst isSecond le ge
  have listedFirst := sorted.mem_iff.mp isFirst
  have listedSecond := (mem_initsInOrder isSecond).2
  have contains := (proper block).declared name (List.mem_map.mpr ⟨_, listedFirst, rfl⟩)
  have sameName : name = other := arranged.name_eq_of_slotLe contains le ge
  subst sameName
  rw [← Table.lookup_eq_some_iff_mem (proper block).distinct] at listedFirst listedSecond
  rw [listedFirst] at listedSecond
  cases listedSecond
  rfl

end Session

end Assay
