import Assay.Proofs.Check.Sequence
import Assay.Proofs.Expr.Relocation
import Assay.Proofs.Scope.Extension

/-!
Contract: folding in a run whose expressions lie behind those of another arena.
-/

namespace Assay

open Assay.Computation

/-! ## Expressions -/

/-- Runs in given sessions. The expressions of the inner one lie behind `base` in the outer one. -/
structure Run.Parallel (base : Arena) (first second : Session) (inner outer : Run) : Prop where
  file : outer.file = inner.file
  inside : inner.session = first
  outside : outer.session = second
  arena : outer.arena = base.behind inner.arena
  blocks : inner.blocks <+: outer.blocks
  intact : inner.Intact

namespace Run.Parallel

variable {base arena : Arena} {first second : Session} {inner outer : Run}

theorem reporting (parallel : Parallel base first second inner outer) (entries shown : List Entry) :
    Parallel base first second (inner.reporting entries) (outer.reporting shown) :=
  ⟨parallel.file, parallel.inside, parallel.outside, parallel.arena, parallel.blocks,
    parallel.intact.reporting _⟩

theorem follow (parallel : Parallel base first second inner outer) (follows : inner.Follows arena) :
    Parallel base first second { inner with arena := arena }
      { outer with arena := base.behind arena } :=
  ⟨parallel.file, parallel.inside, parallel.outside, rfl, parallel.blocks,
    follows.intact parallel.intact⟩

end Run.Parallel

namespace Pass

open Assay.Computation (Relates)
open Run (Parallel)

variable {base arena : Arena} {first second : Session} {scope : ScopeId} {root : ExprId}

/-- Both runs give a root, or neither does; it is allocated and has moved with the others. -/
structure Yields (base : Arena) (first second : Session) (root shown : Option ExprId)
    (inner outer : Run) : Prop where
  moved : shown = root.map base.past
  parallel : Parallel base first second inner outer
  allocated : ∀ id, root = some id → inner.arena.Allocated id

theorem place_parallel (path : String) :
    Relates (Parallel base first second)
      (fun loc shown inner outer => shown = loc ∧ Parallel base first second inner outer)
      (place path) (place path) :=
  fun _ _ parallel => ⟨congrArg (fun file => Location.item file path) parallel.file, parallel⟩

theorem lower_yields (spec : Manifest.Expr) (loc : Location) :
    Relates (Parallel base first second) (Yields base first second) (lower spec loc)
      (lower spec loc) := by
  intro inner outer parallel
  have follows := lower_follows parallel.intact spec loc
  have yields := Manifest.Expr.lower_yields loc spec inner.arena
  have moved := Manifest.Expr.lower_behind base inner.arena loc spec
  rw [← parallel.arena] at moved
  rw [lower, run_get_bind, run_get_bind, moved]
  generalize (spec.lower loc).run.run inner.arena = outcome at follows yields ⊢
  obtain ⟨result, arena⟩ := outcome
  cases result with
  | error symbol =>
    exact ⟨rfl, (parallel.follow follows).reporting _ _, fun _ absent => by cases absent⟩
  | ok root =>
    refine ⟨rfl, parallel.follow follows, ?_⟩
    rintro _ ⟨⟩
    exact (yields.result rfl).2.allocated

theorem judge_parallel {verdict shown : Run → Verdict}
    (same : ∀ inner outer, Parallel base first second inner outer → shown outer = verdict inner) :
    Relates (fun inner outer => Parallel base first second inner outer ∧ inner.arena.Allocated root)
      (fun ok shown inner outer => shown = ok ∧ Parallel base first second inner outer ∧
        inner.arena.Allocated root)
      (judge verdict) (judge shown) := by
  intro inner outer related
  obtain ⟨parallel, allocated⟩ := related
  rw [judge, judge, run_get_bind, run_get_bind, same inner outer parallel]
  exact ⟨rfl, parallel.reporting _ _, allocated⟩

theorem initializer?_behind (acyclic : arena.Acyclic) (base : Arena) (id : ExprId) :
    initializer? (base.behind arena) (base.past id) = initializer? arena id := by
  have literals : ∀ ids : List ExprId,
      (ids.map base.past).mapM (base.behind arena).literal? = ids.mapM arena.literal? := by
    intro ids
    rw [List.mapM_map]
    exact congrArg (fun read => ids.mapM read) (funext (Arena.literal?_behind base arena))
  rw [initializer?, initializer?, Arena.shapeAt_behind]
  cases arena.shapeAt id with
  | literal value => simp only [Shape.map, acyclic.typeOf_behind]
  | construct target child => simp only [Shape.map, Arena.outputs_behind, literals]
  | list elements =>
    simp only [Shape.map, literals, List.head?_map]
    cases elements.head? with
    | none => rfl
    | some first => simp only [Option.map_some, Option.bind_eq_bind, Option.bind_some,
        acyclic.typeOf_behind]
  | _ => rfl

variable (view : Session.SameView scope first second)
include view

theorem resolve_parallel (root : ExprId) :
    Relates (fun inner outer => Parallel base first second inner outer ∧ inner.arena.Allocated root)
      (fun ok shown inner outer => shown = ok ∧ Parallel base first second inner outer ∧
        inner.arena.Allocated root)
      (resolve scope root) (resolve scope (base.past root)) := by
  intro inner outer related
  obtain ⟨parallel, allocated⟩ := related
  have follows := resolve_follows parallel.intact scope root
  have moved := Arena.resolve_behind view parallel.intact.acyclic base root
  rw [← parallel.arena, ← parallel.inside, ← parallel.outside] at moved
  rw [resolve, resolve, run_get_bind, run_get_bind, moved]
  exact ⟨rfl, (parallel.follow follows).reporting _ _, Nat.lt_of_lt_of_le allocated
    follows.revises.size_le⟩

theorem prepare_yields (structs : ∀ struct : StructId, struct.index < first.structs.size →
      second.structAt struct = first.structAt struct) (spec : Manifest.Expr) (loc : Location) :
    Relates (Parallel base first second) (Yields base first second) (prepare spec scope loc)
      (prepare spec scope loc) := by
  have unyielding : ∀ {inner outer : Run}, Parallel base first second inner outer →
      Yields base first second none none inner outer :=
    fun parallel => ⟨rfl, parallel, fun _ absent => by cases absent⟩
  refine Relates.bind (lower_yields spec loc) fun value shown => ?_
  rintro inner outer ⟨rfl, parallel, allocated⟩
  cases value with
  | none => exact unyielding parallel
  | some root =>
    refine Relates.bind (resolve_parallel view root) (fun ok shown => ?_) inner outer
      ⟨parallel, allocated root rfl⟩
    rintro inner outer ⟨rfl, related⟩
    cases shown with
    | false => exact unyielding related.1
    | true =>
      refine Relates.bind (judge_parallel fun inner outer parallel => ?_) (fun ok shown => ?_)
        inner outer related
      · rw [parallel.arena, parallel.inside, parallel.outside]
        exact parallel.intact.acyclic.check_behind parallel.intact.covered
          (fun struct held => structs struct (parallel.inside ▸ of_decide_eq_true held)) base root
      · rintro inner outer ⟨rfl, parallel, allocated⟩
        cases shown with
        | false => exact unyielding parallel
        | true =>
          refine ⟨rfl, parallel, ?_⟩
          rintro _ ⟨⟩
          exact allocated

theorem inlined_behind (acyclic : arena.Acyclic) (allocated : arena.Allocated root) (base : Arena) :
    (Rooted.inlineNames second scope ⟨base.behind arena, base.past root⟩).2 =
      ((Rooted.inlineNames first scope ⟨arena, root⟩).2).behind base :=
  congrArg Prod.snd (Rooted.inlineNames_behind base view
    (show (⟨arena, root⟩ : Rooted).arena.Acyclic from acyclic) allocated)

theorem foldRoot_yields (root : ExprId) (loc : Location) :
    Relates (fun inner outer => Parallel base first second inner outer ∧ inner.arena.Allocated root)
      (Yields base first second) (foldRoot scope root loc) (foldRoot scope (base.past root) loc) := by
  rintro inner outer ⟨parallel, allocated⟩
  obtain ⟨follows, rootAllocated⟩ := inlineNames_follows parallel.intact scope allocated
  have folded := simplify_folded parallel.intact follows rootAllocated
  have inlined : (Rooted.inlineNames outer.session scope ⟨outer.arena, base.past root⟩).2 =
      ((Rooted.inlineNames inner.session scope ⟨inner.arena, root⟩).2).behind base := by
    rw [parallel.arena, parallel.inside, parallel.outside]
    exact inlined_behind view parallel.intact.acyclic allocated base
  have simplified := Rooted.simplify_behind base follows.acyclic rootAllocated
  rw [foldRoot, foldRoot, run_get_bind, run_get_bind]
  dsimp only
  rw [inlined, simplified]
  generalize (Rooted.inlineNames inner.session scope ⟨inner.arena, root⟩).2.simplify = outcome
    at folded ⊢
  obtain ⟨result, solved⟩ := outcome
  have solving := parallel.follow folded.follows
  cases result with
  | ok root =>
    refine ⟨rfl, solving, ?_⟩
    rintro _ ⟨⟩
    exact folded.allocated root rfl
  | error stop =>
    cases stop with
    | fault fault => exact ⟨rfl, solving.reporting _ _, fun _ absent => by cases absent⟩
    | trap => exact absurd rfl folded.untrapped

theorem constantType_parallel (spec : Manifest.Constant) (valueType : Ty) (loc : Location) :
    Relates (Parallel base first second)
      (fun ty shown inner outer => shown = ty ∧ Parallel base first second inner outer)
      (constantType scope spec valueType loc) (constantType scope spec valueType loc) := by
  unfold constantType
  split
  · exact fun _ _ parallel => ⟨rfl, parallel⟩
  · next name _ =>
    intro inner outer parallel
    rw [run_get_bind, run_get_bind, parallel.inside, parallel.outside,
      view.type]
    split
    · exact ⟨rfl, parallel.reporting _ _⟩
    · split
      · exact ⟨rfl, parallel⟩
      · exact ⟨rfl, parallel.reporting _ _⟩

end Pass

/-! ## Runs -/

/-- The outer run has the definitions of the inner one, which may differ where `may` allows it, and
its expressions behind `base`. -/
structure Run.Placed (base : Arena) (may : Handle → Prop) (inner outer : Run) : Prop where
  file : outer.file = inner.file
  session : (inner.session.relocate base.past).Spares may outer.session
  arena : outer.arena = base.behind inner.arena
  blocks : inner.blocks <+: outer.blocks

namespace Run

variable {base : Arena} {may : Handle → Prop} {first second : Session} {scope : ScopeId}
  {inner outer : Run}

theorem Parallel.placed (parallel : Parallel base first second inner outer)
    (spares : (first.relocate base.past).Spares may second) : Placed base may inner outer := by
  obtain ⟨file, rfl, rfl, arena, blocks, _⟩ := parallel
  exact ⟨file, spares, arena, blocks⟩

namespace Placed

theorem parallel (placed : Placed base may inner outer) (intact : inner.Intact) :
    Parallel base inner.session outer.session inner outer :=
  ⟨placed.file, rfl, rfl, placed.arena, placed.blocks, intact⟩

variable (placed : Placed base may inner outer) (blocks : OnlyBlocks may)
include placed blocks

theorem structAt {struct : StructId} (held : struct.index < inner.session.structs.size) :
    outer.session.structAt struct = inner.session.structAt struct :=
  placed.session.structAt blocks held

theorem moduleAt {module : ModuleId} (held : module.index < inner.session.modules.size) :
    outer.session.moduleAt module = inner.session.moduleAt module :=
  placed.session.moduleAt blocks held

/-- From a scope of the inner run that may not differ both runs show the same. -/
theorem view (integral : inner.session.Integral inner.arena.size)
    (held : (inner.session.bounds 0).holds scope.handle = true) (spared : ¬ may scope.handle) :
    Session.SameView scope inner.session outer.session := by
  have covered : (inner.session.relocate base.past).CoveredBy
      (inner.session.bounds (base.size + inner.arena.size)) := by
    refine integral.covered.relocate base.past (inner.session.bounds_le (Nat.le_add_left _ _)) ?_
    intro id heldExpr
    exact decide_eq_true (Nat.add_lt_add_left (of_decide_eq_true heldExpr) base.size)
  rw [← Session.bounds_relocate base.past] at covered
  have heldScope : ((inner.session.relocate base.past).bounds
      (base.size + inner.arena.size)).holds scope.handle = true := by
    rw [Session.bounds_relocate]
    exact (inner.session.bounds_le (Nat.zero_le _)).holds held
  exact (Session.sameView_relocate base.past inner.session scope).trans
    (placed.session.sameView blocks covered (integral.nested.relocate base.past) heldScope spared)

end Placed

end Run

namespace Pass

open Assay.Computation (Relates)
open Run (Parallel Placed)

variable {α : Type} {base : Arena} {may : Handle → Prop} {first second : Session}
  {inner outer : Run} {module : ModuleId} {block : BlockId} {frame : Frame}
  {state shown : Session.Folded}

def Lands (base : Arena) (may : Handle → Prop) (_ _ : Unit) (inner outer : Run) : Prop :=
  Placed base may inner outer

theorem placed_of_lands {pre : Run → Run → Prop} {pass shown : Pass Unit} (related : pre inner outer)
    (lands : Relates pre (Lands base may) pass shown) :
    Placed base may (pass.run inner).2 (shown.run outer).2 :=
  lands inner outer related

theorem register_placed {edit shown : Edit α} (refusal : Fault → Entry)
    (spares : ((edit.run.run first).2.relocate base.past).Spares may (shown.run.run second).2) :
    Relates (Parallel base first second) (Lands base may) (register refusal edit)
      (register refusal shown) := by
  intro inner outer parallel
  obtain ⟨entries, isInner, _⟩ := register_run refusal edit inner
  obtain ⟨others, isOuter, _⟩ := register_run refusal shown outer
  rw [isInner, isOuter, parallel.inside, parallel.outside]
  exact ⟨parallel.file, spares, parallel.arena, parallel.blocks⟩

/-! Constants -/

/-- A module of both sessions takes a constant in both. -/
theorem addConstant_spares (spares : (first.relocate base.past).Spares may second)
    (blocks : OnlyBlocks may) (held : module.index < first.modules.size) (constant : Constant) :
    (((Edit.addConstant module constant).run.run first).2.relocate base.past).Spares may
      ((Edit.addConstant module constant).run.run second).2 := by
  have shares : Session.Shares (fun first second => (first.relocate base.past).Spares may second ∧
      module.index < first.modules.size) module :=
    { same := fun related => related.1.moduleAt blocks related.2
      kept := fun related changed => ⟨related.1.both_setModule module changed,
        Nat.lt_of_lt_of_eq related.2 Array.size_modify.symm⟩ }
  exact (Edit.addConstant_mirrored shares constant first second ⟨spares, held⟩).2.1

/-- Folding a constant of a module that both runs have. -/
theorem foldConstant_placed (placed : Placed base may inner outer) (blocks : OnlyBlocks may)
    (intact : inner.Intact) (held : module.index < inner.session.modules.size)
    (spec : Manifest.Constant) (loc : Location) :
    Placed base may ((foldConstant module spec loc).run inner).2
      ((foldConstant module spec loc).run outer).2 := by
  have spares := placed.session
  have spared : ¬ may (ScopeId.module module).handle := blocks.spared nofun
  have heldScope : (inner.session.bounds 0).holds (ScopeId.module module).handle = true :=
    decide_eq_true held
  have view := placed.view blocks intact.integral heldScope spared
  have structs : ∀ struct : StructId, struct.index < inner.session.structs.size →
      outer.session.structAt struct = inner.session.structAt struct :=
    fun _ heldStruct => placed.structAt blocks heldStruct
  have parallel := placed.parallel intact
  generalize inner.session = first at *
  generalize outer.session = second at *
  refine placed_of_lands parallel (Relates.bind (prepare_yields view structs spec.value loc)
    fun value shown => ?_)
  rintro inner outer ⟨rfl, parallel, allocated⟩
  cases value with
  | none => exact parallel.placed spares
  | some root =>
    refine Relates.bind (judge_parallel fun inner outer parallel => ?_) (fun ok shown => ?_)
      inner outer ⟨parallel, allocated root rfl⟩
    · rw [parallel.arena]
      exact parallel.intact.acyclic.requireConst_behind base root
    rintro inner outer ⟨rfl, related⟩
    cases shown with
    | false => exact related.1.placed spares
    | true =>
      refine Relates.bind (foldRoot_yields view root loc) (fun value shown => ?_)
        inner outer related
      rintro inner outer ⟨rfl, parallel, _⟩
      cases value with
      | none => exact parallel.placed spares
      | some folded =>
        dsimp only [Option.map_some]
        rw [run_get_bind, run_get_bind, parallel.arena,
          initializer?_behind parallel.intact.acyclic]
        cases initializer? inner.arena folded with
        | none => exact (parallel.reporting _ _).placed spares
        | some found =>
          obtain ⟨valueType, initializer⟩ := found
          refine Relates.bind (constantType_parallel view spec valueType loc)
            (fun ty shown => ?_) inner outer parallel
          rintro inner outer ⟨rfl, parallel⟩
          cases shown with
          | none => exact parallel.placed spares
          | some ty =>
            exact register_placed _ (addConstant_spares spares blocks held _) inner outer
              parallel

/-! Locals -/

/-- A block of both sessions gets what one of its variables starts from. -/
theorem setInit_relocated (spares : (first.relocate base.past).Spares may second) (block : BlockId)
    (name : String) (root : ExprId) :
    ((first.modifyBlock block fun state => state.setInit name root).relocate base.past).Spares may
      (second.modifyBlock block fun state => state.setInit name (base.past root)) := by
  have moved : (first.modifyBlock block fun state => state.setInit name root).relocate base.past =
      (first.relocate base.past).modifyBlock block fun state => state.setInit name (base.past root) :=
    Session.relocate_modifyBlock base.past first block fun state =>
      Block.relocate_setInit base.past state name root
  rw [moved]
  exact spares.both_modifyBlock block _

theorem setInit_spares (spares : (first.relocate base.past).Spares may second)
    (blocks : OnlyBlocks may) (held : block.index < first.blocks.size)
    (spared : ¬ may (.block block))
    (heldVars : (first.blockAt block).vars.index < first.structs.size) (name : String)
    (root : ExprId) :
    (((Edit.setInit block name root).run.run first).2.relocate base.past).Spares may
      ((Edit.setInit block name (base.past root)).run.run second).2 := by
  have heldMoved : block.index < (first.relocate base.past).blocks.size :=
    Nat.lt_of_lt_of_eq held Array.size_map.symm
  have vars : second.structAt (second.blockAt block).vars =
      first.structAt (first.blockAt block).vars := by
    rw [spares.blocks block heldMoved spared, Session.blockAt_relocate]
    exact spares.structAt blocks heldVars
  rw [Edit.setInit, Edit.setInit, Stopping.run_get_bind, Stopping.run_get_bind, vars]
  split
  · exact spares
  · exact setInit_relocated spares block name root

/-! Folding what the variables of a block start from -/

theorem foldInit_placed (placed : Placed base may (state.onto inner) (shown.onto outer))
    (blocks : OnlyBlocks may) (intact : (state.onto inner).Intact)
    (held : block.index < state.session.blocks.size) (spared : ¬ may (.block block)) {init : ExprId}
    (allocated : state.arena.Allocated init) (name : String) :
    Placed base may ((Session.foldInit block state name init).onto inner)
      ((Session.foldInit block shown name (base.past init)).onto outer) := by
  have heldScope : (state.session.bounds 0).holds (ScopeId.block block).handle = true :=
    decide_eq_true held
  have view : Session.SameView (.block block) state.session shown.session :=
    placed.view blocks intact.integral heldScope spared
  have isArena : shown.arena = base.behind state.arena := placed.arena
  obtain ⟨follows, rootAllocated⟩ := inlineNames_follows intact (.block block) allocated
  have acyclic : state.arena.Acyclic := intact.acyclic
  have inlines := inlined_behind view acyclic allocated base
  have folded : Folded (state.onto inner)
      (Rooted.inlineNames state.session (.block block) ⟨state.arena, init⟩).2.simplify :=
    simplify_folded intact follows rootAllocated
  change (state.onto inner).Follows
    (Rooted.inlineNames state.session (.block block) ⟨state.arena, init⟩).2.arena at follows
  change (Rooted.inlineNames state.session (.block block) ⟨state.arena, init⟩).2.arena.Allocated
    (Rooted.inlineNames state.session (.block block) ⟨state.arena, init⟩).2.root at rootAllocated
  rw [Session.foldInit, Session.foldInit, isArena]
  dsimp only
  rw [inlines]
  generalize (Rooted.inlineNames state.session (.block block) ⟨state.arena, init⟩).2 = inlined
    at follows rootAllocated folded ⊢
  have sameConst : (inlined.behind base).arena.isConst (inlined.behind base).root =
      inlined.arena.isConst inlined.root := follows.acyclic.isConst_behind base inlined.root
  rw [sameConst, Rooted.simplify_behind base follows.acyclic rootAllocated]
  split
  · generalize inlined.simplify = outcome at folded ⊢
    obtain ⟨result, solved⟩ := outcome
    cases result with
    | ok root => exact ⟨placed.file, setInit_relocated placed.session block name root, rfl,
        placed.blocks⟩
    | error stop =>
      cases stop with
      | fault fault => exact ⟨placed.file, placed.session, rfl, placed.blocks⟩
      | trap => exact absurd rfl folded.untrapped
  · exact ⟨placed.file, placed.session, rfl, placed.blocks⟩

theorem foldInits_placed {state shown : Session.Folded} {block : BlockId}
    (placed : Placed base may (state.onto inner) (shown.onto outer)) (blocks : OnlyBlocks may)
    (intact : (state.onto inner).Intact) (held : block.index < state.session.blocks.size)
    (spared : ¬ may (.block block)) (inits : List (String × ExprId))
    (allocated : ∀ init ∈ inits, state.arena.Allocated init.2) :
    Placed base may
      ((inits.foldl (fun state entry => Session.foldInit block state entry.1 entry.2) state).onto inner)
      (((inits.map (Prod.map (fun name => name) base.past)).foldl
        (fun state entry => Session.foldInit block state entry.1 entry.2) shown).onto outer) := by
  induction inits generalizing state shown with
  | nil => exact placed
  | cons init inits ih =>
    obtain ⟨isFirst, others⟩ := List.forall_mem_cons.mp allocated
    have next := foldInit_placed placed blocks intact held spared isFirst init.1
    obtain ⟨moves, intactNext⟩ : (state.onto inner).Moves Run.free
        ((Session.foldInit block state init.1 init.2).onto inner) ∧ _ :=
      foldInit_proceeds intact held trivial isFirst init.1
    exact ih next intactNext (Nat.lt_of_lt_of_le held moves.bounds.blocks)
      fun later member => Nat.lt_of_lt_of_le (others later member) moves.exprs

/-- What the variables of a block start from, in the order of the variables, has moved with the other
expressions. -/
theorem initsInOrder_placed (placed : Placed base may inner outer) (blocks : OnlyBlocks may)
    (held : block.index < inner.session.blocks.size) (spared : ¬ may (.block block))
    (heldVars : (inner.session.blockAt block).vars.index < inner.session.structs.size) :
    outer.session.initsInOrder block =
      (inner.session.initsInOrder block).map (Prod.map (fun name => name) base.past) := by
  have heldMoved : block.index < (inner.session.relocate base.past).blocks.size :=
    Nat.lt_of_lt_of_eq held Array.size_map.symm
  have isBlock : outer.session.blockAt block = (inner.session.blockAt block).relocate base.past := by
    rw [placed.session.blocks block heldMoved spared, Session.blockAt_relocate]
  have isVars : ((inner.session.blockAt block).relocate base.past).vars =
      (inner.session.blockAt block).vars := rfl
  rw [Session.initsInOrder, Session.initsInOrder, isBlock, isVars, placed.structAt blocks heldVars,
    List.map_filterMap]
  refine congrArg (fun find => List.filterMap find _) (funext fun member => ?_)
  rw [Block.relocate_lookup, Option.map_map, Option.map_map]
  rfl

/-! Folding a block that both runs have -/

variable (placed : Placed base may inner outer) (blocks : OnlyBlocks may)
    (intact : inner.Intact) (heldModule : frame.module.index < inner.session.modules.size)
    (held : frame.block.index < inner.session.blocks.size) (spared : ¬ may (.block frame.block))
include placed blocks intact heldModule held spared

theorem foldLocal_placed (spec : Manifest.Variable) :
    Placed base may ((foldLocal frame spec).run inner).2 ((foldLocal frame spec).run outer).2 := by
  unfold foldLocal
  split
  · next init _ =>
    have heldScope : (inner.session.bounds 0).holds (ScopeId.block frame.block).handle = true :=
      decide_eq_true held
    have view := placed.view blocks intact.integral heldScope spared
    obtain ⟨vars, _⟩ := Block.covers_handles.mp (intact.integral.covered.blockAt held)
    rw [run_get_bind, run_get_bind, placed.moduleAt blocks heldModule]
    dsimp only
    refine placed_of_lands (placed.parallel intact) (Relates.bind (place_parallel _)
      fun loc shown => ?_)
    rintro inner' outer' ⟨rfl, parallel⟩
    refine Relates.bind (prepare_yields view (fun _ => placed.structAt blocks) init _)
      (fun value shown => ?_) inner' outer' parallel
    rintro inner' outer' ⟨rfl, parallel, _⟩
    cases value with
    | none => exact parallel.placed placed.session
    | some root =>
      exact register_placed _ (setInit_spares placed.session blocks held spared
        (of_decide_eq_true vars) spec.name root) inner' outer' parallel
  · exact placed

theorem foldLocals_placed (specs : List Manifest.Variable) :
    Placed base may ((specs.forM (foldLocal frame)).run inner).2
      ((specs.forM (foldLocal frame)).run outer).2 := by
  induction specs generalizing inner outer with
  | nil => exact placed
  | cons spec specs ih =>
    have next := foldLocal_placed placed blocks intact heldModule held spared spec
    obtain ⟨moves, intactNext⟩ : inner.Moves Run.free ((foldLocal frame spec).run inner).2 ∧ _ :=
      (foldLocal_initializes frame spec inner).proceeds intact held trivial
    exact ih next intactNext
      (Nat.lt_of_lt_of_le heldModule moves.bounds.modules)
      (Nat.lt_of_lt_of_le held moves.bounds.blocks)

theorem foldBlock_placed :
    Placed base may ((foldBlock frame).run inner).2 ((foldBlock frame).run outer).2 := by
  have next := foldLocals_placed placed blocks intact heldModule held spared frame.locals
  obtain ⟨moves, intactNext⟩ : inner.Moves Run.free
      ((frame.locals.forM (foldLocal frame)).run inner).2 ∧ _ :=
    foldLocals_proceeds intact held trivial frame.locals
  rw [foldBlock_run, foldBlock_run]
  generalize ((frame.locals.forM (foldLocal frame)).run inner).2 = inner at *
  generalize ((frame.locals.forM (foldLocal frame)).run outer).2 = outer at *
  have heldNext := Nat.lt_of_lt_of_le held moves.bounds.blocks
  obtain ⟨vars, _⟩ := Block.covers_handles.mp (intactNext.integral.covered.blockAt heldNext)
  have inits := initsInOrder_placed next blocks heldNext spared (of_decide_eq_true vars)
  have intactStart := intactNext
  rw [← Session.Folded.onto_start inner] at intactStart next
  rw [← Session.Folded.onto_start outer] at next
  have folds := foldInits_placed next blocks intactStart heldNext spared
    (inner.session.initsInOrder frame.block)
    fun init member => intactNext.integral.init_held heldNext member
  rw [← inits] at folds
  exact folds

end Pass

/-! ## Steps -/

namespace Step

open Run (Placed)

variable {base : Arena} {may : Handle → Prop} {inner outer : Run}

theorem constants_placed {jobs : List ConstantJob} {count : Nat}
    (within : ∀ job ∈ jobs, job.module.index < count) (blocks : OnlyBlocks may)
    (placed : Placed base may inner outer) (orderly : inner.Orderly)
    (large : count ≤ inner.session.modules.size) :
    Placed base may (afterAll (jobs.map constant) inner) (afterAll (jobs.map constant) outer) := by
  let related : Run → Run → Prop := fun inner outer =>
    Placed base may inner outer ∧ inner.Orderly ∧ count ≤ inner.session.modules.size
  have start : related inner outer := ⟨placed, orderly, large⟩
  refine (afterAll_relates (fun step member inner outer holds => ?_) start).1
  obtain ⟨job, isJob, rfl⟩ := List.mem_map.mp member
  obtain ⟨placed, orderly, large⟩ := holds
  have held := Nat.lt_of_lt_of_le (within job isJob) large
  have fits : (constant job).Fits Run.free inner := ⟨trivial, held⟩
  have takes := fits.takes orderly
  exact ⟨Pass.foldConstant_placed placed blocks orderly.toIntact held job.spec job.loc,
    takes.orderly, Nat.le_trans large (takes.session.persists.bounds 0).modules⟩

theorem block_placed (placed : Placed base may inner outer) (blocks : OnlyBlocks may)
    (orderly : inner.Orderly) {slot : Nat} {frame : Frame}
    (isFrame : inner.blocks[slot]? = some frame) (spared : ¬ may (.block frame.block)) :
    Placed base may ((block slot).after inner) ((block slot).after outer) := by
  obtain ⟨heldModule, held⟩ := orderly.framesHeld frame (List.mem_of_getElem? isFrame)
  have isSame : outer.blocks[slot]? = some frame := by
    obtain ⟨rest, isBlocks⟩ := placed.blocks
    rw [← isBlocks]
    exact List.getElem?_append_left (List.getElem?_eq_some_iff.mp isFrame).1 ▸ isFrame
  rw [after_block_some isFrame, after_block_some isSame]
  exact Pass.foldBlock_placed placed blocks orderly.toIntact heldModule held spared

theorem blocks_placed {slots : List Nat} {frames : List Frame}
    (known : ∀ slot ∈ slots, ∃ frame, frames[slot]? = some frame ∧ ¬ may (.block frame.block))
    (blocks : OnlyBlocks may) (placed : Placed base may inner outer) (orderly : inner.Orderly)
    (isFrames : inner.blocks = frames) :
    Placed base may (afterAll (slots.map block) inner) (afterAll (slots.map block) outer) := by
  let related : Run → Run → Prop := fun inner outer =>
    Placed base may inner outer ∧ inner.Orderly ∧ inner.blocks = frames
  have start : related inner outer := ⟨placed, orderly, isFrames⟩
  refine (afterAll_relates (fun step member inner outer holds => ?_) start).1
  obtain ⟨slot, isSlot, rfl⟩ := List.mem_map.mp member
  obtain ⟨placed, orderly, rfl⟩ := holds
  obtain ⟨frame, isFrame, spared⟩ := known slot isSlot
  have fits : (block slot).Fits Run.free inner := fun _ _ => trivial
  have takes := fits.takes orderly
  exact ⟨block_placed placed blocks orderly isFrame spared, takes.orderly, takes.same_blocks rfl⟩

end Step

end Assay
