import Assay.Proofs.Check.Outlines

/-!
Contract: what a step of binding or folding has done when it reports no error.
-/

namespace Assay

/-! ## Declared modules -/

structure Module.Declared (name : String) (module : Module) : Prop where
  name : module.name = name
  kinds : ∀ kind ∈ Prelude.describedKinds, ∃ global ∈ module.globals,
    global.Describes (kind.spelling ++ "_type") kind.typeNumber

theorem Module.Declared.upholds {name : String} {before after : Module}
    (declared : before.Declared name) (upholds : before.Upholds after) : after.Declared name where
  name := upholds.name.trans declared.name
  kinds := fun kind described =>
    (declared.kinds kind described).imp fun _ found =>
      ⟨(upholds.globalTable.map Prod.snd).subset found.1, found.2⟩

theorem Run.declares {run : Run} {may : Handle → Prop} (supplied : run.session.Supplied)
    {specs : List Manifest.Module} {index : Nat} {spec : Manifest.Module}
    (taken : Step.TakesAll may (specs.map .declare) run) (isModule : specs[index]? = some spec) :
    ((Step.afterAll (specs.map .declare) run).session.moduleAt
      ⟨run.session.modules.size + index⟩).Declared spec.name := by
  induction specs generalizing run index with
  | nil => cases isModule
  | cons first specs ih =>
    obtain ⟨takes, rest⟩ := taken
    have size : ((Step.declare first).after run).session.modules.size =
        run.session.modules.size + 1 := takes.alters.modules_size.trans (Array.size_push _)
    cases index with
    | zero =>
      obtain rfl : first = spec := Option.some.inj isModule
      obtain ⟨_, installs, kinds⟩ := supplied.installs first.name (.item run.file first.name)
      have named := installs.module_name
      rw [Session.moduleAt_allocModule, if_pos rfl] at named
      rw [← Step.session_declare] at named kinds
      have declared : Module.Declared first.name _ := ⟨named, kinds⟩
      exact declared.upholds (rest.upholds.modules _ (Nat.lt_of_lt_of_eq (Nat.lt_succ_self _) size.symm))
    | succ index =>
      have later := ih (Step.supplied_declare supplied first) rest isModule
      rw [size, Nat.add_assoc, Nat.add_comm 1] at later
      exact later

namespace Step

variable {may : Handle → Prop} {run : Run} {steps : List Step} {module : ModuleId}

/-! ## Bound structs -/

/-- A module that is bound without an error has all its structs bound. -/
theorem bind_isBound (orderly : run.Orderly) (clean : ((bind module).after run).ErrorFree) :
    ∀ id ∈ run.session.listed module,
      (((bind module).after run).session.structAt id).isBound = true := by
  intro id member
  have pending : id ∈ run.session.pendingStructs module :=
    List.mem_append_left _ (List.mem_filter.mp member).1
  have mayBind : ∀ id, Session.MayBind (fun _ => True) run.session id := fun _ =>
    .inr ⟨trivial, fun _ _ _ _ => trivial⟩
  obtain ⟨_, entries, isLog, _, allBound⟩ := Session.bindModule_evolves orderly.integral
    orderly.furnished.held (fun id _ => mayBind id) run.log
  refine allBound (fun entry reported isError => ?_) id pending
  change (run.session.bindModule module run.log).log.counts .error = 0 at clean
  rw [isLog] at clean
  have reports : ¬ (run.reporting entries).ErrorFree :=
    Run.not_errorFree_reporting reported isError
  exact reports clean

theorem TakesAll.isBound (orderly : run.Orderly) (all : TakesAll may steps run)
    (silent : ∀ step ∈ steps, step.registers = false) (clean : (afterAll steps run).ErrorFree)
    (member : .bind module ∈ steps) :
    ∀ id ∈ run.session.listed module,
      ((afterAll steps run).session.structAt id).isBound = true := by
  intro id isListed
  induction steps generalizing run with
  | nil => cases member
  | cons step steps ih =>
    obtain ⟨isSilent, others⟩ := List.forall_mem_cons.mp silent
    have cleanNext := all.2.logs.errorFree clean
    by_cases same : step = .bind module
    · subst same
      have isBound := bind_isBound orderly cleanNext id isListed
      have held := Session.listed_held orderly.integral.covered isListed
      have heldNext := Nat.lt_of_lt_of_le held (all.1.session.persists.bounds 0).structs
      exact (all.2.persists.structs id heldNext).isBound isBound
    · refine ih all.1.orderly all.2 others clean ?_ ?_
      · exact (List.mem_cons.mp member).resolve_left fun isFirst => same isFirst.symm
      · rw [(after_sameOutlines isSilent).listed]
        exact isListed

end Step

/-! ## Errors -/

variable {run : Run} {entries : List Entry} {entry : Entry}

theorem Explains.complains (explains : Explains false entries) (run : Run) :
    ¬ (run.reporting entries).ErrorFree := by
  have some : entries ≠ [] := fun none => Bool.false_ne_true (explains.silent.mpr none)
  obtain ⟨entry, member⟩ := List.exists_mem_of_ne_nil _ some
  exact Run.not_errorFree_reporting member (explains.errors entry member)

namespace Pass

variable {run next : Run} {spec : Manifest.Expr} {scope : ScopeId} {loc : Location}

/-- An expression that cannot be prepared is an error. -/
theorem Prepares.complains (intact : run.Intact)
    (prepares : Prepares spec scope loc run (none, next)) : ¬ next.ErrorFree := by
  cases prepares with
  | unlowered _ => exact Run.not_errorFree_singleton (Entry.isError_error _ _)
  | @unresolved root arena lowered failed =>
    have follows := lower_follows intact spec loc
    rw [lowered] at follows
    have explained : Explains _ (arena.resolve run.session scope root).entries :=
      Arena.resolve_explained intact.integral.settled follows.acyclic
        ((Manifest.Expr.yields_of_lower lowered).result rfl).2.allocated
    rw [failed] at explained
    exact explained.complains _
  | @unchecked root arena verdict _ _ checked failed =>
    have explained : verdict.Explained := checked ▸ Arena.check_explained root
    rw [Verdict.Explained, failed] at explained
    exact explained.complains _

/-- An expression that cannot be folded is an error. -/
theorem FoldsRoot.complains (intact : run.Intact) {root : ExprId}
    (allocated : run.arena.Allocated root)
    (folds : FoldsRoot scope root loc run (none, next)) : ¬ next.ErrorFree := by
  cases folds with
  | stopped _ => exact Run.not_errorFree_singleton rfl
  | trapped isOutcome =>
    obtain ⟨_, _, untrapped, _⟩ := simplify_inlined intact.toReady scope allocated isOutcome
    exact absurd rfl untrapped

end Pass

/-! ## Constants -/

namespace ConstantJob

variable {job : ConstantJob} {run next : Run}

/-- A constant that is folded without an error is added to its module. -/
theorem Folds.adds_of_clean (orderly : run.Orderly)
    (held : job.module.index < run.session.modules.size) (folds : Folds job run next)
    (clean : next.ErrorFree) : ∃ constant, Adds job run.session next.session constant := by
  have intact := orderly.toIntact
  cases folds with
  | unprepared prepares => exact absurd clean (prepares.complains intact)
  | @notConst root prepared prepares failed =>
    have explained : (prepared.arena.requireConst root).Explained :=
      Arena.requireConst_explained root
    rw [Verdict.Explained, failed] at explained
    exact absurd clean (explained.complains _)
  | unfolded prepared folds =>
    obtain ⟨_, intactJudged, allocated⟩ := prepared.proceeds intact
    exact absurd clean (folds.complains intactJudged allocated)
  | unsuitable _ _ _ => exact absurd clean (Run.not_errorFree_singleton (Entry.isError_error _ _))
  | untyped prepared folds _ chooses =>
    obtain ⟨_, intactSolved⟩ := prepared.solving intact folds
    cases chooses with
    | refused _ declines =>
      rcases declines with ⟨name, unknown⟩ | ⟨ty, rfl⟩
      · obtain ⟨some, errors⟩ := Session.resolveType_error intactSolved.integral.settled
          (.error rfl) unknown
        exact absurd clean ((Explains.failures some errors).complains _)
      · exact absurd clean (Run.not_errorFree_singleton (Entry.isError_error _ _))
  | refused _ _ _ _ _ => exact absurd clean (Run.not_errorFree_singleton (Entry.isError_error _ _))
  | installed prepared folds _ _ added =>
    obtain ⟨constant, installs⟩ := Module.installs_of_added added
    have same := (prepared.folded intact.toReady folds).1.session
    rw [same] at installs ⊢
    exact ⟨constant, adds_of_installs held installs⟩

def Names (job : ConstantJob) (constant : Constant) : Prop :=
  job.spec.name ≠ "" → constant.name = job.spec.name

end ConstantJob

namespace Step

variable {may : Handle → Prop} {run : Run}

/-- Constants that are folded without an error are at the end of their module, in order. -/
theorem constants_added {jobs : List ConstantJob} (orderly : run.Orderly)
    (all : TakesAll may (jobs.map constant) run)
    (clean : (afterAll (jobs.map constant) run).ErrorFree) (module : ModuleId) :
    ∃ added, ((afterAll (jobs.map constant) run).session.moduleAt module).constants =
        (run.session.moduleAt module).constants ++ added ∧
      List.Forall₂ ConstantJob.Names (jobs.filter fun job => job.module = module) added := by
  induction jobs generalizing run with
  | nil => exact ⟨[], (List.append_nil _).symm, .nil⟩
  | cons job jobs ih =>
    have held := all.1.held_module rfl
    obtain ⟨added, isAdded, names⟩ := ih all.1.orderly all.2 clean
    obtain ⟨first, adds⟩ := (job.after_folds run).adds_of_clean orderly held
      (all.2.logs.errorFree clean)
    have isNext : ((afterAll ((job :: jobs).map constant) run).session.moduleAt module).constants =
        (((job.after run)).session.moduleAt module).constants ++ added := isAdded
    by_cases same : job.module = module
    · refine ⟨first :: added, ?_, ?_⟩
      · rw [isNext, ← same, adds.constants, List.append_assoc]
        rfl
      · rw [List.filter_cons_of_pos (by simpa using same)]
        exact .cons adds.name names
    · refine ⟨added, ?_, ?_⟩
      · rw [isNext, adds.others same]
      · rw [List.filter_cons_of_neg (by simpa using same)]
        exact names

end Step

/-! ## Variables -/

namespace Block

variable {block : Block} {name other : String}

def started (block : Block) : List String :=
  block.init.map Prod.fst

theorem lookup_isSome : (block.init.lookup name).isSome = true ↔ name ∈ block.started := by
  rw [List.lookup_isSome_iff, started, List.mem_map]
  exact exists_congr fun entry => and_congr_right fun _ => beq_iff_eq.trans eq_comm

theorem started_setInit (block : Block) (name : String) (expr : ExprId) :
    (block.setInit name expr).started =
      if name ∈ block.started then block.started else block.started ++ [name] :=
  Table.map_fst_enter name expr block.init

theorem mem_started_setInit {expr : ExprId} :
    other ∈ (block.setInit name expr).started ↔ other = name ∨ other ∈ block.started := by
  rw [started_setInit]
  split
  · next isStarted =>
    exact ⟨.inr, fun either => either.elim (fun same => same ▸ isStarted) id⟩
  · rw [List.mem_append, List.mem_singleton, or_comm]

end Block

theorem Session.started_modifyBlock {session : Session} {block : BlockId}
    (held : block.index < session.blocks.size) {name other : String} {root : ExprId} :
    other ∈ ((session.modifyBlock block fun state => state.setInit name root).blockAt
        block).started ↔ other = name ∨ other ∈ (session.blockAt block).started := by
  rw [blockAt_modifyBlock, if_pos ⟨rfl, held⟩]
  exact Block.mem_started_setInit

theorem Run.Moves.logs {may : Handle → Prop} {before after : Run} (moves : before.Moves may after) :
    before.Logs after :=
  moves.entries.imp fun _ added => added.1

namespace Pass

variable {run next : Run} {frame : Frame} {spec : Manifest.Variable} {block : BlockId}
  {state : Session.Folded}

/-- A variable that is given an initializer without an error starts from it. -/
theorem Initializes.started (intact : run.Intact)
    (held : frame.block.index < run.session.blocks.size)
    (initializes : Initializes frame spec run next) (clean : next.ErrorFree) (name : String) :
    name ∈ (next.session.blockAt frame.block).started ↔
      spec.name = name ∧ spec.init.isSome = true ∨
        name ∈ (run.session.blockAt frame.block).started := by
  cases initializes with
  | absent none => simp [none]
  | unprepared _ prepares => exact absurd clean (prepares.complains intact)
  | unknown _ _ _ => exact absurd clean (Run.not_errorFree_singleton (Entry.isError_error _ _))
  | initialized given prepares _ =>
    have same := prepares.frames.session
    dsimp only at same
    rw [same, Session.started_modifyBlock held, given]
    simp [eq_comm]

theorem foldLocals_started (intact : run.Intact)
    (held : frame.block.index < run.session.blocks.size) {specs : List Manifest.Variable}
    (clean : ((specs.forM (foldLocal frame)).run run).2.ErrorFree) (name : String) :
    name ∈ (((specs.forM (foldLocal frame)).run run).2.session.blockAt frame.block).started ↔
      (∃ spec ∈ specs, spec.name = name ∧ spec.init.isSome = true) ∨
        name ∈ (run.session.blockAt frame.block).started := by
  induction specs generalizing run with
  | nil => exact ⟨.inr, fun either => either.elim (fun ⟨_, absent, _⟩ => by cases absent) id⟩
  | cons spec specs ih =>
    have initializes := foldLocal_initializes frame spec run
    obtain ⟨moves, intactNext⟩ :
        run.Moves Run.free ((foldLocal frame spec).run run).2 ∧ _ :=
      initializes.proceeds intact held trivial
    have heldNext := Nat.lt_of_lt_of_le held moves.bounds.blocks
    obtain ⟨rest, _⟩ : ((foldLocal frame spec).run run).2.Moves Run.free _ ∧ _ :=
      foldLocals_proceeds intactNext heldNext trivial specs
    have first := initializes.started intact held (rest.logs.errorFree clean) name
    have others := ih intactNext heldNext clean
    rw [Computation.run_forM_cons, others, first, List.exists_mem_cons_iff, or_assoc]
    exact or_left_comm

/-- Folding what the variables of a block start from starts no other. -/
theorem started_foldBlock {session : Session} (arena : Arena)
    (held : block.index < session.blocks.size) (name : String) :
    name ∈ ((session.foldBlock arena block).session.blockAt block).started ↔
      name ∈ (session.blockAt block).started := by
  refine (Session.foldBlock_keeps (motive := fun later : Session =>
    later.blocks.size = session.blocks.size ∧ ∀ other,
      other ∈ (later.blockAt block).started ↔ other ∈ (session.blockAt block).started)
    (fun {later first init expr} member kept => ?_) ⟨rfl, fun _ => Iff.rfl⟩ arena).2 name
  obtain ⟨slot, _, isInit⟩ := List.mem_filterMap.mp member
  obtain ⟨found, isFound, ⟨⟩⟩ := Option.map_eq_some_iff.mp isInit
  have known := Block.lookup_isSome.mp (Option.isSome_of_eq_some isFound)
  refine ⟨Array.size_modify.trans kept.1, fun other => ?_⟩
  rw [Session.started_modifyBlock (kept.1.symm ▸ held), kept.2]
  exact ⟨fun either => either.elim (fun same => same ▸ known) id, .inr⟩

/-- A block that is folded without an error starts the variables that were given an initializer. -/
theorem foldBlock_started (intact : run.Intact)
    (held : frame.block.index < run.session.blocks.size)
    (clean : ((foldBlock frame).run run).2.ErrorFree) (name : String) :
    name ∈ (((foldBlock frame).run run).2.session.blockAt frame.block).started ↔
      (∃ spec ∈ frame.locals, spec.name = name ∧ spec.init.isSome = true) ∨
        name ∈ (run.session.blockAt frame.block).started := by
  let next := ((frame.locals.forM (foldLocal frame)).run run).2
  obtain ⟨moves, _⟩ : run.Moves Run.free next ∧ next.Intact :=
    foldLocals_proceeds intact held trivial frame.locals
  have heldNext := Nat.lt_of_lt_of_le held moves.bounds.blocks
  have isAfter : ((foldBlock frame).run run).2 =
      (next.session.foldBlock next.arena frame.block).onto next := rfl
  have cleanNext : next.ErrorFree := Run.Logs.errorFree ⟨_, rfl⟩ (isAfter ▸ clean)
  rw [isAfter]
  exact (started_foldBlock next.arena heldNext name).trans
    (foldLocals_started intact held cleanNext name)

end Pass

namespace Step

variable {may : Handle → Prop} {run : Run} {step : Step}

theorem constants_blocks {jobs : List ConstantJob} (orderly : run.Orderly)
    (all : TakesAll may (jobs.map constant) run) {block : BlockId}
    (held : block.index < run.session.blocks.size) :
    (afterAll (jobs.map constant) run).session.blockAt block = run.session.blockAt block := by
  induction jobs generalizing run with
  | nil => rfl
  | cons job jobs ih =>
    obtain ⟨moves, _⟩ : run.Moves (fun handle => handle = .module job.module) (job.after run) ∧ _ :=
      (job.after_folds run).proceeds orderly.toIntact (all.1.held_module rfl) rfl
    have heldNext := Nat.lt_of_lt_of_le held moves.bounds.blocks
    refine (ih all.1.orderly all.2 heldNext).trans ?_
    exact moves.session.spares.blocks block held (by simp)

/-- A step sets up at most one frame, for a block that it allocates. -/
theorem Takes.new_frames (orderly : run.Orderly) (takes : step.Takes may run) :
    (step.after run).blocks = run.blocks ∨ ∃ frame : Frame,
      (step.after run).blocks = run.blocks ++ [frame] ∧
        frame.block = ⟨run.session.blocks.size⟩ := by
  cases step with
  | func module spec written =>
    obtain ⟨moves, _⟩ : ({ run with
        blocks := run.blocks ++ Pass.newFrames run.session module written } : Run).Moves
          Run.free ((func module spec written).after run) ∧ _ :=
      Pass.registerFunction_moves (takes.held_module rfl) trivial orderly.furnished.held
        (fun _ _ => trivial) spec written
    have isAfter := moves.blocks
    unfold Pass.newFrames at isAfter
    split at isAfter
    · exact .inl (isAfter.trans (List.append_nil _))
    · exact .inr ⟨_, isAfter, rfl⟩
  | _ => exact .inl (takes.same_blocks rfl)

/-- No two frames share a block. -/
theorem TakesAll.distinct_frames {steps : List Step} (orderly : run.Orderly)
    (all : TakesAll may steps run) (distinct : (run.blocks.map Frame.block).Nodup) :
    ((afterAll steps run).blocks.map Frame.block).Nodup := by
  refine (all.keeps (fun run => run.Orderly ∧ (run.blocks.map Frame.block).Nodup)
    ⟨orderly, distinct⟩ fun step _ run holds takes => ⟨takes.orderly, ?_⟩).2
  rcases takes.new_frames holds.1 with same | ⟨frame, isAfter, isNew⟩
  · rw [same]
    exact holds.2
  · rw [isAfter, List.map_append]
    refine List.nodup_append.mpr ⟨holds.2, List.nodup_singleton _, fun block member last isLast => ?_⟩
    obtain ⟨other, isOther, rfl⟩ := List.mem_map.mp member
    rw [List.mem_singleton.mp isLast, isNew]
    intro clash
    have held := (holds.1.framesHeld other isOther).2
    rw [clash] at held
    exact Nat.lt_irrefl _ held

end Step

/-- Of the variables of a frame, those are started that were given an initializer. -/
def Frame.Started (frame : Frame) (session : Session) : Prop :=
  ∀ name, name ∈ (session.blockAt frame.block).started ↔
    ∃ spec ∈ frame.locals, spec.name = name ∧ spec.init.isSome = true

namespace Run

variable {run : Run}

/-- Frames that are folded without an error, from one of them on. -/
theorem blocks_started {earlier rest : List Frame} (isBlocks : run.blocks = earlier ++ rest)
    (orderly : run.Orderly) (distinct : (run.blocks.map Frame.block).Nodup)
    (taken : Step.TakesAll free ((List.range' earlier.length rest.length).map .block) run)
    (clean : (Step.afterAll ((List.range' earlier.length rest.length).map .block) run).ErrorFree)
    (done : ∀ frame ∈ earlier, frame.Started run.session)
    (fresh : ∀ frame ∈ rest, (run.session.blockAt frame.block).started = []) :
    ∀ frame ∈ run.blocks, frame.Started (Step.afterAll
      ((List.range' earlier.length rest.length).map .block) run).session := by
  induction rest generalizing run earlier with
  | nil =>
    rw [isBlocks, List.append_nil]
    exact done
  | cons frame rest ih =>
    rw [List.length_cons, List.range'_succ, List.map_cons] at taken clean ⊢
    obtain ⟨takes, taken⟩ := taken
    have isFrame : run.blocks[earlier.length]? = some frame := by
      rw [isBlocks, List.getElem?_append_right (Nat.le_refl _), Nat.sub_self]
      rfl
    let next := (Step.block earlier.length).after run
    have isNext : next = ((Pass.foldBlock frame).run run).2 := Step.after_block_some isFrame
    have cleanNext : next.ErrorFree := taken.logs.errorFree clean
    have sameBlocks : next.blocks = run.blocks := takes.same_blocks rfl
    have held := (orderly.framesHeld frame (List.mem_of_getElem? isFrame)).2
    have moves : run.Moves (fun handle => handle = .block frame.block) next := by
      rw [isNext]
      refine (Pass.foldBlock_proceeds orderly.toIntact held ?_).1
      rfl
    -- Only the block of this frame changes, and no other frame has it.
    have spared : ∀ other ∈ run.blocks, other.block ≠ frame.block →
        next.session.blockAt other.block = run.session.blockAt other.block := by
      intro other member different
      refine moves.session.spares.blocks _ (orderly.framesHeld other member).2 fun same => ?_
      exact different (Handle.block.inj same)
    have apart : ∀ other, other ∈ earlier ∨ other ∈ rest → other.block ≠ frame.block := by
      rw [isBlocks, List.map_append, List.map_cons] at distinct
      obtain ⟨_, later, between⟩ := List.nodup_append.mp distinct
      rintro other (isEarlier | isLater)
      · exact between _ (List.mem_map_of_mem isEarlier) _ (by simp)
      · exact fun same => (List.nodup_cons.mp later).1 (same ▸ List.mem_map_of_mem isLater)
    have first : frame.Started next.session := by
      intro name
      rw [isNext] at cleanNext ⊢
      rw [Pass.foldBlock_started orderly.toIntact held cleanNext, fresh frame (by simp)]
      simp
    have isSplit : next.blocks = (earlier ++ [frame]) ++ rest := by
      rw [sameBlocks, isBlocks, List.append_assoc]
      rfl
    have length : (earlier ++ [frame]).length = earlier.length + 1 := List.length_append
    have rested := ih isSplit takes.orderly (sameBlocks ▸ distinct)
      (length ▸ taken) (length ▸ clean) ?_ ?_
    · rw [length, sameBlocks] at rested
      exact rested
    · refine List.forall_mem_append.mpr ⟨fun other member name => ?_,
        List.forall_mem_singleton.mpr first⟩
      rw [spared other (isBlocks ▸ List.mem_append_left _ member) (apart other (.inl member))]
      exact done other member name
    · intro other member
      have isOther : other ∈ run.blocks :=
        isBlocks ▸ List.mem_append_right _ (List.mem_cons_of_mem _ member)
      rw [spared other isOther (apart other (.inr member))]
      exact fresh other (List.mem_cons_of_mem _ member)

end Run

end Assay
