import Assay.Proofs.Check.Evaluation
import Assay.Proofs.Check.Registering

/-!
Contract: the run over a manifest as a sequence of steps.

Owns:
- the steps of a manifest in their order: modules, imports, definitions, bindings, constants, blocks;
- what holds of a run between two steps, and that every step keeps it;
- the run over a manifest takes these steps and no others: it never ends early.

Does not own: what a step registers or folds.
-/

namespace Assay

open Assay.Computation

def Manifest.numbered (manifest : Manifest) : List (ModuleId × Manifest.Module) :=
  manifest.modules.zipIdx.map fun (spec, index) => (⟨index⟩, spec)

namespace Run

variable {manifest : Manifest} {file : String} {job : ConstantJob} {run : Run}

/-! ## The order of constants -/

def declared (manifest : Manifest) (file : String) : Run :=
  ((manifest.modules.forM Pass.declareModule).run (start manifest file)).2

def binding (manifest : Manifest) (file : String) : Bool × Run :=
  (Pass.bindDeclared (declared manifest file).modules).run (declared manifest file)

def moduleJobs (file : String) (module : ModuleId) (spec : Manifest.Module) : List ConstantJob :=
  spec.constants.zipIdx.map fun (constant, index) =>
    ⟨module, constant, .item file (Pass.constantPath spec.name index constant)⟩

def constantJobs (manifest : Manifest) (file : String) : List ConstantJob :=
  manifest.modules.zipIdx.flatMap fun (spec, index) => moduleJobs file ⟨index⟩ spec

def afterAll (jobs : List ConstantJob) (run : Run) : Run :=
  jobs.foldl (fun run job => job.after run) run

theorem afterAll_append (earlier later : List ConstantJob) (run : Run) :
    afterAll (earlier ++ later) run = afterAll later (afterAll earlier run) :=
  List.foldl_append

theorem afterAll_advances (ready : run.Ready) (jobs : List ConstantJob) :
    ConstantJob.Advances run (afterAll jobs run) := by
  induction jobs generalizing run with
  | nil => exact ⟨ready, rfl, .refl, rfl, rfl⟩
  | cons job jobs ih =>
    have step := (job.after_folds run).advances ready
    have rest := ih step.ready
    exact ⟨rest.ready, rest.file.trans step.file, step.changes.trans rest.changes,
      rest.structs.trans step.structs, rest.blocks.trans step.blocks⟩

theorem foldConstants_run (ready : run.Ready) (isFile : run.file = file) (module : ModuleId)
    (spec : Manifest.Module) :
    ((Pass.foldConstants module spec).run run).2 = afterAll (moduleJobs file module spec) run := by
  unfold Pass.foldConstants moduleJobs
  generalize spec.constants.zipIdx = constants
  induction constants generalizing run with
  | nil => rfl
  | cons head constants ih =>
    obtain ⟨constant, index⟩ := head
    let job : ConstantJob :=
      ⟨module, constant, .item file (Pass.constantPath spec.name index constant)⟩
    have step := (job.after_folds run).advances ready
    have placed : (Pass.place (Pass.constantPath spec.name index constant)).run run =
        (job.loc, run) := by
      subst isFile
      rfl
    rw [run_forM_cons, List.map_cons]
    dsimp only
    rw [run_bind, placed]
    exact ih step.ready (step.file.trans isFile)

theorem foldModules_run (ready : run.Ready) (isFile : run.file = file)
    (modules : List (ModuleId × Manifest.Module)) :
    ((modules.forM fun (module, spec) => Pass.foldConstants module spec : Pass Unit).run run).2 =
      afterAll (modules.flatMap fun (module, spec) => moduleJobs file module spec) run := by
  induction modules generalizing run with
  | nil => rfl
  | cons head modules ih =>
    obtain ⟨module, spec⟩ := head
    have advances := afterAll_advances ready (moduleJobs file module spec)
    rw [run_forM_cons, List.flatMap_cons, afterAll_append]
    dsimp only
    rw [foldConstants_run ready isFile]
    exact ih advances.ready (advances.file.trans isFile)

/-! ## After the last constant -/

/-- Folding a block sets what its variables start from, and changes nothing else in the session. -/
theorem foldBlock_keeps (inv : Session → Prop) {frame : Frame}
    (setInit : ∀ {session : Session} {name expr}, inv session →
      inv (session.modifyBlock frame.block fun state => state.setInit name expr)) :
    Keeps (fun run : Run => inv run.session) (Pass.foldBlock frame) := by
  refine Keeps.bind (.forM fun spec _ run holds => ?_) fun _ => .get_bind fun run holds =>
    Session.foldBlock_keeps (fun _ => setInit) holds run.arena
  have initializes := Pass.foldLocal_initializes frame spec run
  generalize ((Pass.foldLocal frame spec).run run).2 = after at initializes ⊢
  cases initializes with
  | absent _ => exact holds
  | unprepared _ prepares | unknown _ prepares _ => exact prepares.frames.session ▸ holds
  | @initialized _ _ prepared _ prepares _ =>
    have same : prepared.session = run.session := prepares.frames.session
    exact setInit (same ▸ holds)

/-! ## The whole run -/

theorem ofManifest_run (manifest : Manifest) (file : String) :
    ofManifest manifest file =
      ((if (binding manifest file).1 then do
          (declared manifest file).modules.forM fun (module, spec) =>
            Pass.foldConstants module spec
          (← get).blocks.forM Pass.foldBlock
        else return : Pass Unit).run (binding manifest file).2).2 :=
  rfl

end Run

/-! ## Steps -/

/-- One step of a run. A block is folded by its place among the frames of the run. -/
inductive Step where
  | declare (spec : Manifest.Module)
  | wire (module : ModuleId) (spec : Manifest.Module) (name : String)
  | object (module : ModuleId) (spec : Manifest.Module) (name : String)
  | struct (module : ModuleId) (spec : Manifest.Module) (struct : Manifest.Struct)
  | func (module : ModuleId) (spec : Manifest.Module) (func : Manifest.Func)
  | bind (module : ModuleId)
  | constant (job : ConstantJob)
  | block (slot : Nat)

def Frame.source (frame : Frame) : ModuleId × String × List Manifest.Variable :=
  (frame.module, frame.func, frame.locals)

namespace Step

def pass : Step → Pass Unit
  | declare spec => Pass.declareModule spec
  | wire module spec name => Pass.wireImport module spec name
  | object module spec name => Pass.registerObject module spec name
  | struct module spec written => Pass.registerStruct module spec written
  | func module spec written => Pass.registerFunction module spec written
  | bind module => Pass.bindOne module
  | constant job => Pass.foldConstant job.module job.spec job.loc
  | block slot => do
      match (← get).blocks[slot]? with
      | some frame => Pass.foldBlock frame
      | none => return

def after (step : Step) (run : Run) : Run :=
  (step.pass.run run).2

def afterAll (steps : List Step) (run : Run) : Run :=
  steps.foldl (fun run step => step.after run) run

theorem afterAll_cons (step : Step) (steps : List Step) (run : Run) :
    afterAll (step :: steps) run = afterAll steps (step.after run) :=
  rfl

theorem afterAll_append (earlier later : List Step) (run : Run) :
    afterAll (earlier ++ later) run = afterAll later (afterAll earlier run) :=
  List.foldl_append

theorem afterAll_keeps {motive : Run → Prop} {steps : List Step} {run : Run}
    (keeps : ∀ step ∈ steps, ∀ run, motive run → motive (step.after run)) (holds : motive run) :
    motive (afterAll steps run) := by
  induction steps generalizing run with
  | nil => exact holds
  | cons step steps ih =>
    obtain ⟨keepsFirst, keepsRest⟩ := List.forall_mem_cons.mp keeps
    exact ih keepsRest (keepsFirst run holds)

/-- Runs that every step leaves related are related after all of them. -/
theorem afterAll_relates {rel : Run → Run → Prop} {steps : List Step} {first second : Run}
    (keeps : ∀ step ∈ steps, ∀ first second, rel first second →
      rel (step.after first) (step.after second)) (related : rel first second) :
    rel (afterAll steps first) (afterAll steps second) := by
  induction steps generalizing first second with
  | nil => exact related
  | cons step steps ih =>
    obtain ⟨keepsFirst, keepsRest⟩ := List.forall_mem_cons.mp keeps
    exact ih keepsRest (keepsFirst first second related)

def frames : Step → List (ModuleId × String × List Manifest.Variable)
  | func module _ written =>
      if written.locals.isEmpty then [] else [(module, written.name, written.locals)]
  | _ => []

def handles : Step → List Handle
  | wire module _ _ | object module _ _ | struct module _ _ | func module _ _ | bind module =>
      [.module module]
  | constant job => [.module job.module]
  | declare _ | block _ => []

/-! ## The steps of a manifest -/

def imports (module : ModuleId × Manifest.Module) : List Step :=
  module.2.imports.map (wire module.1 module.2)

def definitions (module : ModuleId × Manifest.Module) : List Step :=
  module.2.objects.map (object module.1 module.2) ++
    module.2.structs.map (struct module.1 module.2) ++
    module.2.functions.map (func module.1 module.2)

variable {inv : Step → Prop} {module : ModuleId × Manifest.Module}

theorem forall_imports (wires : ∀ name ∈ module.2.imports, inv (wire module.1 module.2 name)) :
    ∀ step ∈ imports module, inv step :=
  List.forall_mem_map.mpr wires

theorem forall_definitions
    (objects : ∀ name ∈ module.2.objects, inv (object module.1 module.2 name))
    (structs : ∀ written ∈ module.2.structs, inv (struct module.1 module.2 written))
    (funcs : ∀ written ∈ module.2.functions, inv (func module.1 module.2 written)) :
    ∀ step ∈ definitions module, inv step :=
  List.forall_mem_append.mpr ⟨List.forall_mem_append.mpr
    ⟨List.forall_mem_map.mpr objects, List.forall_mem_map.mpr structs⟩,
    List.forall_mem_map.mpr funcs⟩

/-- The frames of the functions of a module. -/
theorem module_of_frames (module : ModuleId × Manifest.Module) :
    ∀ source ∈ (definitions module).flatMap frames, source.1 = module.1 := by
  refine List.forall_mem_flatMap.mpr (forall_definitions ?_ ?_ ?_)
  · exact fun _ _ => List.forall_mem_nil _
  · exact fun _ _ => List.forall_mem_nil _
  · intro written _ source member
    rw [frames] at member
    split at member
    · cases member
    · rw [List.mem_singleton.mp member]

end Step

namespace Manifest

def frames (manifest : Manifest) : List (ModuleId × String × List Manifest.Variable) :=
  (manifest.numbered.flatMap Step.definitions).flatMap Step.frames

def registration (manifest : Manifest) : List Step :=
  manifest.numbered.flatMap Step.imports ++ manifest.numbered.flatMap Step.definitions

def bindings (manifest : Manifest) : List Step :=
  manifest.numbered.map fun module => .bind module.1

def foldings (manifest : Manifest) (file : String) : List Step :=
  (Run.constantJobs manifest file).map .constant

def blockFoldings (manifest : Manifest) : List Step :=
  (List.range manifest.frames.length).map .block

/-- Everything that a run over the manifest does, in order. -/
def steps (manifest : Manifest) (file : String) : List Step :=
  manifest.modules.map .declare ++ (manifest.registration ++ (manifest.bindings ++
    (manifest.foldings file ++ manifest.blockFoldings)))

end Manifest

/-! ## Runs between two steps -/

/-- What holds of a run between two steps: its handles stand for definitions, it was not trapped and
has reported nothing but notes and errors in what was declared. -/
structure Run.Orderly (run : Run) : Prop extends run.Intact where
  modulesHeld : ∀ entry ∈ run.modules, entry.1.index < run.session.modules.size
  framesHeld : ∀ frame ∈ run.blocks, frame.module.index < run.session.modules.size ∧
    frame.block.index < run.session.blocks.size
  untrapped : run.trapped = false
  plain : run.log.Plain

/-! ## One step -/

namespace Step

variable {may : Handle → Prop} {run : Run} {step : Step} {module : ModuleId}
  {spec : Manifest.Module} {slot count : Nat} {inv : Session → Prop}

/-! Steps before the first expression -/

/-- Steps that leave the arena alone. -/
def isEarly : Step → Bool
  | constant _ | block _ => false
  | _ => true

def phase : Step → Phase
  | bind _ => .binding
  | _ => .registration

def declares (run : Run) : Step → List (ModuleId × Manifest.Module)
  | declare spec => [(⟨run.session.modules.size⟩, spec)]
  | _ => []

/-- The session to which a step has added its module, if it declares one. -/
def opened (run : Run) : Step → Session
  | declare spec => ((Session.allocModule spec.name (.item run.file spec.name)).run run.session).2
  | _ => run.session

theorem opened_of_declares (noModule : step.declares run = []) : step.opened run = run.session := by
  cases step with
  | declare spec => cases noModule
  | _ => rfl

theorem upholds_opened (step : Step) (run : Run) : run.session.Upholds (step.opened run) := by
  cases step with
  | declare spec =>
    have alters : Session.Alters False .registration run.session ((declare spec).opened run) :=
      .pushModule id spec.name _
    exact alters.upholds
  | _ => exact .refl _

theorem rounded_opened (step : Step) (rounded : run.session.Rounded) :
    (step.opened run).Rounded := by
  cases step with
  | declare spec => exact Session.rounded_allocModule rounded _ _
  | _ => exact rounded

/-- Steps before the first expression change the session by strict alterations in their phase. -/
theorem early_alters (isEarly : step.isEarly = true) (consistent : run.session.Consistent)
    (held : run.bounds.Covers step.handles) :
    (step.after run).Early run.arena (Session.Changes True step.phase (step.opened run)) := by
  have heldModule : ∀ module, Handle.module module ∈ step.handles →
      module.index < run.session.modules.size :=
    fun module member => of_decide_eq_true (held _ member)
  cases step with
  | declare spec => exact Pass.declareModule_early consistent spec
  | wire module spec name => exact Pass.wireImport_early module spec name run ⟨rfl, .refl⟩
  | object module spec name => exact Pass.registerObject_early module spec name run ⟨rfl, .refl⟩
  | struct module spec written =>
    exact Pass.registerStruct_early consistent (heldModule module (by simp [handles])) spec written
  | func module spec written =>
    exact Pass.registerFunction_early consistent (heldModule module (by simp [handles])) spec written
  | bind module => exact ⟨rfl, Session.bindStructs_changes consistent _ _ _⟩
  | constant job => cases isEarly
  | block slot => cases isEarly

/-- Before the first expression a run stays intact as long as its session evolves. -/
theorem early_intact (intact : run.Intact)
    (early : (step.after run).Early run.arena (Session.Changes True step.phase (step.opened run)))
    (evolves : Session.Evolves may (step.after run).arena.size run.session (step.after run).session)
    (registered : (step.after run).session.Registered) : (step.after run).Intact := by
  have same := early.arena_eq
  rw [same] at evolves
  refine ⟨⟨?_, ?_, early.session.rounded (rounded_opened step intact.rounded), registered⟩, ?_,
    intact.furnished.persists evolves.persists, ?_⟩
  · rw [same]
    exact intact.acyclic
  · rw [same]
    exact intact.typed
  · rw [same]
    exact evolves.integral intact.integral
  · rw [Run.bounds, same]
    exact intact.covered.mono (evolves.persists.bounds _)

/-- Modules that are there know the runtime strings as long as none is added. -/
theorem registered_early (ready : run.Ready)
    (changes : Session.Changes True step.phase (step.opened run) (step.after run).session)
    (noModule : step.declares run = []) : (step.after run).session.Registered := by
  rw [opened_of_declares noModule] at changes
  exact ready.registered.changes changes

/-! All steps -/

/-- What a step may rely on when its turn comes. -/
def Fits (may : Handle → Prop) (run : Run) : Step → Prop
  | declare _ => run.session.Supplied ∧ run.session.Open may ∧
      ∀ id ∈ Prelude.structIds, may (.struct id) ∨
        (run.session.structAt id).owner.isSome = true ∧ (run.session.structAt id).isSealed = true
  | wire module _ _ | object module _ _ | struct module _ _ | func module _ _ =>
      run.session.Open may ∧ may (.module module) ∧ module.index < run.session.modules.size
  | bind module => module.index < run.session.modules.size ∧
      ∀ id ∈ run.session.pendingStructs module, Session.MayBind may run.session id
  | constant job => may (.module job.module) ∧ job.module.index < run.session.modules.size
  | block slot => ∀ frame, run.blocks[slot]? = some frame → may (.block frame.block)

/-- What a step does: definitions change by strict alterations, expressions change, modules and frames
are added, and order is kept. -/
structure Takes (may : Handle → Prop) (step : Step) (run : Run) : Prop where
  held : run.bounds.Covers step.handles
  file : (step.after run).file = run.file
  changes : Run.Changes may run.state (step.after run).state
  alters : Session.Changes True step.phase (step.opened run) (step.after run).session
  arena : step.isEarly = true → (step.after run).arena = run.arena
  modules : (step.after run).modules = run.modules ++ step.declares run
  blocks : ∃ added, (step.after run).blocks = run.blocks ++ added ∧
    added.map Frame.source = step.frames
  entries : ∃ added, (step.after run).log = run.log.recordAll added
  orderly : (step.after run).Orderly

theorem Takes.session (takes : step.Takes may run) :
    Session.Evolves may (step.after run).arena.size run.session (step.after run).session :=
  takes.changes.evolves.2

/-- A step that moves the run to which modules and frames have been added. -/
theorem Takes.of_moves (orderly : run.Orderly) (modules : List (ModuleId × Manifest.Module))
    (blocks : List Frame)
    (moves : ({ run with modules := run.modules ++ modules, blocks := run.blocks ++ blocks } :
      Run).Moves may (step.after run))
    (alters : Session.Changes True step.phase (step.opened run) (step.after run).session)
    (arena : step.isEarly = true → (step.after run).arena = run.arena)
    (intact : (step.after run).Intact) (isModules : modules = step.declares run)
    (isFrames : blocks.map Frame.source = step.frames)
    (modulesHeld : ∀ entry ∈ modules, entry.1.index < (step.after run).session.modules.size)
    (framesHeld : ∀ frame ∈ blocks, frame.module.index < (step.after run).session.modules.size ∧
      frame.block.index < (step.after run).session.blocks.size)
    (held : run.bounds.Covers step.handles) : step.Takes may run where
  held := held
  file := moves.file
  changes := moves.changes
  alters := alters
  arena := arena
  modules := by rw [moves.modules, isModules]
  blocks := ⟨blocks, moves.blocks, isFrames⟩
  entries := moves.entries.imp fun _ added => added.1
  orderly :=
    { toIntact := intact
      modulesHeld := by
        rw [moves.modules]
        exact List.forall_mem_append.mpr ⟨fun entry member =>
          Nat.lt_of_lt_of_le (orderly.modulesHeld entry member) moves.bounds.modules, modulesHeld⟩
      framesHeld := by
        rw [moves.blocks]
        exact List.forall_mem_append.mpr ⟨fun frame member =>
          ⟨Nat.lt_of_lt_of_le (orderly.framesHeld frame member).1 moves.bounds.modules,
            Nat.lt_of_lt_of_le (orderly.framesHeld frame member).2 moves.bounds.blocks⟩, framesHeld⟩
      untrapped := moves.trapped.trans orderly.untrapped
      plain := by
        obtain ⟨added, same, plain⟩ := moves.entries
        rw [same]
        exact orderly.plain.recordAll plain }

/-- A step that adds neither a module nor a frame. -/
theorem Takes.of_plain_moves (orderly : run.Orderly) (moves : run.Moves may (step.after run))
    (alters : Session.Changes True step.phase (step.opened run) (step.after run).session)
    (arena : step.isEarly = true → (step.after run).arena = run.arena)
    (intact : (step.after run).Intact) (noModule : step.declares run = [])
    (noFrame : step.frames = []) (held : run.bounds.Covers step.handles) : step.Takes may run := by
  have same : ({ run with modules := run.modules ++ [], blocks := run.blocks ++ [] } : Run) = run := by
    rw [List.append_nil, List.append_nil]
  exact .of_moves orderly [] [] (same.symm ▸ moves) alters arena intact noModule.symm noFrame.symm
    (List.forall_mem_nil _) (List.forall_mem_nil _) held

/-- A step before the first expression that adds neither a module nor a frame. -/
theorem Takes.of_early (orderly : run.Orderly) (moves : run.Moves may (step.after run))
    (isEarly : step.isEarly = true) (noModule : step.declares run = []) (noFrame : step.frames = [])
    (held : run.bounds.Covers step.handles) : step.Takes may run := by
  have early := early_alters isEarly orderly.rounded.consistent held
  have registered := registered_early orderly.toReady early.session noModule
  exact .of_plain_moves orderly moves early.session (fun _ => early.arena_eq)
    (early_intact orderly.toIntact early moves.session registered) noModule noFrame held

theorem covers_module (held : module.index < run.session.modules.size) :
    run.bounds.Covers [.module module] :=
  List.forall_mem_singleton.mpr (decide_eq_true held)

theorem session_declare (spec : Manifest.Module) (run : Run) :
    ((declare spec).after run).session = run.session.declare spec.name (.item run.file spec.name) := by
  obtain ⟨entries, isNext, _⟩ := Pass.declareModule_run spec run
  exact congrArg Run.session isNext

theorem declare_takes (orderly : run.Orderly) (fits : (declare spec).Fits may run) :
    (declare spec).Takes may run := by
  obtain ⟨supplied, isOpen, touch⟩ := fits
  obtain ⟨moves, _, _, size⟩ := Pass.declareModule_moves supplied isOpen touch spec
  have early := @early_alters run (declare spec) rfl orderly.rounded.consistent Bounds.covers_nil
  have intact : ((declare spec).after run).Intact := by
    refine early_intact orderly.toIntact early moves.session ?_
    rw [session_declare]
    exact orderly.registered.declare supplied _ _
  refine .of_moves orderly _ [] ?_ early.session (fun _ => early.arena_eq) intact rfl rfl ?_
    (List.forall_mem_nil _) Bounds.covers_nil
  · rw [List.append_nil]
    exact moves
  · exact List.forall_mem_singleton.mpr (Nat.lt_of_lt_of_eq (Nat.lt_succ_self _) size.symm)

theorem func_takes (orderly : run.Orderly) {written : Manifest.Func}
    (fits : (func module spec written).Fits may run) :
    (func module spec written).Takes may run := by
  obtain ⟨isOpen, allowed, held⟩ := fits
  obtain ⟨moves, heldFrames⟩ := Pass.registerFunction_moves held allowed
    orderly.furnished.held isOpen spec written
  have early := @early_alters run (func module spec written) rfl orderly.rounded.consistent
    (covers_module held)
  have intact : ((func module spec written).after run).Intact :=
    early_intact orderly.toIntact early moves.session
      (registered_early orderly.toReady early.session rfl)
  refine .of_moves orderly [] (Pass.newFrames run.session module written) ?_ early.session
    (fun _ => early.arena_eq) intact rfl ?_ (List.forall_mem_nil _)
    (fun frame member => ⟨?_, heldFrames frame member⟩) (covers_module held)
  · rw [List.append_nil]
    exact moves
  · rw [Pass.newFrames, frames]
    split <;> rfl
  · have isModule : frame.module = module := by
      unfold Pass.newFrames at member
      split at member
      · cases member
      · rw [List.mem_singleton.mp member]
    rw [isModule]
    exact Nat.lt_of_lt_of_le held moves.bounds.modules

theorem after_block_some {frame : Frame} (isFrame : run.blocks[slot]? = some frame) :
    (block slot).after run = ((Pass.foldBlock frame).run run).2 := by
  rw [after, pass, run_get_bind, isFrame]

theorem after_block_none (isFrame : run.blocks[slot]? = none) : (block slot).after run = run := by
  rw [after, pass, run_get_bind, isFrame]
  rfl

theorem block_keeps (inv : Session → Prop)
    (setInit : ∀ {session : Session} {block name expr}, inv session →
      inv (session.modifyBlock block fun state => state.setInit name expr))
    {slot : Nat} {run : Run} (holds : inv run.session) : inv ((block slot).after run).session := by
  cases isFrame : run.blocks[slot]? with
  | none =>
    rw [after_block_none isFrame]
    exact holds
  | some frame =>
    rw [after_block_some isFrame]
    exact Run.foldBlock_keeps inv setInit run holds

/-- Every step that fits does what steps do. -/
theorem Fits.takes (orderly : run.Orderly) (fits : step.Fits may run) : step.Takes may run := by
  cases step with
  | declare spec => exact declare_takes orderly fits
  | wire module spec name =>
    obtain ⟨_, allowed, held⟩ := fits
    exact .of_early orderly
      (Pass.wireImport_moves held allowed orderly.furnished.held orderly.modulesHeld spec name)
      rfl rfl rfl (covers_module held)
  | object module spec name =>
    obtain ⟨isOpen, allowed, held⟩ := fits
    exact .of_early orderly (Pass.registerObject_moves held allowed isOpen spec name)
      rfl rfl rfl (covers_module held)
  | struct module spec written =>
    obtain ⟨isOpen, allowed, held⟩ := fits
    exact .of_early orderly
      (Pass.registerStruct_moves held allowed orderly.furnished.held isOpen spec written)
      rfl rfl rfl (covers_module held)
  | func module spec written => exact func_takes orderly fits
  | bind module =>
    obtain ⟨held, mayBind⟩ := fits
    exact .of_early orderly
      (Pass.bindOne_moves orderly.integral orderly.furnished.held mayBind) rfl rfl rfl
      (covers_module held)
  | constant job =>
    obtain ⟨allowed, held⟩ := fits
    have folds := job.after_folds run
    obtain ⟨moves, intact⟩ := folds.proceeds orderly.toIntact held allowed
    exact .of_plain_moves orderly moves (folds.advances orderly.toReady).changes
      (fun isEarly => by cases isEarly) intact rfl rfl (covers_module held)
  | block slot =>
    have alters : Session.Changes True .registration run.session ((block slot).after run).session :=
      block_keeps _ (fun changes => changes.tail (.setInit _ _ _)) .refl
    cases isFrame : run.blocks[slot]? with
    | none =>
      have same := after_block_none isFrame
      refine .of_plain_moves orderly ?_ alters (fun isEarly => by cases isEarly) ?_ rfl rfl
        Bounds.covers_nil
      · rw [same]
        exact .refl run
      · rw [same]
        exact orderly.toIntact
    | some frame =>
      have held := (orderly.framesHeld frame (List.mem_of_getElem? isFrame)).2
      obtain ⟨moves, intact⟩ :=
        Pass.foldBlock_proceeds orderly.toIntact held (fits frame isFrame)
      rw [← after_block_some isFrame] at moves intact
      exact .of_plain_moves orderly moves alters (fun isEarly => by cases isEarly) intact rfl rfl
        Bounds.covers_nil

/-! ## Many steps -/

theorem Takes.same_blocks (takes : step.Takes may run) (noFrame : step.frames = []) :
    (step.after run).blocks = run.blocks := by
  obtain ⟨added, isAfter, source⟩ := takes.blocks
  rw [noFrame] at source
  rw [isAfter, List.map_eq_nil_iff.mp source, List.append_nil]

/-- Every step of a list does what steps do when its turn comes. -/
def TakesAll (may : Handle → Prop) : List Step → Run → Prop
  | [], _ => True
  | step :: steps, run => step.Takes may run ∧ TakesAll may steps (step.after run)

variable {steps earlier later : List Step}

theorem TakesAll.append (first : TakesAll may earlier run)
    (second : TakesAll may later (afterAll earlier run)) : TakesAll may (earlier ++ later) run := by
  induction earlier generalizing run with
  | nil => exact second
  | cons step earlier ih =>
    exact ⟨first.1, ih first.2 second⟩

theorem TakesAll.of_append (all : TakesAll may (earlier ++ later) run) :
    TakesAll may earlier run := by
  induction earlier generalizing run with
  | nil => trivial
  | cons step earlier ih => exact ⟨all.1, ih all.2⟩

theorem TakesAll.takes (all : TakesAll may (earlier ++ step :: later) run) :
    step.Takes may (afterAll earlier run) := by
  induction earlier generalizing run with
  | nil => exact all.1
  | cons first earlier ih => exact ih all.2

section

variable (all : TakesAll may steps run)
include all

/-- What every step keeps holds after all of them. -/
theorem TakesAll.keeps (inv : Run → Prop) (holds : inv run)
    (keeps : ∀ step ∈ steps, ∀ run, inv run → step.Takes may run → inv (step.after run)) :
    inv (afterAll steps run) := by
  induction steps generalizing run with
  | nil => exact holds
  | cons step steps ih =>
    obtain ⟨keepsFirst, keepsRest⟩ := List.forall_mem_cons.mp keeps
    exact ih all.2 (keepsFirst run holds all.1) keepsRest

theorem TakesAll.orderly (orderly : run.Orderly) : (afterAll steps run).Orderly :=
  all.keeps Run.Orderly orderly fun _ _ _ _ takes => takes.orderly

theorem TakesAll.file : (afterAll steps run).file = run.file :=
  all.keeps (fun later => later.file = run.file) rfl fun _ _ _ same takes => takes.file.trans same

theorem TakesAll.evolves :
    Session.Evolves may (afterAll steps run).arena.size run.session (afterAll steps run).session :=
  all.keeps (fun later => Session.Evolves may later.arena.size run.session later.session) .refl
    fun _ _ _ evolves takes =>
      (evolves.mono takes.changes.evolves.1 fun _ allowed => allowed).trans takes.session

theorem TakesAll.upholds : run.session.Upholds (afterAll steps run).session :=
  all.keeps (fun later => run.session.Upholds later.session) (.refl _) fun step _ later upholds takes =>
    (upholds.trans (upholds_opened step later)).trans takes.alters.upholds

theorem TakesAll.arena (isEarly : ∀ step ∈ steps, step.isEarly = true) :
    (afterAll steps run).arena = run.arena :=
  all.keeps (fun later => later.arena = run.arena) rfl fun step member _ same takes =>
    (takes.arena (isEarly step member)).trans same

theorem TakesAll.persists : run.session.Persists (afterAll steps run).session :=
  all.evolves.persists

theorem TakesAll.modules_size :
    run.session.modules.size ≤ (afterAll steps run).session.modules.size :=
  (all.persists.bounds 0).modules

theorem TakesAll.blocks :
    ∃ added, (afterAll steps run).blocks = run.blocks ++ added ∧
      added.map Frame.source = steps.flatMap frames := by
  induction steps generalizing run with
  | nil => exact ⟨[], (List.append_nil _).symm, rfl⟩
  | cons step steps ih =>
    obtain ⟨first, isFirst, firstSource⟩ := all.1.blocks
    obtain ⟨rest, isRest, restSource⟩ := ih all.2
    refine ⟨first ++ rest, ?_, ?_⟩
    · show (afterAll steps (step.after run)).blocks = _
      rw [isRest, isFirst, List.append_assoc]
    · rw [List.map_append, firstSource, restSource, List.flatMap_cons]

theorem TakesAll.same_blocks (noFrame : ∀ step ∈ steps, step.frames = []) :
    (afterAll steps run).blocks = run.blocks := by
  obtain ⟨added, isAfter, source⟩ := all.blocks
  rw [List.flatMap_eq_nil_iff.mpr noFrame] at source
  rw [isAfter, List.map_eq_nil_iff.mp source, List.append_nil]

theorem TakesAll.modules (noModule : ∀ step ∈ steps, ∀ run, step.declares run = []) :
    (afterAll steps run).modules = run.modules := by
  refine all.keeps (fun later => later.modules = run.modules) rfl fun step member later same takes => ?_
  rw [takes.modules, noModule step member, List.append_nil, same]

end

/-- Steps that each fit where some invariant holds, and keep it, are all taken. -/
theorem takesAll_of_fits (inv : Run → Prop) (orderly : run.Orderly) (holds : inv run)
    (fits : ∀ step ∈ steps, ∀ run, run.Orderly → inv run → step.Fits may run)
    (keeps : ∀ step ∈ steps, ∀ run, inv run → step.Takes may run → inv (step.after run)) :
    TakesAll may steps run ∧ (afterAll steps run).Orderly ∧ inv (afterAll steps run) := by
  induction steps generalizing run with
  | nil => exact ⟨trivial, orderly, holds⟩
  | cons step steps ih =>
    obtain ⟨fitsFirst, fitsRest⟩ := List.forall_mem_cons.mp fits
    obtain ⟨keepsFirst, keepsRest⟩ := List.forall_mem_cons.mp keeps
    have takes := (fitsFirst run orderly holds).takes orderly
    have rest := ih takes.orderly (keepsFirst run holds takes) fitsRest keepsRest
    exact ⟨⟨takes, rest.1⟩, rest.2⟩

/-! ## The steps of a manifest fit -/

def Within (count : Nat) : Step → Prop
  | declare _ => False
  | wire module _ _ | object module _ _ | struct module _ _ | func module _ _ | bind module =>
      module.index < count
  | constant job => job.module.index < count
  | block _ => True

theorem Within.fits (within : step.Within count) (large : count ≤ run.session.modules.size) :
    step.Fits (fun _ => True) run := by
  cases step with
  | declare spec => exact within.elim
  | constant job => exact ⟨trivial, Nat.lt_of_lt_of_le within large⟩
  | bind module =>
    exact ⟨Nat.lt_of_lt_of_le within large, fun _ _ => .inr ⟨trivial, fun _ _ _ _ => trivial⟩⟩
  | block slot => exact fun _ _ => trivial
  | _ => exact ⟨fun _ _ => trivial, trivial, Nat.lt_of_lt_of_le within large⟩

theorem declares_of_within (within : step.Within count) (run : Run) : step.declares run = [] := by
  cases step with
  | declare spec => exact within.elim
  | _ => rfl

theorem supplied_declare (supplied : run.session.Supplied) (spec : Manifest.Module) :
    ((declare spec).after run).session.Supplied := by
  obtain ⟨_, suppliedAfter, _⟩ : ({ run with
      modules := run.modules ++ [(⟨run.session.modules.size⟩, spec)] } : Run).Moves
        (fun _ => True) _ ∧ _ :=
    Pass.declareModule_moves supplied (fun _ _ => trivial) (fun _ _ => .inl trivial) spec
  exact suppliedAfter

end Step

namespace Manifest

variable {manifest : Manifest}

theorem index_of_numbered {module : ModuleId × Manifest.Module}
    (member : module ∈ manifest.numbered) : module.1.index < manifest.modules.length := by
  obtain ⟨⟨spec, index⟩, isModule, rfl⟩ := List.mem_map.mp member
  obtain ⟨_, bound, _⟩ := List.mem_zipIdx isModule
  simpa using bound

variable (manifest)

/-- What imports add nothing to comes from definitions. -/
theorem registration_flatMap {β : Type} {part : Step → List β}
    (noImport : ∀ module spec name, part (.wire module spec name) = []) :
    manifest.registration.flatMap part =
      (manifest.numbered.flatMap Step.definitions).flatMap part := by
  have none : (manifest.numbered.flatMap Step.imports).flatMap part = [] :=
    List.flatMap_eq_nil_iff.mpr <| List.forall_mem_flatMap.mpr fun _ _ =>
      Step.forall_imports fun name _ => noImport _ _ name
  rw [registration, List.flatMap_append, none, List.nil_append]

theorem within_registration : ∀ step ∈ manifest.registration, step.Within manifest.modules.length := by
  refine List.forall_mem_append.mpr ⟨?_, ?_⟩
  · refine List.forall_mem_flatMap.mpr fun module isModule => Step.forall_imports fun _ _ => ?_
    exact index_of_numbered isModule
  · refine List.forall_mem_flatMap.mpr fun module isModule => ?_
    have within := index_of_numbered isModule
    exact Step.forall_definitions (fun _ _ => within) (fun _ _ => within) fun _ _ => within

theorem within_bindings : ∀ step ∈ manifest.bindings, step.Within manifest.modules.length :=
  List.forall_mem_map.mpr fun _ isModule => index_of_numbered isModule

theorem early_definitions (module : ModuleId × Manifest.Module) :
    ∀ step ∈ Step.definitions module, step.isEarly = true :=
  Step.forall_definitions (fun _ _ => rfl) (fun _ _ => rfl) fun _ _ => rfl

theorem early_registration : ∀ step ∈ manifest.registration, step.isEarly = true :=
  List.forall_mem_append.mpr
    ⟨List.forall_mem_flatMap.mpr fun _ _ => Step.forall_imports fun _ _ => rfl,
      List.forall_mem_flatMap.mpr fun module _ => early_definitions module⟩

theorem within_foldings (file : String) :
    ∀ step ∈ manifest.foldings file, step.Within manifest.modules.length := by
  intro step member
  obtain ⟨job, isJob, rfl⟩ := List.mem_map.mp member
  obtain ⟨⟨spec, index⟩, isModule, isJob⟩ := List.mem_flatMap.mp isJob
  obtain ⟨⟨constant, _⟩, _, rfl⟩ := List.mem_map.mp isJob
  obtain ⟨_, bound, _⟩ := List.mem_zipIdx isModule
  show index < manifest.modules.length
  simpa using bound

theorem within_blockFoldings :
    ∀ step ∈ manifest.blockFoldings, step.Within manifest.modules.length :=
  List.forall_mem_map.mpr fun _ _ => trivial

theorem within_stages (file : String) :
    ∀ step ∈ manifest.registration ++ (manifest.bindings ++
      (manifest.foldings file ++ manifest.blockFoldings)),
      step.Within manifest.modules.length := by
  simp only [List.forall_mem_append]
  exact ⟨manifest.within_registration, manifest.within_bindings, manifest.within_foldings file,
    manifest.within_blockFoldings⟩

end Manifest

namespace Run

open Step (TakesAll)

abbrev free : Handle → Prop :=
  fun _ => True

theorem acyclic_empty : Arena.Acyclic {} :=
  Arena.Acyclic.of_index fun ⟨_, found, _⟩ => by cases found

theorem orderly_start (manifest : Manifest) (file : String) : (start manifest file).Orderly where
  acyclic := acyclic_empty
  typed := Arena.Nodewise.empty
  rounded := Session.rounded_ofTarget _
  registered := Session.registered_ofTarget _
  integral := Session.integral_ofTarget _
  furnished := (Session.supplied_ofTarget _).toFurnished
  covered := Arena.Nodewise.empty
  modulesHeld := List.forall_mem_nil _
  framesHeld := List.forall_mem_nil _
  untrapped := rfl
  plain := ⟨fun _ _ _ => rfl, List.forall_mem_nil _⟩

variable {run : Run} {count : Nat}

theorem declares_taken (orderly : run.Orderly) (supplied : run.session.Supplied)
    (specs : List Manifest.Module) :
    TakesAll free (specs.map Step.declare) run ∧
      (Step.afterAll (specs.map Step.declare) run).Orderly ∧
      (Step.afterAll (specs.map Step.declare) run).session.Supplied := by
  refine Step.takesAll_of_fits (fun run => run.session.Supplied) orderly supplied
    (fun step member run orderly supplied => ?_) fun step member run supplied _ => ?_
  · obtain ⟨spec, _, rfl⟩ := List.mem_map.mp member
    exact ⟨supplied, fun _ _ => trivial, fun _ _ => .inl trivial⟩
  · obtain ⟨spec, _, rfl⟩ := List.mem_map.mp member
    exact Step.supplied_declare supplied spec

theorem within_taken (orderly : run.Orderly) (large : count ≤ run.session.modules.size)
    {steps : List Step} (within : ∀ step ∈ steps, step.Within count) :
    TakesAll free steps run ∧ (Step.afterAll steps run).Orderly ∧
      count ≤ (Step.afterAll steps run).session.modules.size :=
  Step.takesAll_of_fits (fun run => count ≤ run.session.modules.size) orderly large
    (fun step member _ _ large => (within step member).fits large)
    fun _ _ _ large takes => Nat.le_trans large (takes.session.persists.bounds 0).modules

/-- Modules take their handles in the order in which they are declared. -/
theorem declares_modules {may : Handle → Prop} {specs : List Manifest.Module}
    (taken : TakesAll may (specs.map Step.declare) run) :
    (Step.afterAll (specs.map Step.declare) run).modules = run.modules ++
        (specs.zipIdx run.session.modules.size).map (fun (spec, index) => (⟨index⟩, spec)) ∧
      (Step.afterAll (specs.map Step.declare) run).session.modules.size =
        run.session.modules.size + specs.length := by
  induction specs generalizing run with
  | nil => exact ⟨(List.append_nil _).symm, rfl⟩
  | cons spec specs ih =>
    obtain ⟨modules, size⟩ := ih taken.2
    have sizeNext := taken.1.alters.modules_size.trans (Array.size_push _)
    rw [taken.1.modules, sizeNext] at modules
    rw [List.map_cons, Step.afterAll_cons, modules, size, sizeNext, List.append_assoc]
    refine ⟨rfl, ?_⟩
    rw [List.length_cons, Nat.add_assoc, Nat.add_comm 1]

/-! ## The run takes these steps -/

theorem forM_steps {α : Type} {body : α → Pass Unit} {steps : α → List Step}
    (same : ∀ item run, ((body item).run run).2 = Step.afterAll (steps item) run)
    (items : List α) (run : Run) :
    ((items.forM body).run run).2 = Step.afterAll (items.flatMap steps) run := by
  induction items generalizing run with
  | nil => rfl
  | cons item items ih =>
    rw [run_forM_cons, List.flatMap_cons, Step.afterAll_append, ← same]
    exact ih _

theorem forM_map_steps {α : Type} (step : α → Step) (items : List α) (run : Run) :
    ((items.forM fun item => (step item).pass).run run).2 = Step.afterAll (items.map step) run := by
  rw [List.map_eq_flatMap]
  exact forM_steps (fun _ _ => rfl) items run

theorem declared_eq (manifest : Manifest) (file : String) :
    declared manifest file =
      Step.afterAll (manifest.modules.map .declare) (start manifest file) :=
  forM_map_steps Step.declare manifest.modules _

section

variable (modules : List (ModuleId × Manifest.Module))
include modules

theorem imports_run (run : Run) :
    ((modules.forM fun (module, spec) =>
        spec.imports.forM (Pass.wireImport module spec) : Pass Unit).run run).2 =
      Step.afterAll (modules.flatMap Step.imports) run :=
  forM_steps (fun module run => forM_map_steps (Step.wire module.1 module.2) module.2.imports run)
    modules run

theorem definitions_run (run : Run) :
    ((modules.forM fun (module, spec) =>
        Pass.registerDefinitions module spec : Pass Unit).run run).2 =
      Step.afterAll (modules.flatMap Step.definitions) run := by
  refine forM_steps (fun module run => ?_) modules run
  have objects := forM_map_steps (Step.object module.1 module.2) module.2.objects run
  have structs := forM_map_steps (Step.struct module.1 module.2) module.2.structs
  have functions := forM_map_steps (Step.func module.1 module.2) module.2.functions
  rw [Step.definitions, Step.afterAll_append, Step.afterAll_append, ← objects, ← structs,
    ← functions]
  rfl

/-- Modules are bound one after the other, since no step reports an internal error. -/
theorem bindModules_run (taken : TakesAll free (modules.map fun module => .bind module.1) run) :
    (Pass.bindModules modules).run run =
      (true, Step.afterAll (modules.map fun module => .bind module.1) run) := by
  induction modules generalizing run with
  | nil => rfl
  | cons module modules ih =>
    obtain ⟨takes, rest⟩ := taken
    have noInternal : ((Step.bind module.1).after run).log.hasInternal = false := by
      rw [Log.hasInternal, takes.orderly.plain.counts .internal (by decide) (by decide)]
      rfl
    have goesOn : (Pass.bindModules (module :: modules)).run run =
        (if ((Step.bind module.1).after run).log.hasInternal then
          (return false : Pass Bool) else Pass.bindModules modules).run
            ((Step.bind module.1).after run) := rfl
    rw [goesOn, noInternal]
    exact ih rest

end

/-- The blocks of a run in their order, from one of them on. -/
theorem foldBlocks_run {earlier rest : List Frame} (isBlocks : run.blocks = earlier ++ rest)
    (taken : TakesAll free ((List.range' earlier.length rest.length).map .block) run) :
    ((rest.forM Pass.foldBlock).run run).2 =
      Step.afterAll ((List.range' earlier.length rest.length).map .block) run := by
  induction rest generalizing run earlier with
  | nil => rfl
  | cons frame rest ih =>
    rw [List.length_cons, List.range'_succ, List.map_cons] at taken ⊢
    obtain ⟨takes, taken⟩ := taken
    have isFrame : run.blocks[earlier.length]? = some frame := by
      rw [isBlocks, List.getElem?_append_right (Nat.le_refl _), Nat.sub_self]
      rfl
    rw [run_forM_cons, ← Step.after_block_some isFrame]
    have split : earlier ++ frame :: rest = (earlier ++ [frame]) ++ rest := by simp
    have rested := ih (((takes.same_blocks rfl).trans isBlocks).trans split)
      (by rw [List.length_append]; exact taken)
    rw [rested, List.length_append]
    rfl

def registered (manifest : Manifest) (file : String) : Run :=
  Step.afterAll manifest.registration (declared manifest file)

def bound (manifest : Manifest) (file : String) : Run :=
  Step.afterAll manifest.bindings (registered manifest file)

def folded (manifest : Manifest) (file : String) : Run :=
  Step.afterAll (manifest.foldings file) (bound manifest file)

variable (manifest : Manifest) (file : String)

theorem folded_eq :
    folded manifest file = afterAll (constantJobs manifest file) (bound manifest file) := by
  rw [folded, Manifest.foldings, Step.afterAll, List.foldl_map]
  rfl

theorem declared_taken :
    TakesAll free (manifest.modules.map .declare) (start manifest file) ∧
      (declared manifest file).Orderly ∧
      (declared manifest file).session.modules.size = manifest.modules.length := by
  obtain ⟨taken, orderly, _⟩ := declares_taken (orderly_start manifest file)
    (Session.supplied_ofTarget manifest.settings.target) manifest.modules
  rw [declared_eq]
  exact ⟨taken, orderly, (declares_modules taken).2.trans (Nat.zero_add _)⟩

theorem declared_modules : (declared manifest file).modules = manifest.numbered := by
  rw [declared_eq, (declares_modules (declared_taken manifest file).1).1]
  rfl

theorem constantJobs_eq :
    constantJobs manifest file =
      (declared manifest file).modules.flatMap fun (module, spec) =>
        moduleJobs file module spec := by
  rw [declared_modules, Manifest.numbered, List.flatMap_map]
  rfl

theorem registered_taken :
    TakesAll free manifest.registration (declared manifest file) ∧
      (registered manifest file).Orderly ∧
      manifest.modules.length ≤ (registered manifest file).session.modules.size := by
  obtain ⟨_, orderly, size⟩ := declared_taken manifest file
  exact within_taken orderly (Nat.le_of_eq size.symm) manifest.within_registration

theorem bound_taken :
    TakesAll free manifest.bindings (registered manifest file) ∧
      (bound manifest file).Orderly ∧
      manifest.modules.length ≤ (bound manifest file).session.modules.size := by
  obtain ⟨_, orderly, large⟩ := registered_taken manifest file
  exact within_taken orderly large manifest.within_bindings

/-- There is no expression before the first constant. -/
theorem bound_arena : (bound manifest file).arena = {} := by
  have declares := (declared_taken manifest file).1.arena (List.forall_mem_map.mpr fun _ _ => rfl)
  rw [bound, (bound_taken manifest file).1.arena (List.forall_mem_map.mpr fun _ _ => rfl), registered,
    (registered_taken manifest file).1.arena manifest.early_registration, declared_eq, declares]
  rfl

theorem bound_upholds :
    (start manifest file).session.Upholds (bound manifest file).session := by
  have declares := (declared_taken manifest file).1.upholds
  rw [← declared_eq] at declares
  exact (declares.trans (registered_taken manifest file).1.upholds).trans
    (bound_taken manifest file).1.upholds

theorem folded_taken :
    TakesAll free (manifest.foldings file) (bound manifest file) ∧
      (folded manifest file).Orderly ∧
      manifest.modules.length ≤ (folded manifest file).session.modules.size := by
  obtain ⟨_, orderly, large⟩ := bound_taken manifest file
  exact within_taken orderly large (manifest.within_foldings file)

theorem folded_advances : ConstantJob.Advances (bound manifest file) (folded manifest file) := by
  rw [folded_eq]
  exact afterAll_advances (bound_taken manifest file).2.1.toReady _

theorem blocks_taken : TakesAll free manifest.blockFoldings (folded manifest file) := by
  obtain ⟨_, orderly, large⟩ := folded_taken manifest file
  exact (within_taken orderly large manifest.within_blockFoldings).1

/-- Every step after the declaration of modules does what steps do. -/
theorem stages_taken :
    TakesAll free (manifest.registration ++ (manifest.bindings ++
      (manifest.foldings file ++ manifest.blockFoldings))) (declared manifest file) :=
  (registered_taken manifest file).1.append ((bound_taken manifest file).1.append
    ((folded_taken manifest file).1.append (blocks_taken manifest file)))

theorem steps_taken : TakesAll free (manifest.steps file) (start manifest file) := by
  refine (declared_taken manifest file).1.append ?_
  rw [← declared_eq]
  exact stages_taken manifest file

/-- Binding comes to its end. -/
theorem binding_eq : binding manifest file = (true, bound manifest file) := by
  have unfolded : binding manifest file =
      (Pass.bindModules (declared manifest file).modules).run
        (((declared manifest file).modules.forM fun (module, spec) =>
          Pass.registerDefinitions module spec : Pass Unit).run
            (((declared manifest file).modules.forM fun (module, spec) =>
              spec.imports.forM (Pass.wireImport module spec) : Pass Unit).run
                (declared manifest file)).2).2 := rfl
  rw [unfolded, imports_run, definitions_run, ← Step.afterAll_append, declared_modules]
  exact bindModules_run manifest.numbered (bound_taken manifest file).1

theorem declared_blocks : (declared manifest file).blocks = [] := by
  rw [declared_eq]
  exact (declared_taken manifest file).1.same_blocks (List.forall_mem_map.mpr fun _ _ => rfl)

theorem registered_frames :
    (registered manifest file).blocks.map Frame.source = manifest.frames := by
  obtain ⟨added, isAfter, source⟩ := (registered_taken manifest file).1.blocks
  rw [registered, isAfter, declared_blocks, List.nil_append, source,
    manifest.registration_flatMap fun _ _ _ => rfl]
  rfl

theorem bound_blocks : (bound manifest file).blocks = (registered manifest file).blocks :=
  (bound_taken manifest file).1.same_blocks (List.forall_mem_map.mpr fun _ _ => rfl)

theorem folded_blocks : (folded manifest file).blocks = (registered manifest file).blocks := by
  rw [← bound_blocks]
  exact (folded_taken manifest file).1.same_blocks (List.forall_mem_map.mpr fun _ _ => rfl)

theorem length_folded_blocks :
    (folded manifest file).blocks.length = manifest.frames.length := by
  rw [folded_blocks, ← registered_frames manifest file, List.length_map]

theorem blockFoldings_eq :
    manifest.blockFoldings =
      (List.range' 0 (folded manifest file).blocks.length).map .block := by
  rw [Manifest.blockFoldings, length_folded_blocks, List.range_eq_range']

theorem bound_file : (bound manifest file).file = file := by
  rw [bound, (bound_taken manifest file).1.file, registered, (registered_taken manifest file).1.file,
    declared_eq]
  exact (declared_taken manifest file).1.file

/-- The run over a manifest ends with its blocks. -/
theorem ofManifest_eq :
    ofManifest manifest file =
      Step.afterAll manifest.blockFoldings (folded manifest file) := by
  have taken := blocks_taken manifest file
  rw [ofManifest_run, binding_eq, if_pos rfl, run_bind,
    foldModules_run (bound_taken manifest file).2.1.toReady (bound_file manifest file),
    ← constantJobs_eq, run_get_bind, ← folded_eq]
  rw [blockFoldings_eq manifest file] at taken ⊢
  exact foldBlocks_run (List.nil_append _).symm taken

/-- The run over a manifest takes the steps of the manifest. -/
theorem ofManifest_steps :
    ofManifest manifest file = Step.afterAll (manifest.steps file) (start manifest file) := by
  rw [ofManifest_eq, Manifest.steps, Step.afterAll_append, Step.afterAll_append,
    Step.afterAll_append, Step.afterAll_append, ← declared_eq]
  rfl

/-- What the folding of blocks keeps in the session holds at the end. -/
theorem ofManifest_keeps (inv : Session → Prop)
    (setInit : ∀ {session : Session} {block name expr}, inv session →
      inv (session.modifyBlock block fun state => state.setInit name expr))
    (holds : inv (folded manifest file).session) : inv (ofManifest manifest file).session := by
  rw [ofManifest_eq]
  exact @Step.afterAll_keeps (fun run => inv run.session) _ _
    (List.forall_mem_map.mpr fun _ _ _ => Step.block_keeps inv setInit) holds

end Run

end Assay
