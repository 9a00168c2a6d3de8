import Assay.Proofs.Check.Adjoining
import Assay.Proofs.Check.Placing
import Assay.Proofs.Check.RuntimeStructs
import Assay.Proofs.Scope.Apartness

/-!
Contract: the run over a manifest to which a module has been added at the end.
-/

namespace Assay

/-! ## The steps of the larger manifest -/

namespace Manifest

def adding (manifest : Manifest) (extra : Manifest.Module) : Manifest :=
  { manifest with modules := manifest.modules ++ [extra] }

def added (manifest : Manifest) (extra : Manifest.Module) : ModuleId × Manifest.Module :=
  (⟨manifest.modules.length⟩, extra)

/-- The manifest is checked for a valid target and has modules, none of which imports the added
one. -/
structure Admits (manifest : Manifest) (extra : Manifest.Module) : Prop where
  valid : manifest.settings.target.validate = .ok ()
  nonempty : manifest.modules ≠ []
  unimported : ∀ spec ∈ manifest.modules, extra.name ∉ spec.imports

variable (manifest : Manifest) (extra : Manifest.Module)

theorem length_lt_adding : manifest.modules.length < (manifest.adding extra).modules.length := by
  simp [adding]

theorem numbered_adding :
    (manifest.adding extra).numbered = manifest.numbered ++ [manifest.added extra] := by
  simp [numbered, adding, added, List.zipIdx_append]

theorem registration_adding :
    (manifest.adding extra).registration =
      (manifest.numbered.flatMap Step.imports ++ Step.imports (manifest.added extra) ++
        manifest.numbered.flatMap Step.definitions) ++ Step.definitions (manifest.added extra) := by
  simp [registration, numbered_adding]

theorem bindings_adding :
    (manifest.adding extra).bindings =
      manifest.bindings ++ [.bind (manifest.added extra).1] := by
  simp [bindings, numbered_adding]

theorem foldings_adding (file : String) :
    (manifest.adding extra).foldings file = manifest.foldings file ++
      (Run.moduleJobs file (manifest.added extra).1 extra).map .constant := by
  simp [foldings, Run.constantJobs, adding, added, List.zipIdx_append]

theorem frames_adding :
    (manifest.adding extra).frames =
      manifest.frames ++ (Step.definitions (manifest.added extra)).flatMap Step.frames := by
  simp [frames, numbered_adding]

theorem blockFoldings_adding :
    (manifest.adding extra).blockFoldings = manifest.blockFoldings ++
      (List.range' manifest.frames.length
        ((Step.definitions (manifest.added extra)).flatMap Step.frames).length).map .block := by
  rw [blockFoldings, frames_adding, List.length_append, List.range_eq_range',
    ← List.range'_append_1, List.map_append, blockFoldings, List.range_eq_range', Nat.zero_add]

end Manifest

/-! ## Many steps -/

namespace Step

variable {may : Handle → Prop} {run : Run} {steps : List Step}

/-- The frames that steps set up are for blocks that they allocate. -/
theorem TakesAll.frames_allocated (orderly : run.Orderly) (all : TakesAll may steps run) :
    ∃ added, (afterAll steps run).blocks = run.blocks ++ added ∧
      ∀ frame ∈ added, run.session.blocks.size ≤ frame.block.index := by
  induction steps generalizing run with
  | nil => exact ⟨[], (List.append_nil _).symm, List.forall_mem_nil _⟩
  | cons step steps ih =>
    obtain ⟨takes, rest⟩ := all
    obtain ⟨later, isLater, allocated⟩ := ih takes.orderly rest
    have grown := (takes.session.persists.bounds 0).blocks
    have fresh : ∀ frame ∈ later, run.session.blocks.size ≤ frame.block.index :=
      fun frame member => Nat.le_trans grown (allocated frame member)
    rw [afterAll_cons, isLater]
    rcases takes.new_frames orderly with same | ⟨frame, isNext, isBlock⟩
    · exact ⟨later, by rw [same], fresh⟩
    · refine ⟨frame :: later, by rw [isNext, List.append_assoc]; rfl, ?_⟩
      exact List.forall_mem_cons.mpr ⟨by rw [isBlock], fresh⟩

/-- Binding allocates nothing. -/
theorem TakesAll.bounds_eq (all : TakesAll may steps run)
    (binds : ∀ step ∈ steps, ∃ module, step = .bind module) (exprs : Nat) :
    (afterAll steps run).session.bounds exprs = run.session.bounds exprs := by
  refine all.keeps (fun later => later.session.bounds exprs = run.session.bounds exprs) rfl
    fun step member later same takes => ?_
  obtain ⟨module, rfl⟩ := binds step member
  have changes : Session.Changes True .binding later.session _ := takes.alters
  exact (changes.bounds_eq exprs).trans same

end Step

namespace Run

open Step (TakesAll)

/-- The definitions of the first run are those of the second one, and the frames that the second one
has besides are those of a module beyond the limits. -/
structure Includes (limits : Bounds) (module : ModuleId) (first second : Run) : Prop where
  file : second.file = first.file
  session : first.session.Extends second.session
  blocks : ∃ others, second.blocks = first.blocks ++ others ∧
    ∀ frame ∈ others, frame.module = module ∧ limits.Beyond (.block frame.block)

/-! ## The stages of the larger run -/

section

variable (manifest : Manifest) (extra : Manifest.Module) (file : String)

theorem declared_adding :
    declared (manifest.adding extra) file =
      (Step.declare extra).after (declared manifest file) := by
  have isModules : (manifest.adding extra).modules = manifest.modules ++ [extra] := rfl
  have sameStart : start (manifest.adding extra) file = start manifest file := rfl
  rw [declared_eq, declared_eq, isModules, sameStart, List.map_append, Step.afterAll_append,
    List.map_singleton, Step.afterAll_cons]
  rfl

def partway : Run :=
  Step.afterAll (manifest.numbered.flatMap Step.imports ++ Step.imports (manifest.added extra) ++
    manifest.numbered.flatMap Step.definitions) (declared (manifest.adding extra) file)

theorem registered_adding :
    registered (manifest.adding extra) file =
      Step.afterAll (Step.definitions (manifest.added extra)) (partway manifest extra file) := by
  rw [registered, Manifest.registration_adding, Step.afterAll_append, partway]

theorem partway_taken :
    (partway manifest extra file).Orderly ∧
      manifest.modules.length < (partway manifest extra file).session.modules.size := by
  obtain ⟨_, orderly, size⟩ := declared_taken (manifest.adding extra) file
  have within := (manifest.adding extra).within_registration
  rw [Manifest.registration_adding] at within
  obtain ⟨_, stillOrderly, stillLarge⟩ :=
    within_taken orderly (Nat.le_of_eq size.symm) (List.forall_mem_append.mp within).1
  exact ⟨stillOrderly, Nat.lt_of_lt_of_le (manifest.length_lt_adding extra) stillLarge⟩

def limits : Bounds :=
  (registered manifest file).session.bounds 0

def nearlyBound : Run :=
  Step.afterAll manifest.bindings (registered (manifest.adding extra) file)

theorem bound_bounds :
    (bound manifest file).session.bounds 0 = limits manifest file :=
  (bound_taken manifest file).1.bounds_eq
    (List.forall_mem_map.mpr fun module _ => ⟨module.1, rfl⟩) 0

theorem nearlyBound_taken :
    (nearlyBound manifest extra file).Orderly ∧
      manifest.modules.length < (nearlyBound manifest extra file).session.modules.size := by
  obtain ⟨_, orderly, large⟩ := registered_taken (manifest.adding extra) file
  have within := (manifest.adding extra).within_bindings
  rw [Manifest.bindings_adding] at within
  obtain ⟨_, stillOrderly, stillLarge⟩ :=
    within_taken orderly large (List.forall_mem_append.mp within).1
  exact ⟨stillOrderly, Nat.lt_of_lt_of_le (manifest.length_lt_adding extra) stillLarge⟩

def nearlyFolded : Run :=
  Step.afterAll (manifest.foldings file) (bound (manifest.adding extra) file)

theorem nearlyFolded_taken :
    TakesAll free (manifest.foldings file) (bound (manifest.adding extra) file) ∧
      (nearlyFolded manifest extra file).Orderly := by
  obtain ⟨_, orderly, _⟩ := bound_taken (manifest.adding extra) file
  have taken := (folded_taken (manifest.adding extra) file).1
  rw [Manifest.foldings_adding] at taken
  exact ⟨taken.of_append, taken.of_append.orderly orderly⟩

end

variable {manifest : Manifest} {extra : Manifest.Module}
variable (admits : manifest.Admits extra) (file : String)
include admits

/-! ## Registration -/

theorem declared_beside :
    Beside manifest.modules.length [manifest.added extra] (declared manifest file)
      (declared (manifest.adding extra) file) := by
  have beside := Step.declare_beside (declared_equipped admits.valid admits.nonempty file).stocked
    (declared_taken manifest file).2.1.modulesHeld extra
  rw [(declared_taken manifest file).2.2] at beside
  rw [declared_adding]
  exact beside

theorem partway_beside :
    Beside manifest.modules.length [manifest.added extra] (registered manifest file)
      (partway manifest extra file) := by
  have held : ∀ module ∈ manifest.numbered, module.1.index < manifest.modules.length :=
    fun _ => Manifest.index_of_numbered
  have absent : ∀ module ∈ manifest.numbered, ∀ entry ∈ [manifest.added extra],
      entry.2.name ∉ module.2.imports := by
    intro module isModule entry isEntry
    rw [List.mem_singleton.mp isEntry]
    obtain ⟨⟨spec, index⟩, isSpec, rfl⟩ := List.mem_map.mp isModule
    exact admits.unimported spec (List.fst_mem_of_mem_zipIdx isSpec)
  have wired := Step.imports_beside held absent (declared_beside admits file)
  have wiredAll : Beside manifest.modules.length [manifest.added extra]
      (Step.afterAll (manifest.numbered.flatMap Step.imports) (declared manifest file))
      (Step.afterAll (Step.imports (manifest.added extra))
        (Step.afterAll (manifest.numbered.flatMap Step.imports)
          (declared (manifest.adding extra) file))) :=
    Step.afterAll_keeps (Step.forall_imports fun name _ _ beside =>
      Step.wire_beyond (Nat.le_refl _) extra name beside) wired
  rw [registered, Manifest.registration, partway, Step.afterAll_append, Step.afterAll_append,
    Step.afterAll_append]
  exact Step.definitions_beside held wiredAll

theorem beyond_added :
    (limits manifest file).Beyond (.module (manifest.added extra).1) := by
  have size := (partway_beside admits file).session.size
  exact decide_eq_false (Nat.not_lt.mpr (Nat.le_of_eq size))

/-- The definitions of the module are registered beyond those of the smaller manifest. -/
theorem definitions_taken :
    TakesAll (limits manifest file).Beyond (Step.definitions (manifest.added extra))
      (partway manifest extra file) := by
  obtain ⟨orderly, large⟩ := partway_taken manifest extra file
  have grown := (partway_beside admits file).session.extends
  have allowed := beyond_added admits file
  have isOpen : (partway manifest extra file).session.Open (limits manifest file).Beyond := by
    intro handle absent
    exact Bool.eq_false_iff.mpr fun held =>
      Bool.eq_false_iff.mp absent ((grown.bounds 0).holds held)
  refine (Step.takesAll_of_fits (fun run => run.session.Open (limits manifest file).Beyond ∧
    manifest.modules.length < run.session.modules.size) orderly ⟨isOpen, large⟩ ?_ ?_).1
  · exact Step.forall_definitions (fun _ _ _ _ holds => ⟨holds.1, allowed, holds.2⟩)
      (fun _ _ _ _ holds => ⟨holds.1, allowed, holds.2⟩)
      fun _ _ _ _ holds => ⟨holds.1, allowed, holds.2⟩
  · intro step member run holds takes
    have persists := takes.session.persists
    exact ⟨holds.1.persists persists, Nat.lt_of_lt_of_le holds.2 (persists.bounds 0).modules⟩

theorem registered_includes :
    Includes (limits manifest file) (manifest.added extra).1 (registered manifest file)
      (registered (manifest.adding extra) file) := by
  have beside := partway_beside admits file
  have taken := definitions_taken admits file
  have orderly := (partway_taken manifest extra file).1
  rw [registered_adding]
  refine ⟨?_, ?_, ?_⟩
  · exact taken.file.trans beside.file
  · exact Session.Spares.extends_of_beyond beside.session.extends (.refl _) taken.evolves.spares
  · obtain ⟨others, isBlocks, allocated⟩ := taken.frames_allocated orderly
    obtain ⟨same, sameBlocks, source⟩ := taken.blocks
    cases List.append_cancel_left (isBlocks.symm.trans sameBlocks)
    refine ⟨others, isBlocks.trans (congrArg (fun blocks => blocks ++ others) beside.blocks), ?_⟩
    intro frame member
    refine ⟨?_, decide_eq_false (Nat.not_lt.mpr ?_)⟩
    · have isSource : frame.source ∈ others.map Frame.source := List.mem_map_of_mem member
      rw [source] at isSource
      exact Step.module_of_frames _ frame.source isSource
    · have size := congrArg Array.size beside.session.blocks
      exact Nat.le_trans (Nat.le_of_eq size.symm) (allocated frame member)

theorem registered_apart :
    (registered (manifest.adding extra) file).session.Apart (limits manifest file)
      (manifest.added extra).1 := by
  have beside := partway_beside admits file
  have apart : (partway manifest extra file).session.Apart (limits manifest file)
      (manifest.added extra).1 := by
    refine ⟨fun entry member => ?_, fun func owner beyond isOwner => ?_⟩
    · have bare : ((partway manifest extra file).session.moduleAt
          (manifest.added extra).1).funcs = [] := beside.session.bare _ (Nat.le_refl _)
      rw [bare] at member
      cases member
    · have unheld : ¬ func.index < (registered manifest file).session.funcs.size :=
        of_decide_eq_false beyond
      rw [beside.session.funcAt, Session.funcAt,
        Array.getElem?_eq_none (Nat.le_of_not_lt unheld)] at isOwner
      cases isOwner
  rw [registered_adding]
  exact (definitions_taken admits file).evolves.apart
    (fun _ _ beyond beyondOwner => ⟨beyond, beyondOwner⟩) apart

/-! ## Binding -/

theorem nearlyBound_includes :
    Includes (limits manifest file) (manifest.added extra).1 (bound manifest file)
      (nearlyBound manifest extra file) := by
  obtain ⟨_, orderly, large⟩ := registered_taken manifest file
  let related : Run → Run → Prop := fun first second =>
    Includes (limits manifest file) (manifest.added extra).1 first second ∧ first.Orderly ∧
      manifest.modules.length ≤ first.session.modules.size
  have all : related (bound manifest file) (nearlyBound manifest extra file) := by
    refine Step.afterAll_relates (fun step member first second holds => ?_)
      ⟨registered_includes admits file, orderly, large⟩
    have within := manifest.within_bindings step member
    obtain ⟨module, isModule, rfl⟩ := List.mem_map.mp member
    obtain ⟨includes, orderly, large⟩ := holds
    have takes := (within.fits large).takes orderly
    have session := Session.bindModule_extends includes.session orderly.integral
      orderly.furnished.held (Nat.lt_of_lt_of_le within large) first.log second.log
    exact ⟨⟨includes.file, session, includes.blocks⟩, takes.orderly,
      Nat.le_trans large (takes.session.persists.bounds 0).modules⟩
  exact all.1

/-- Binding gives no functions to modules. -/
theorem nearlyBound_apart :
    (nearlyBound manifest extra file).session.Apart (limits manifest file)
      (manifest.added extra).1 := by
  obtain ⟨_, orderly, large⟩ := registered_taken (manifest.adding extra) file
  let may : Handle → Prop := fun handle => ∀ func, handle ≠ .func func
  let inv : Run → Prop := fun run =>
    (manifest.adding extra).modules.length ≤ run.session.modules.size
  have mayBind : ∀ (session : Session) (id : StructId), session.MayBind may id := fun _ _ =>
    .inr ⟨fun _ => Handle.noConfusion, fun _ _ _ _ _ => Handle.noConfusion⟩
  have within := (manifest.adding extra).within_bindings
  rw [Manifest.bindings_adding] at within
  have taken : TakesAll may manifest.bindings (registered (manifest.adding extra) file) := by
    refine (Step.takesAll_of_fits inv orderly large (fun step member run _ large => ?_)
      fun step member run large takes => ?_).1
    · have isWithin := within step (List.mem_append_left _ member)
      obtain ⟨module, _, rfl⟩ := List.mem_map.mp member
      exact ⟨Nat.lt_of_lt_of_le isWithin large, fun id _ => mayBind run.session id⟩
    · exact Nat.le_trans large (takes.session.persists.bounds 0).modules
  exact taken.evolves.apart (fun func _ allowed => absurd rfl (allowed func))
    (registered_apart admits file)

theorem bound_includes :
    Includes (limits manifest file) (manifest.added extra).1 (bound manifest file)
      (bound (manifest.adding extra) file) := by
  obtain ⟨orderly, held⟩ := nearlyBound_taken manifest extra file
  have includes := nearlyBound_includes admits file
  have isOrderly := (bound_taken manifest file).2.1
  have runtime : ∀ id ∈ Prelude.structIds,
      ((nearlyBound manifest extra file).session.structAt id).isBound = true := by
    intro id member
    have heldId := Nat.lt_of_lt_of_le (Prelude.index_lt member) isOrderly.furnished.held
    rw [includes.session.structs id heldId not_false]
    exact bound_runtime admits.valid admits.nonempty file id member
  have fits : (Step.bind (manifest.added extra).1).Fits (limits manifest file).Beyond
      (nearlyBound manifest extra file) := by
    refine ⟨held, ?_⟩
    have apart := nearlyBound_apart admits file
    have beyond := beyond_added admits file
    have covered := isOrderly.integral.covered
    rw [bound_arena] at covered
    rw [← bound_bounds] at apart beyond ⊢
    exact Session.Apart.mayBind includes.session covered orderly.integral orderly.rounded.referenced held
      apart beyond runtime
  have takes := fits.takes orderly
  have isBound : bound (manifest.adding extra) file =
      (Step.bind (manifest.added extra).1).after (nearlyBound manifest extra file) := by
    rw [bound, Manifest.bindings_adding, Step.afterAll_append]
    rfl
  rw [isBound]
  refine ⟨takes.file.trans includes.file, ?_, includes.blocks⟩
  rw [← bound_bounds] at takes
  exact Session.Spares.extends_of_beyond includes.session (.refl _) takes.session.spares

/-! ## Constants -/

theorem nearlyFolded_includes :
    Includes (limits manifest file) (manifest.added extra).1 (folded manifest file)
      (nearlyFolded manifest extra file) := by
  obtain ⟨_, orderly, large⟩ := bound_taken manifest file
  obtain ⟨sameFile, session, others, isBlocks, areOthers⟩ := bound_includes admits file
  have still : ∀ session : Session, session.relocate ({} : Arena).past = session :=
    fun session => session.relocate_of_still _ Arena.past_empty
  have placed : Placed {} (fun _ => False) (bound manifest file)
      (bound (manifest.adding extra) file) := by
    refine ⟨sameFile, ?_, ?_, others, isBlocks.symm⟩
    · rw [still]
      exact session
    · rw [bound_arena, bound_arena, Arena.behind_empty]
  have within : ∀ job ∈ constantJobs manifest file, job.module.index < manifest.modules.length :=
    fun job member => manifest.within_foldings file _ (List.mem_map_of_mem member)
  have constants : Placed {} (fun _ => False) (folded manifest file)
      (nearlyFolded manifest extra file) :=
    Step.constants_placed within onlyBlocks_none placed orderly large
  refine ⟨constants.file, still (folded manifest file).session ▸ constants.session, others, ?_,
    areOthers⟩
  rw [folded_blocks, ← bound_blocks, ← isBlocks]
  exact (nearlyFolded_taken manifest extra file).1.same_blocks
    (List.forall_mem_map.mpr fun _ _ => rfl)

/-- Constants of the added module change nothing but this module. -/
theorem folded_includes :
    Includes (limits manifest file) (manifest.added extra).1 (folded manifest file)
      (folded (manifest.adding extra) file) := by
  obtain ⟨sameFile, session, others, isBlocks, areOthers⟩ := nearlyFolded_includes admits file
  obtain ⟨taken, orderly⟩ := nearlyFolded_taken manifest extra file
  let module := (manifest.added extra).1
  have held : module.index < (nearlyFolded manifest extra file).session.modules.size := by
    refine Nat.lt_of_lt_of_le ?_ taken.modules_size
    exact Nat.lt_of_lt_of_le (manifest.length_lt_adding extra)
      (bound_taken (manifest.adding extra) file).2.2
  have takes : TakesAll (fun handle => handle = .module module)
      ((moduleJobs file module extra).map .constant) (nearlyFolded manifest extra file) := by
    refine (Step.takesAll_of_fits (fun run => module.index < run.session.modules.size) orderly held
      (fun step member run _ held => ?_) fun step member run held takes => ?_).1
    · obtain ⟨job, isJob, rfl⟩ := List.mem_map.mp member
      obtain ⟨_, _, rfl⟩ := List.mem_map.mp isJob
      exact ⟨rfl, held⟩
    · exact Nat.lt_of_lt_of_le held (takes.session.persists.bounds 0).modules
  have isFolded : folded (manifest.adding extra) file = Step.afterAll
      ((moduleJobs file module extra).map .constant) (nearlyFolded manifest extra file) := by
    rw [folded, Manifest.foldings_adding, Step.afterAll_append]
    rfl
  have beyond : ∀ handle, handle = .module module →
      ((folded manifest file).session.bounds 0).Beyond handle := by
    rintro _ rfl
    have size := congrArg Bounds.modules (bound_bounds manifest file)
    have outside : ¬ module.index < (limits manifest file).modules :=
      of_decide_eq_false (beyond_added admits file)
    rw [← size] at outside
    exact decide_eq_false fun isHeld => outside (Nat.lt_of_lt_of_eq isHeld
      (folded_advances manifest file).changes.modules_size)
  rw [isFolded]
  refine ⟨takes.file.trans sameFile, ?_, others, ?_, areOthers⟩
  · exact Session.Spares.extends_of_beyond session (.refl _)
      (takes.evolves.mono (Nat.le_refl _) beyond).spares
  · rw [← isBlocks]
    exact takes.same_blocks (List.forall_mem_map.mpr fun _ _ => rfl)

end Run

end Assay
