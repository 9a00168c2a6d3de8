import Assay.Proofs.Check.CleanSteps
import Assay.Proofs.Check.Handoff

/-!
Contract: a report without errors is complete.
-/

namespace Assay

namespace Run

variable {manifest : Manifest} {file : String} {index : Nat} {spec : Manifest.Module}

/-! ## Constants -/

/-- The constants of one module among those of a manifest. -/
theorem constantJobs_filter (isModule : manifest.modules[index]? = some spec) :
    (constantJobs manifest file).filter (fun job => job.module = ⟨index⟩) =
      moduleJobs file ⟨index⟩ spec := by
  have isJobs : constantJobs manifest file =
      manifest.numbered.flatMap fun module => moduleJobs file module.1 module.2 := by
    rw [Manifest.numbered, List.flatMap_map]
    rfl
  have owner : ∀ module : ModuleId × Manifest.Module,
      ∀ job ∈ moduleJobs file module.1 module.2, job.module = module.1 := by
    intro module job member
    obtain ⟨_, _, rfl⟩ := List.mem_map.mp member
    rfl
  rw [isJobs, List.filter_flatMap, Manifest.numbered_flatMap isModule fun module different => ?_]
  · exact List.filter_eq_self.mpr fun job member => by simpa using owner (⟨index⟩, spec) job member
  · refine List.filter_eq_nil_iff.mpr fun job member => ?_
    simpa using (owner module job member) ▸ different

theorem moduleJobs_spec (file : String) (module : ModuleId) (spec : Manifest.Module) :
    (moduleJobs file module spec).map ConstantJob.spec = spec.constants := by
  rw [moduleJobs, List.map_map]
  exact List.zipIdx_map_fst 0 spec.constants

theorem blocks_modules (slots : List Nat) (run : Run) :
    (Step.afterAll (slots.map .block) run).session.modules = run.session.modules := by
  refine Step.afterAll_keeps
    (motive := fun later => later.session.modules = run.session.modules) ?_ rfl
  exact List.forall_mem_map.mpr fun slot _ later =>
    Step.block_keeps (fun session => session.modules = run.session.modules) id

/-- A run without errors ends with one constant for each that the manifest gives, in order. -/
theorem ofManifest_constants (clean : (ofManifest manifest file).ErrorFree)
    (isModule : manifest.modules[index]? = some spec) :
    ∃ earlier added,
      ((ofManifest manifest file).session.moduleAt ⟨index⟩).constants = earlier ++ added ∧
      List.Forall₂ (fun (constant : Manifest.Constant) (held : Constant) =>
        constant.name ≠ "" → held.name = constant.name) spec.constants added := by
  obtain ⟨_, _, cleanFolded⟩ := stages_clean clean
  obtain ⟨added, isAdded, names⟩ := Step.constants_added (bound_taken manifest file).2.1
    (folded_taken manifest file).1 cleanFolded ⟨index⟩
  refine ⟨((bound manifest file).session.moduleAt ⟨index⟩).constants, added, ?_, ?_⟩
  · rw [← isAdded, ofManifest_eq, Session.moduleAt, Manifest.blockFoldings, blocks_modules]
    rfl
  · rw [constantJobs_filter isModule] at names
    rw [← moduleJobs_spec file ⟨index⟩ spec]
    exact List.forall₂_map_left_iff.mpr names

/-! ## Variables -/

theorem ofManifest_blocks (manifest : Manifest) (file : String) :
    (ofManifest manifest file).blocks = (registered manifest file).blocks := by
  rw [ofManifest_eq, ← folded_blocks]
  exact (blocks_taken manifest file).same_blocks (List.forall_mem_map.mpr fun _ _ => rfl)

theorem registered_distinct (manifest : Manifest) (file : String) :
    ((registered manifest file).blocks.map Frame.block).Nodup := by
  refine (registered_taken manifest file).1.distinct_frames (declared_taken manifest file).2.1 ?_
  rw [declared_blocks]
  exact List.nodup_nil

/-- Before the first expression nothing is known of what variables start from. -/
theorem bound_fresh {frame : Frame} (member : frame ∈ (bound manifest file).blocks) :
    ((bound manifest file).session.blockAt frame.block).started = [] := by
  have orderly := (bound_taken manifest file).2.1
  have held := (orderly.framesHeld frame member).2
  refine List.eq_nil_iff_forall_not_mem.mpr fun name isStarted => ?_
  obtain ⟨entry, isEntry, _⟩ := List.mem_map.mp isStarted
  have below := orderly.integral.start_held held isEntry
  rw [bound_arena] at below
  exact Nat.not_lt_zero _ below

/-- In a run without errors the variables of a function have different names. -/
theorem registered_locals (clean : (registered manifest file).ErrorFree) {frame : Frame}
    (member : frame ∈ (registered manifest file).blocks) :
    (frame.locals.map Manifest.Variable.name).Nodup := by
  have isSource : frame.source ∈ manifest.frames := by
    rw [← registered_frames manifest file]
    exact List.mem_map_of_mem member
  obtain ⟨step, isStep, isFrame⟩ := List.mem_flatMap.mp isSource
  obtain ⟨before, orderly, takes, cleanStep⟩ := (registered_taken manifest file).1.clean
    (declared_taken manifest file).2.1 clean step (List.mem_append_right _ isStep)
  cases step with
  | func module spec written =>
    change frame.source ∈ (if written.locals.isEmpty then []
      else [(module, written.name, written.locals)]) at isFrame
    split at isFrame
    · cases isFrame
    · have sameLocals : frame.locals = written.locals :=
        congrArg (Prod.snd ∘ Prod.snd) (List.mem_singleton.mp isFrame)
      rw [sameLocals]
      exact (Pass.registerFunction_clean orderly.integral orderly.furnished.held
        (takes.held_module rfl) cleanStep).2
  | _ => cases isFrame

/-- A run without errors ends with every frame started. -/
theorem ofManifest_started (clean : (ofManifest manifest file).ErrorFree) {frame : Frame}
    (member : frame ∈ (ofManifest manifest file).blocks) :
    frame.Started (ofManifest manifest file).session := by
  have taken := blocks_taken manifest file
  have orderly := (folded_taken manifest file).2.1
  rw [ofManifest_blocks, ← folded_blocks] at member
  rw [ofManifest_eq] at clean ⊢
  rw [blockFoldings_eq manifest file] at taken clean ⊢
  refine blocks_started (List.nil_append _).symm orderly ?_ taken clean (List.forall_mem_nil _)
    (fun other isOther => ?_) frame member
  · rw [folded_blocks]
    exact registered_distinct manifest file
  · rw [folded_blocks, ← bound_blocks] at isOther
    have held := ((bound_taken manifest file).2.1.framesHeld other isOther).2
    rw [folded, Manifest.foldings, Step.constants_blocks (bound_taken manifest file).2.1
      (folded_taken manifest file).1 held]
    exact bound_fresh isOther

/-! ## Modules and structs -/

theorem ofManifest_declared (isModule : manifest.modules[index]? = some spec) :
    ((ofManifest manifest file).session.moduleAt ⟨index⟩).Declared spec.name := by
  have taken := (declared_taken manifest file).1
  have declares := declares (Session.supplied_ofTarget _) taken isModule
  have first : (start manifest file).session.modules.size + index = index := Nat.zero_add index
  rw [← declared_eq, first] at declares
  have held : index < (declared manifest file).session.modules.size := by
    rw [(declared_taken manifest file).2.2]
    exact (List.getElem?_eq_some_iff.mp isModule).1
  rw [ofManifest_steps, Manifest.steps, Step.afterAll_append, ← declared_eq]
  exact declares.upholds ((stages_taken manifest file).upholds.modules ⟨index⟩ held)

theorem ofManifest_modules (manifest : Manifest) (file : String) :
    (ofManifest manifest file).modules = manifest.numbered := by
  rw [ofManifest_steps, Manifest.steps, Step.afterAll_append, ← declared_eq,
    (stages_taken manifest file).modules fun step member run => ?_, declared_modules]
  exact Step.declares_of_within (Manifest.within_stages manifest file step member) run

/-- In a run without errors the structs of each module have been bound. -/
theorem ofManifest_isBound (clean : (ofManifest manifest file).ErrorFree)
    (isModule : manifest.modules[index]? = some spec) {id : StructId}
    (member : id ∈ (ofManifest manifest file).session.listed ⟨index⟩) :
    ((ofManifest manifest file).session.structAt id).isBound = true := by
  obtain ⟨later, binds⟩ := ofManifest_sameOutlines manifest file
  obtain ⟨_, cleanBound, _⟩ := stages_clean clean
  rw [later.listed, binds.listed] at member
  have isStep : .bind ⟨index⟩ ∈ manifest.bindings := by
    obtain ⟨earlier, rest, isNumbered, _⟩ := Manifest.numbered_split isModule
    rw [Manifest.bindings, isNumbered]
    simp
  have isBound := (bound_taken manifest file).1.isBound (registered_taken manifest file).2.1
    (List.forall_mem_map.mpr fun _ _ => rfl) cleanBound isStep id member
  have held := Session.listed_held (registered_taken manifest file).2.1.integral.covered member
  have persists : (bound manifest file).session.Persists (ofManifest manifest file).session := by
    rw [ofManifest_eq]
    exact (folded_taken manifest file).1.persists.trans (blocks_taken manifest file).persists
  have heldBound := Nat.lt_of_lt_of_le held
    ((bound_taken manifest file).1.persists.bounds 0).structs
  exact (persists.structs id heldBound).isBound isBound

end Run

/-! ## Complete reports -/

namespace Manifest

def Func.slots (func : Manifest.Func) : List (String × String × Bool) :=
  func.locals.map fun slot => (func.name, slot.name, slot.init.isSome)

variable {manifest : Manifest} {index : Nat} {spec : Manifest.Module}

theorem definitions_frames (module : ModuleId × Manifest.Module) :
    (Step.definitions module).flatMap Step.frames = module.2.functions.flatMap fun func =>
      if func.locals.isEmpty then [] else [(module.1, func.name, func.locals)] := by
  have noObject : (module.2.objects.map (Step.object module.1 module.2)).flatMap Step.frames = [] := by
    rw [List.flatMap_map]
    exact List.flatMap_eq_nil_iff.mpr fun _ _ => rfl
  have noStruct : (module.2.structs.map (Step.struct module.1 module.2)).flatMap Step.frames = [] := by
    rw [List.flatMap_map]
    exact List.flatMap_eq_nil_iff.mpr fun _ _ => rfl
  rw [Step.definitions, List.flatMap_append, List.flatMap_append, noObject, noStruct,
    List.flatMap_map]
  rfl

/-- The variables of one module among the frames of a manifest. -/
theorem frames_slots (isModule : manifest.modules[index]? = some spec) :
    (manifest.frames.filter fun source => source.1 = ⟨index⟩).flatMap (fun source =>
        source.2.2.map fun slot => (source.2.1, slot.name, slot.init.isSome)) =
      spec.functions.flatMap Func.slots := by
  rw [frames, List.flatMap_assoc, List.filter_flatMap,
    numbered_flatMap isModule fun module different => ?_]
  · have all := List.filter_eq_self.mpr fun source member =>
      decide_eq_true (Step.module_of_frames (⟨index⟩, spec) source member)
    rw [all, definitions_frames, List.flatMap_assoc]
    refine List.flatMap_congr fun func _ => ?_
    split
    · next noLocals =>
      rw [Func.slots, List.isEmpty_iff.mp noLocals]
      rfl
    · exact List.flatMap_singleton _ _
  · refine List.filter_eq_nil_iff.mpr fun source member => ?_
    simpa using (Step.module_of_frames module source member) ▸ different

end Manifest

/-- The report of a module leaves nothing out that the module declares: its structs and those of the
parameters of its functions are listed in order and bound, with the members as written and the two
bookkeeping members after them; the constants end with one for each declaration, under its name; and
each variable is listed, with what it starts from exactly if it is given an initializer. -/
structure Report.Module.Completes (spec : Manifest.Module) (report : Report.Module) : Prop where
  name : report.name = spec.name
  structs : report.structs.map (fun struct => (struct.name, struct.members.map Prod.fst)) =
    spec.outlines
  bound : ∀ struct ∈ report.structs, struct.bound = true
  constants : ∃ earlier added, report.constants = earlier ++ added ∧
    List.Forall₂ (fun (constant : Manifest.Constant) (symbol : Report.Symbol) =>
      constant.name ≠ "" → symbol.name = constant.name) spec.constants added
  locals : report.locals.map (fun slot => (slot.func, slot.name, slot.init.isSome)) =
    spec.functions.flatMap Manifest.Func.slots

namespace Run

/-- A count of no errors means that none was reported. -/
theorem errorFree_of_report {run : Run} (none : run.report.errors = 0) : run.ErrorFree := by
  change run.log.errors = 0 at none
  rw [Log.errors] at none
  rw [ErrorFree]
  omega

variable {manifest : Manifest} {file : String} {index : Nat} {spec : Manifest.Module}
variable (clean : (ofManifest manifest file).ErrorFree)
include clean

/-- A run without errors reports for each variable whether it is given an initializer. -/
theorem localReport_init {frame : Frame} (member : frame ∈ (ofManifest manifest file).blocks)
    {slot : Manifest.Variable} (isLocal : slot ∈ frame.locals) :
    ((ofManifest manifest file).localReport frame slot).init.isSome = slot.init.isSome := by
  have started := ofManifest_started clean member slot.name
  rw [ofManifest_blocks] at member
  have distinct := registered_locals (stages_clean clean).1 member
  show (Option.map _ (List.lookup slot.name _)).isSome = _
  rw [Option.isSome_map, Bool.eq_iff_iff, Block.lookup_isSome, started]
  constructor
  · rintro ⟨other, isOther, sameName, given⟩
    rw [← List.inj_on_of_nodup_map distinct isOther isLocal sameName]
    exact given
  · exact fun given => ⟨slot, isLocal, rfl, given⟩

variable (isModule : manifest.modules[index]? = some spec)
include isModule

theorem moduleReport_locals :
    ((ofManifest manifest file).moduleReport ⟨index⟩).locals.map
        (fun slot => (slot.func, slot.name, slot.init.isSome)) =
      spec.functions.flatMap Manifest.Func.slots := by
  have frames : (ofManifest manifest file).blocks.map Frame.source = manifest.frames := by
    rw [ofManifest_blocks, registered_frames]
  rw [← Manifest.frames_slots isModule, ← frames, List.filter_map, List.flatMap_map]
  show List.map _ (List.flatMap _ _) = _
  rw [List.map_flatMap]
  refine List.flatMap_congr fun frame member => ?_
  rw [List.map_map]
  refine List.map_congr_left fun slot isLocal => ?_
  show (_, _, ((ofManifest manifest file).localReport frame slot).init.isSome) = _
  rw [localReport_init clean (List.mem_filter.mp member).1 isLocal]
  rfl

theorem moduleReport_structs :
    ((ofManifest manifest file).moduleReport ⟨index⟩).structs.map
        (fun struct => (struct.name, struct.members.map Prod.fst)) = spec.outlines := by
  rw [← ofManifest_outlines clean isModule]
  show List.map _ (List.map _ (Session.listed _ _)) = _
  rw [List.map_map]
  refine List.map_congr_left fun id _ => ?_
  show (_, List.map Prod.fst (List.map _ _)) = _
  rw [List.map_map]
  rfl

theorem moduleReport_completes :
    Report.Module.Completes spec ((ofManifest manifest file).moduleReport ⟨index⟩) where
  name := (ofManifest_declared isModule).name
  structs := moduleReport_structs clean isModule
  bound := by
    intro struct member
    obtain ⟨id, isListed, rfl⟩ := List.mem_map.mp member
    exact ofManifest_isBound clean isModule isListed
  constants := by
    obtain ⟨earlier, added, isConstants, names⟩ := ofManifest_constants clean isModule
    refine ⟨earlier.map fun constant => ⟨constant.name, constant.ty.text, constant.initializer⟩,
      added.map fun constant => ⟨constant.name, constant.ty.text, constant.initializer⟩, ?_, ?_⟩
    · rw [← List.map_append, ← isConstants]
      exact congrArg _ ((ofManifest_rounded manifest file).consistent.modules ⟨index⟩).listedConstants
    · exact List.forall₂_map_right_iff.mpr names
  locals := moduleReport_locals clean isModule

end Run

/-- A report without errors has a module for each of the manifest, in order, and is complete for
it. -/
theorem Manifest.report_complete {manifest : Manifest} {file : String} {report : Report}
    (checked : manifest.check file = .ok report) (clean : report.errors = 0) :
    report.modules.length = manifest.modules.length ∧
      ∀ (index : Nat) (spec : Manifest.Module), manifest.modules[index]? = some spec → ∃ module,
        report.modules[index]? = some module ∧ Report.Module.Completes spec module := by
  obtain ⟨_, _, rfl⟩ := check_eq_ok_iff.mp checked
  have errorFree := Run.errorFree_of_report clean
  have isModules : (Run.ofManifest manifest file).report.modules =
      manifest.modules.zipIdx.map fun place =>
        (Run.ofManifest manifest file).moduleReport ⟨place.2⟩ := by
    show (Run.ofManifest manifest file).modules.map _ = _
    rw [Run.ofManifest_modules, numbered, List.map_map]
    rfl
  rw [isModules]
  refine ⟨by simp, fun index spec isModule => ⟨_, ?_, Run.moduleReport_completes errorFree isModule⟩⟩
  simp [isModule]

/-- A module that imports another and declares a struct of it, a function with variables, and
constants with and without a name. -/
def importingOrders : Manifest :=
  { modules := [
      { name := "base", structs := [{ name := "Item", members := [⟨"code", "sint32_t"⟩] }] },
      { name := "orders"
        imports := ["base"]
        structs := [{ name := "Order", members := [⟨"item", "base::Item"⟩, ⟨"count", "sint32_t"⟩] }]
        functions := [{
          name := "total"
          inbound := [⟨"order", "Order"⟩]
          outbound := [⟨"sum", "sint32_t"⟩]
          locals := [
            { name := "rate", type := "sint32_t", init := some (.chain (.int 2) [("+", .int 3)]) },
            { name := "rest", type := "sint32_t" }] }]
        constants := [{ name := "limit", value := .int 10 }, { value := .text "note" }] }] }

theorem report_complete_importingOrders :
    ∃ report module, importingOrders.check "o" = .ok report ∧ report.errors = 0 ∧
      report.modules.length = 2 ∧ report.modules[1]? = some module ∧
      module.structs.map (fun struct => (struct.name, struct.members.map Prod.fst)) =
        [("Order", ["item", "count", "reference_count", "previous_copy"]),
          ("__total_inbound", ["order", "reference_count", "previous_copy"]),
          ("__total_outbound", ["sum", "reference_count", "previous_copy"])] ∧
      (∀ struct ∈ module.structs, struct.bound = true) ∧
      module.locals.map (fun slot => (slot.func, slot.name, slot.init.isSome)) =
        [("total", "rate", true), ("total", "rest", false)] := by
  have passes : (importingOrders.check "o").toOption.any (fun report => report.errors = 0) = true := by
    decide +kernel
  obtain ⟨report, checked, isClean⟩ := exists_ok_of_any passes
  have clean : report.errors = 0 := of_decide_eq_true isClean
  obtain ⟨length, complete⟩ := Manifest.report_complete checked clean
  obtain ⟨module, isModule, completes⟩ := complete 1 _ rfl
  exact ⟨report, module, checked, clean, length, isModule, completes.structs, completes.bound,
    completes.locals⟩

end Assay
