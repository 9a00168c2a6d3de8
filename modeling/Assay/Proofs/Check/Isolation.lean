import Assay.Proofs.Check.Completeness
import Assay.Proofs.Check.Extending

/-!
Contract: a module that no other module imports changes no report but its own.
-/

namespace Assay

/-! ## Sessions without expressions -/

theorem Ty.expr_not_mem_handles (ty : Ty) (id : ExprId) : Handle.expr id ∉ ty.handles := by
  rw [Ty.handles]
  cases ty.kind <;> simp [Kind.handles]

theorem ScopeId.handle_ne_expr (scope : ScopeId) (id : ExprId) : scope.handle ≠ .expr id := by
  cases scope <;> exact Handle.noConfusion

/-- Bounds on anything but expressions do not depend on how many expressions there are. -/
theorem Bounds.Covers.without_exprs {session : Session} {exprs : Nat} {handles : List Handle}
    (covers : (session.bounds exprs).Covers handles) (free : ∀ id, Handle.expr id ∉ handles) :
    (session.bounds 0).Covers handles := by
  intro handle member
  have held := covers handle member
  cases handle with
  | expr id => exact absurd member (free id)
  | _ => exact held

namespace Session

variable {session : Session} {exprs : Nat}

def Bare (session : Session) : Prop :=
  ∀ block ∈ session.blocks, block.init = []

/-- Where there are no expressions, blocks have nothing to start from. -/
theorem Integral.bare (integral : session.Integral 0) : session.Bare := by
  intro block member
  obtain ⟨_, init, _⟩ := Block.covers_handles.mp (integral.covered.blocks block member)
  refine List.eq_nil_iff_forall_not_mem.mpr fun entry isEntry => ?_
  have held : entry.2.index < 0 := of_decide_eq_true (init entry isEntry)
  exact Nat.not_lt_zero _ held

theorem Bare.relocate (bare : session.Bare) (move : ExprId → ExprId) :
    session.relocate move = session := by
  have same : session.blocks.map (Block.relocate move) = session.blocks.map fun block => block := by
    refine Array.map_congr_left fun block member => ?_
    have empty := bare block member
    cases block
    cases empty
    rfl
  rw [Session.relocate, same, Array.map_id']

/-- Only blocks refer to expressions. -/
theorem Integral.without_exprs (integral : session.Integral exprs) (bare : session.Bare) :
    session.Integral 0 := by
  have covered := integral.covered
  refine { integral with
    covered := ⟨fun module member => ?_, fun struct member => ?_, fun func member => ?_,
      fun block member => ?_, fun object member => ?_⟩ }
  · refine (covered.modules module member).without_exprs fun id => ?_
    simp [Module.handles, Constant.handles, Global.handles, Ty.expr_not_mem_handles]
  · refine (covered.structs struct member).without_exprs fun id => ?_
    simp [Struct.handles, Ty.expr_not_mem_handles, ScopeId.handle_ne_expr]
  · refine (covered.funcs func member).without_exprs fun id => ?_
    simp [Func.handles, ScopeId.handle_ne_expr]
  · refine (covered.blocks block member).without_exprs fun id => ?_
    simp [Block.handles, bare block member, ScopeId.handle_ne_expr]
  · refine (covered.objects object member).without_exprs fun id => ?_
    simp [Object.handles]

end Session

/-- Nodes in front of others are rendered as before. -/
theorem Arena.Acyclic.render_in_front {base arena : Arena} {id : ExprId} (acyclic : base.Acyclic)
    (acyclicBehind : (base.behind arena).Acyclic) (allocated : base.Allocated id) :
    (base.behind arena).render id = base.render id := by
  refine acyclic.fold_kept acyclicBehind (fun {id node} found => ?_) _ _ allocated
  rw [Arena.node?_in_front (Arena.allocated_of_node? found)]
  exact found

namespace Run

variable {run outer : Run} {may : Handle → Prop} {base : Arena} {slot : Nat} {id : ModuleId}

def unevaluated (run : Run) : Run :=
  { run with arena := {} }

theorem Orderly.unevaluated (orderly : run.Orderly) (bare : run.session.Bare) :
    run.unevaluated.Orderly where
  acyclic := acyclic_empty
  typed := Arena.Nodewise.empty
  rounded := orderly.rounded
  registered := orderly.registered
  integral := orderly.integral.without_exprs bare
  furnished := orderly.furnished
  covered := Arena.Nodewise.empty
  modulesHeld := orderly.modulesHeld
  framesHeld := orderly.framesHeld
  untrapped := orderly.untrapped
  plain := orderly.plain

/-- A session without expressions is placed behind any expressions. -/
theorem placed_unevaluated (bare : run.session.Bare) (file : outer.file = run.file)
    (spares : run.session.Spares may outer.session) (blocks : run.blocks <+: outer.blocks) :
    Placed outer.arena may run.unevaluated outer := by
  refine ⟨file, ?_, (Arena.behind_empty _).symm, blocks⟩
  show (run.session.relocate outer.arena.past).Spares may outer.session
  rw [bare.relocate]
  exact spares

/-- Folding constants gives blocks nothing to start from. -/
theorem folded_bare (manifest : Manifest) (file : String) :
    (folded manifest file).session.Bare := by
  have orderly := (bound_taken manifest file).2.1
  have integral := orderly.integral
  rw [bound_arena] at integral
  have blocks := (afterAll_advances orderly.toReady (constantJobs manifest file)).blocks
  rw [← folded_eq] at blocks
  rw [Session.Bare, blocks]
  exact integral.bare

/-! ## Reports -/

/-- The second run has the definitions of the first one, except where `may` allows it. Expressions have
moved and are rendered as before. -/
structure Shows (move : ExprId → ExprId) (may : Handle → Prop) (first second : Run) : Prop where
  session : (first.session.relocate move).Spares may second.session
  render : ∀ id, first.arena.Allocated id →
    second.arena.render (move id) = first.arena.render id

namespace Shows

variable {move : ExprId → ExprId} {may : Handle → Prop} {first second : Run}

section Definitions

variable (shows : Shows move may first second) (blocks : OnlyBlocks may)
  (integral : first.session.Integral first.arena.size)

include shows blocks integral

theorem structReport {id : StructId} (held : id.index < first.session.structs.size)
    {owner : ModuleId} (isOwner : (first.session.structAt id).owner = some (.module owner)) :
    structReport second.session id = structReport first.session id := by
  have struct : second.session.structAt id = first.session.structAt id :=
    shows.session.structAt blocks held
  have heldOwner : owner.index < first.session.modules.size :=
    of_decide_eq_true ((Struct.covers_handles.mp (integral.covered.structAt id)).1 _ isOwner)
  have module : second.session.moduleAt owner = first.session.moduleAt owner :=
    shows.session.moduleAt blocks heldOwner
  have table : second.session.attrTable? id = first.session.attrTable? id := by
    simp [Session.attrTable?, Session.moduleOf?_module, struct, isOwner, module]
  rw [Run.structReport, Run.structReport, struct, table]

theorem localReport {entry : Frame} (held : entry.block.index < first.session.blocks.size)
    (spared : ¬ may (.block entry.block)) (spec : Manifest.Variable) :
    second.localReport entry spec = first.localReport entry spec := by
  have heldMoved : entry.block.index < (first.session.relocate move).blocks.size :=
    Nat.lt_of_lt_of_eq held Array.size_map.symm
  have isBlock : second.session.blockAt entry.block =
      (first.session.blockAt entry.block).relocate move := by
    rw [shows.session.blocks _ heldMoved spared, Session.blockAt_relocate]
  obtain ⟨vars, inits, _⟩ := Block.covers_handles.mp (integral.covered.blockAt held)
  have isVars : second.session.structAt (first.session.blockAt entry.block).vars =
      first.session.structAt (first.session.blockAt entry.block).vars :=
    shows.session.structAt blocks (of_decide_eq_true vars)
  have sameVars : ((first.session.blockAt entry.block).relocate move).vars =
      (first.session.blockAt entry.block).vars := rfl
  have rendered : (((first.session.blockAt entry.block).init.lookup spec.name).map move).map
      second.arena.render =
        ((first.session.blockAt entry.block).init.lookup spec.name).map first.arena.render := by
    rw [Option.map_map]
    refine Option.map_congr fun id isInit => shows.render id ?_
    exact of_decide_eq_true (inits _ (Table.mem_of_lookup isInit))
  rw [Run.localReport, Run.localReport, isBlock, Block.relocate_lookup, sameVars, isVars, rendered]

end Definitions

/-- A module that both runs have, with frames that both have, is reported alike. -/
theorem moduleReport (shows : Shows move may first second) (blocks : OnlyBlocks may)
    (orderly : first.Orderly) (spared : ∀ frame ∈ first.blocks, ¬ may (.block frame.block))
    {id : ModuleId} (held : id.index < first.session.modules.size)
    (frames : (second.blocks.filter fun entry => entry.module = id) =
      first.blocks.filter fun entry => entry.module = id) :
    second.moduleReport id = first.moduleReport id := by
  have integral := orderly.integral
  have module : second.session.moduleAt id = first.session.moduleAt id :=
    shows.session.moduleAt blocks held
  obtain ⟨_, heldStructs, _⟩ :=
    Module.covers_handles.mp (integral.covered.modules _ (getD_mem held))
  have structs : (((first.session.moduleAt id).structs.map Prod.snd).filter fun struct =>
      struct ∉ Prelude.structIds).map (Run.structReport second.session) =
        (((first.session.moduleAt id).structs.map Prod.snd).filter fun struct =>
          struct ∉ Prelude.structIds).map (Run.structReport first.session) := by
    refine List.map_congr_left fun struct member => ?_
    obtain ⟨entry, isEntry, rfl⟩ := List.mem_map.mp (List.mem_of_mem_filter member)
    obtain ⟨owner, isOwner⟩ := integral.owned _ (getD_mem held) entry isEntry
    exact shows.structReport blocks integral (of_decide_eq_true (heldStructs entry isEntry)) isOwner
  have locals : ((first.blocks.filter fun entry => entry.module = id).flatMap fun entry =>
      entry.locals.map (second.localReport entry)) =
        (first.blocks.filter fun entry => entry.module = id).flatMap fun entry =>
          entry.locals.map (first.localReport entry) := by
    refine List.flatMap_congr fun entry member => List.map_congr_left fun spec _ => ?_
    have isFrame := List.mem_of_mem_filter member
    exact shows.localReport blocks integral (orderly.framesHeld entry isFrame).2
      (spared entry isFrame) spec
  rw [Run.moduleReport, Run.moduleReport, module, structs, frames, locals]

end Shows

/-! ## The blocks of the smaller manifest -/

open Step (TakesAll)

def blocksOf (limits : Bounds) (held : Bool) (handle : Handle) : Prop :=
  (∃ id, handle = .block id) ∧ limits.holds handle = held

theorem onlyBlocks_blocksOf (limits : Bounds) (held : Bool) : OnlyBlocks (blocksOf limits held) :=
  fun _ allowed => allowed.1

theorem not_blocksOf {limits : Bounds} {held : Bool} {id : BlockId}
    (isHeld : limits.holds (.block id) = held) : ¬ blocksOf limits (!held) (.block id) := by
  rintro ⟨_, other⟩
  rw [isHeld] at other
  exact (Bool.eq_not_self held).mp other

/-- Folding blocks changes these blocks only. -/
theorem blockFoldings_taken {slots : List Nat} (orderly : run.Orderly)
    (allowed : ∀ slot ∈ slots, ∀ frame, run.blocks[slot]? = some frame → may (.block frame.block)) :
    TakesAll may (slots.map .block) run ∧ (Step.afterAll (slots.map .block) run).Orderly ∧
      (Step.afterAll (slots.map .block) run).blocks = run.blocks := by
  refine Step.takesAll_of_fits (fun later => later.blocks = run.blocks) orderly rfl
    (fun step member later _ same => ?_) fun step member later same takes => ?_
  · obtain ⟨slot, isSlot, rfl⟩ := List.mem_map.mp member
    intro frame isFrame
    exact allowed slot isSlot frame (same ▸ isFrame)
  · obtain ⟨slot, isSlot, rfl⟩ := List.mem_map.mp member
    rw [takes.same_blocks rfl, same]

variable {manifest : Manifest} {extra : Manifest.Module} {file : String}

def evaluated (manifest : Manifest) (file : String) : Run :=
  Step.afterAll manifest.blockFoldings (folded manifest file).unevaluated

theorem evaluated_taken (manifest : Manifest) (file : String) :
    (evaluated manifest file).Orderly ∧
      (evaluated manifest file).blocks = (folded manifest file).blocks ∧
      manifest.modules.length ≤ (evaluated manifest file).session.modules.size := by
  obtain ⟨_, orderly, large⟩ := folded_taken manifest file
  have isOrderly := orderly.unevaluated (folded_bare manifest file)
  obtain ⟨taken, stillOrderly, stillLarge⟩ :=
    within_taken isOrderly large manifest.within_blockFoldings
  refine ⟨stillOrderly, ?_, stillLarge⟩
  exact taken.same_blocks (List.forall_mem_map.mpr fun _ _ => rfl)

theorem evaluated_placed
    (placed : Placed base (fun _ => False) (folded manifest file).unevaluated outer) :
    Placed base (fun _ => False) (evaluated manifest file)
      (Step.afterAll manifest.blockFoldings outer) := by
  have orderly := (folded_taken manifest file).2.1.unevaluated (folded_bare manifest file)
  refine Step.blocks_placed (fun slot member => ?_) onlyBlocks_none placed orderly rfl
  have bound : slot < (folded manifest file).unevaluated.blocks.length :=
    Nat.lt_of_lt_of_eq (List.mem_range.mp member) (length_folded_blocks manifest file).symm
  exact ⟨_, List.getElem?_eq_getElem bound, not_false⟩

theorem Placed.shows {base : Arena} {may : Handle → Prop} {inner outer : Run}
    (placed : Placed base may inner outer) (orderly : inner.Orderly) :
    Shows base.past may inner outer := by
  refine ⟨placed.session, fun id _ => ?_⟩
  rw [placed.arena]
  exact orderly.acyclic.render_behind base id

/-- The run over a manifest shows the blocks behind the expressions of its constants. -/
theorem ofManifest_shows (manifest : Manifest) (file : String) :
    Shows (folded manifest file).arena.past (fun _ => False) (evaluated manifest file)
      (ofManifest manifest file) := by
  have placed : Placed (folded manifest file).arena (fun _ => False)
      (folded manifest file).unevaluated (folded manifest file) :=
    placed_unevaluated (folded_bare manifest file) rfl (.refl _) List.prefix_rfl
  rw [ofManifest_eq]
  exact (evaluated_placed placed).shows (evaluated_taken manifest file).1

/-! ## The blocks of the larger manifest -/

def nearlyDone (manifest : Manifest) (extra : Manifest.Module) (file : String) : Run :=
  Step.afterAll manifest.blockFoldings (folded (manifest.adding extra) file)

def addedSlots (manifest : Manifest) (extra : Manifest.Module) : List Nat :=
  List.range' manifest.frames.length
    ((Step.definitions (manifest.added extra)).flatMap Step.frames).length

theorem ofManifest_adding (manifest : Manifest) (extra : Manifest.Module) (file : String) :
    ofManifest (manifest.adding extra) file =
      Step.afterAll ((addedSlots manifest extra).map .block) (nearlyDone manifest extra file) := by
  rw [ofManifest_eq, Manifest.blockFoldings_adding, Step.afterAll_append, nearlyDone, addedSlots]

section

variable (admits : manifest.Admits extra)
include admits

/-- The first blocks of the larger manifest are within the limits of the smaller one. -/
theorem first_within (first : slot ∈ List.range manifest.frames.length) {frame : Frame}
    (isFrame : (folded (manifest.adding extra) file).blocks[slot]? = some frame) :
    (limits manifest file).holds (.block frame.block) = true := by
  obtain ⟨_, _, others, isBlocks, _⟩ := folded_includes admits file
  have bound : slot < (folded manifest file).blocks.length :=
    Nat.lt_of_lt_of_eq (List.mem_range.mp first) (length_folded_blocks manifest file).symm
  rw [isBlocks, List.getElem?_append_left bound, folded_blocks] at isFrame
  obtain ⟨_, orderly, _⟩ := registered_taken manifest file
  exact decide_eq_true (orderly.framesHeld frame (List.mem_of_getElem? isFrame)).2

/-- The other blocks are those of the added module, beyond the limits. -/
theorem others_beyond (file : String) (other : slot ∈ addedSlots manifest extra) :
    ∃ frame, (folded (manifest.adding extra) file).blocks[slot]? = some frame ∧
      (limits manifest file).holds (.block frame.block) = false := by
  obtain ⟨_, _, others, isBlocks, areOthers⟩ := folded_includes admits file
  obtain ⟨least, bound⟩ := List.mem_range'_1.mp other
  have length := length_folded_blocks manifest file
  have lengthAdding := length_folded_blocks (manifest.adding extra) file
  rw [Manifest.frames_adding, List.length_append] at lengthAdding
  have isFrame := List.getElem?_eq_getElem (Nat.lt_of_lt_of_eq bound lengthAdding.symm)
  refine ⟨_, isFrame, (areOthers _ ?_).2⟩
  have isOther := isFrame
  conv at isOther => lhs; rw [isBlocks, List.getElem?_append_right (by omega)]
  exact List.mem_of_getElem? isOther

theorem nearlyDone_taken (file : String) :
    TakesAll (blocksOf (limits manifest file) true) manifest.blockFoldings
        (folded (manifest.adding extra) file) ∧ (nearlyDone manifest extra file).Orderly ∧
      (nearlyDone manifest extra file).blocks = (folded (manifest.adding extra) file).blocks :=
  blockFoldings_taken (folded_taken (manifest.adding extra) file).2.1
    fun _ first _ isFrame => ⟨⟨_, rfl⟩, first_within admits first isFrame⟩

theorem nearlyDone_placed (file : String) :
    Placed (folded (manifest.adding extra) file).arena (fun _ => False) (evaluated manifest file)
      (nearlyDone manifest extra file) := by
  obtain ⟨sameFile, session, others, isBlocks, _⟩ := folded_includes admits file
  exact evaluated_placed
    (placed_unevaluated (folded_bare manifest file) sameFile session ⟨others, isBlocks.symm⟩)

/-- The blocks of the added module are folded behind all expressions that were there. -/
theorem ofManifest_behind (file : String) :
    ∃ arena, (ofManifest (manifest.adding extra) file).arena =
      (nearlyDone manifest extra file).arena.behind arena := by
  obtain ⟨taken, _, sameBlocks⟩ := nearlyDone_taken admits file
  have bare := folded_bare (manifest.adding extra) file
  have orderly := (folded_taken (manifest.adding extra) file).2.1
  have placed := placed_unevaluated bare taken.file taken.evolves.spares
    (sameBlocks ▸ List.prefix_rfl)
  have known : ∀ slot ∈ addedSlots manifest extra,
      ∃ frame, (folded (manifest.adding extra) file).blocks[slot]? = some frame ∧
        ¬ blocksOf (limits manifest file) true (.block frame.block) := by
    intro slot other
    obtain ⟨frame, isFrame, beyond⟩ := others_beyond admits file other
    exact ⟨frame, isFrame, not_blocksOf beyond⟩
  rw [ofManifest_adding]
  exact ⟨_, (Step.blocks_placed known (onlyBlocks_blocksOf _ _) placed (orderly.unevaluated bare)
    rfl).arena⟩

/-- The run over the larger manifest shows the blocks of the smaller one. -/
theorem ofManifest_adding_shows (file : String) :
    Shows (folded (manifest.adding extra) file).arena.past (blocksOf (limits manifest file) false)
      (evaluated manifest file) (ofManifest (manifest.adding extra) file) := by
  obtain ⟨_, orderly, sameBlocks⟩ := nearlyDone_taken admits file
  have placed := nearlyDone_placed admits file
  have shows := placed.shows (evaluated_taken manifest file).1
  obtain ⟨takenLast, last, _⟩ : TakesAll (blocksOf (limits manifest file) false)
      ((addedSlots manifest extra).map .block) (nearlyDone manifest extra file) ∧ _ := by
    refine blockFoldings_taken orderly fun slot other frame isFrame => ⟨⟨_, rfl⟩, ?_⟩
    obtain ⟨known, isKnown, beyond⟩ := others_beyond admits file other
    rw [sameBlocks] at isFrame
    cases isFrame.symm.trans isKnown
    exact beyond
  obtain ⟨arena, isArena⟩ := ofManifest_behind admits file
  refine ⟨?_, fun id allocated => ?_⟩
  · rw [ofManifest_adding]
    exact (Session.Spares.of_extends shows.session).trans takenLast.evolves.spares
  · rw [← ofManifest_adding] at last
    have acyclic := last.acyclic
    rw [isArena] at acyclic ⊢
    refine (orderly.acyclic.render_in_front acyclic ?_).trans (shows.render id allocated)
    show _ < (nearlyDone manifest extra file).arena.size
    rw [placed.arena, Arena.size_behind]
    exact Nat.add_lt_add_left allocated _

end

/-! ## The reports of the larger manifest -/

theorem moduleReport_evaluated (held : id.index < manifest.modules.length) :
    (ofManifest manifest file).moduleReport id = (evaluated manifest file).moduleReport id := by
  obtain ⟨orderly, blocks, large⟩ := evaluated_taken manifest file
  refine (ofManifest_shows manifest file).moduleReport onlyBlocks_none orderly
    (fun _ _ => not_false) (Nat.lt_of_lt_of_le held large) ?_
  rw [ofManifest_blocks, blocks, folded_blocks]

/-- The frames of the added module are not those of another one. -/
theorem moduleReport_adding (admits : manifest.Admits extra)
    (held : id.index < manifest.modules.length) :
    (ofManifest (manifest.adding extra) file).moduleReport id =
      (evaluated manifest file).moduleReport id := by
  obtain ⟨orderly, blocks, large⟩ := evaluated_taken manifest file
  obtain ⟨_, _, others, isBlocks, areOthers⟩ := folded_includes admits file
  refine (ofManifest_adding_shows admits file).moduleReport (onlyBlocks_blocksOf _ _) orderly
    (fun frame member => ?_) (Nat.lt_of_lt_of_le held large) ?_
  · rw [blocks, folded_blocks] at member
    obtain ⟨_, registeredOrderly, _⟩ := registered_taken manifest file
    exact not_blocksOf (decide_eq_true (registeredOrderly.framesHeld frame member).2)
  · have noOther : (others.filter fun entry => entry.module = id) = [] := by
      refine List.filter_eq_nil_iff.mpr fun entry member isModule => ?_
      have same := (areOthers entry member).1.symm.trans (of_decide_eq_true isModule)
      exact Nat.lt_irrefl _ (Nat.lt_of_lt_of_eq held (congrArg ModuleId.index same))
    rw [ofManifest_blocks, ← folded_blocks, isBlocks, List.filter_append, noOther, List.append_nil, blocks]

end Run

/-- A module is added to the end of a manifest that has a report. If no module imports it, the larger
manifest has a report too, in which the reports of all other modules are the same. -/
theorem Manifest.adding_keeps_reports {manifest : Manifest} {extra : Manifest.Module} {file : String}
    {report : Report} (unimported : ∀ spec ∈ manifest.modules, extra.name ∉ spec.imports)
    (checked : manifest.check file = .ok report) :
    ∃ larger added, (manifest.adding extra).check file = .ok larger ∧
      larger.modules = report.modules ++ [added] := by
  obtain ⟨valid, _, rfl⟩ := check_eq_ok_iff.mp checked
  have untrapped : (Run.ofManifest (manifest.adding extra) file).trapped = false := by
    rw [Run.ofManifest_eq]
    exact ((Run.blocks_taken (manifest.adding extra) file).orderly
      (Run.folded_taken (manifest.adding extra) file).2.1).untrapped
  have same : ∀ entry ∈ manifest.numbered,
      (Run.ofManifest (manifest.adding extra) file).moduleReport entry.1 =
        (Run.ofManifest manifest file).moduleReport entry.1 := by
    intro entry member
    have held := index_of_numbered member
    have nonempty : manifest.modules ≠ [] := List.ne_nil_of_length_pos (Nat.zero_lt_of_lt held)
    exact (Run.moduleReport_adding ⟨valid, nonempty, unimported⟩ held).trans
      (Run.moduleReport_evaluated held).symm
  refine ⟨_, (Run.ofManifest (manifest.adding extra) file).moduleReport (manifest.added extra).1,
    check_eq_ok_iff.mpr ⟨valid, untrapped, rfl⟩, ?_⟩
  show (Run.ofManifest (manifest.adding extra) file).modules.map _ =
    (Run.ofManifest manifest file).modules.map _ ++ _
  rw [Run.ofManifest_modules, Run.ofManifest_modules, numbered_adding, List.map_append,
    List.map_congr_left same]
  rfl

def secondOrders : Manifest.Module :=
  { name := "orders"
    imports := ["base"]
    structs := [{ name := "Order", members := [⟨"item", "base::Item"⟩, ⟨"weight", "sint64_t"⟩] }]
    functions := [{
      name := "total"
      inbound := [⟨"order", "Order"⟩]
      locals := [
        { name := "rate", type := "sint32_t", init := some (.chain (.int 7) [("*", .int 6)]) }] }]
    constants := [{ name := "limit", value := .int 20 }, { value := .text "other" }] }

theorem adding_keeps_reports_secondOrders :
    (∀ spec ∈ importingOrders.modules, secondOrders.name ∉ spec.imports) ∧
      ∃ report larger added, importingOrders.check "o" = .ok report ∧
        (importingOrders.adding secondOrders).check "o" = .ok larger ∧
        larger.modules = report.modules ++ [added] := by
  have unimported : ∀ spec ∈ importingOrders.modules, secondOrders.name ∉ spec.imports := by decide
  have passes : (importingOrders.check "o").toOption.isSome = true := by decide +kernel
  obtain ⟨report, checked⟩ := exists_ok_of_isSome passes
  obtain ⟨larger, added, passesToo, same⟩ := Manifest.adding_keeps_reports unimported checked
  exact ⟨unimported, report, larger, added, checked, passesToo, same⟩

end Assay
