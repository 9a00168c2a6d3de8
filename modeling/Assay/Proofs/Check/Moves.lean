import Assay.Proofs.Check.Passes
import Assay.Proofs.Expr.Coverage
import Assay.Proofs.Scope.BindingSteps

/-!
Contract: what the passes before the first expression do to a run, step by step.
-/

namespace Assay

open Assay.Computation

namespace Session

variable {may larger : Handle → Prop} {exprs large : Nat} {session before after : Session}

/-! ## Wider limits -/

/-- More expressions and more leave admit every change that was admitted before. -/
theorem Event.mono (le : exprs ≤ large) (wider : ∀ handle, may handle → larger handle)
    (event : Event may exprs before after) : Event larger large before after := by
  have bounds := before.bounds_le le
  cases event with
  | declareModule name loc => exact .declareModule name loc
  | allocStruct name loc packed => exact .allocStruct name loc packed
  | allocFunc name loc => exact .allocFunc name loc
  | allocBlock name loc => exact .allocBlock name loc
  | allocObject name loc => exact .allocObject name loc
  | editModule id module held allowed edited =>
    exact .editModule id module held (wider _ allowed) (edited.mono bounds)
  | editStruct id struct held allowed edited =>
    exact .editStruct id struct held (wider _ allowed) (edited.mono bounds)
  | takeStruct module id heldModule held allowed allowedStruct free =>
    exact .takeStruct module id heldModule held (wider _ allowed)
      (fun unowned => wider _ (allowedStruct unowned)) free
  | takeObject module id heldModule held allowed allowedObject =>
    exact .takeObject module id heldModule held (wider _ allowed) (wider _ allowedObject)
  | takeFunc module id heldModule held allowed allowedFunc =>
    exact .takeFunc module id heldModule held (wider _ allowed) (wider _ allowedFunc)
  | attach func role block heldFunc held allowed allowedBlock detached vars =>
    exact .attach func role block heldFunc held (wider _ allowed) (wider _ allowedBlock) detached
      vars
  | setInit block name expr held allowed heldExpr =>
    exact .setInit block name expr held (wider _ allowed) (Nat.lt_of_lt_of_le heldExpr le)

theorem Evolves.mono (le : exprs ≤ large) (wider : ∀ handle, may handle → larger handle)
    (evolves : Evolves may exprs before after) : Evolves larger large before after := by
  induction evolves with
  | refl => exact .refl
  | tail _ event ih => exact ih.tail (event.mono le wider)

theorem Integral.mono (integral : session.Integral exprs) (le : exprs ≤ large) :
    session.Integral large :=
  { integral with covered := integral.covered.mono (session.bounds_le le) }

theorem Furnished.persists (furnished : before.Furnished) (persists : before.Persists after) :
    after.Furnished where
  held := Nat.le_trans furnished.held (persists.bounds 0).structs
  free := fun id member =>
    (persists.structs id (Nat.lt_of_lt_of_le (Prelude.index_lt member) furnished.held)).free
      (furnished.free id member)

/-! ## Allocation -/

variable {base : Session}

variable (name : String) (loc : Location)
include name loc

theorem allocObject_evolves : Keeps (Evolves may exprs base) (allocObject name loc) :=
  fun _ evolves => evolves.tail (.allocObject name loc)

theorem allocStruct_evolves (packed : Bool) :
    Keeps (Evolves may exprs base) (allocStruct name loc packed) :=
  fun _ evolves => evolves.tail (.allocStruct name loc packed)

theorem allocStruct_fresh (packed : Bool) (session : Session) :
    let after := ((allocStruct name loc packed).run session).2
    session.structs.size < after.structs.size ∧ after.structAt ⟨session.structs.size⟩ =
      { name := name, loc := loc, packed := packed } := by
  refine ⟨Nat.lt_of_lt_of_eq (Nat.lt_succ_self _) (Array.size_push _).symm, ?_⟩
  show ((session.structs.push _)[session.structs.size]?).getD default = _
  rw [Array.getElem?_push_size]
  rfl

theorem allocFunc_evolves : Keeps (Evolves may exprs base) (allocFunc name loc) := by
  intro session evolves
  rw [allocFunc_run]
  exact evolves.tail (.allocFunc name loc)

theorem allocBlock_evolves :
    Keeps (Evolves may exprs base) (allocBlock (some name) loc) := by
  intro session evolves
  rw [allocBlock_run]
  exact evolves.tail (.allocBlock name loc)

end Session

/-! ## Moves -/

abbrev Run.State :=
  Session × Arena

abbrev Run.state (run : Run) : Run.State :=
  (run.session, run.arena)

/-- One change of a state: of a definition that `may` allows, or of a node, whose types are then those
of definitions that are there. -/
inductive Run.Change (may : Handle → Prop) : Run.State → Run.State → Prop
  | session {before after : Session} {arena : Arena}
      (event : Session.Event may arena.size before after) : Change may (before, arena) (after, arena)
  | arena {session : Session} {before after : Arena}
      (revision : Arena.Revision (fun node => node.CoveredBy (session.bounds before.size))
        before after) : Change may (session, before) (session, after)

def Run.Changes (may : Handle → Prop) : Run.State → Run.State → Prop :=
  Relation.ReflTransGen (Run.Change may)

namespace Run.Changes

variable {may larger : Handle → Prop} {before after : Run.State}

theorem mono (wider : ∀ handle, may handle → larger handle) (changes : Run.Changes may before after) :
    Run.Changes larger before after := by
  induction changes with
  | refl => exact .refl
  | tail _ change ih =>
    cases change with
    | session event => exact ih.tail (.session (event.mono (Nat.le_refl _) wider))
    | arena revision => exact ih.tail (.arena revision)

/-- No node is lost, and the session has evolved as long as the nodes that are there at last count. -/
theorem evolves (changes : Run.Changes may before after) :
    before.2.size ≤ after.2.size ∧ Session.Evolves may after.2.size before.1 after.1 := by
  induction changes with
  | refl => exact ⟨Nat.le_refl _, .refl⟩
  | tail _ change ih =>
    cases change with
    | session event => exact ⟨ih.1, ih.2.tail event⟩
    | arena revision =>
      exact ⟨Nat.le_trans ih.1 revision.size_le, ih.2.mono revision.size_le fun _ => id⟩

theorem of_session {first last : Session} {arena : Arena}
    (evolves : Session.Evolves may arena.size first last) :
    Run.Changes may (first, arena) (last, arena) := by
  induction evolves with
  | refl => exact .refl
  | tail _ event ih => exact ih.tail (.session event)

theorem of_arena {session : Session} {first last : Arena}
    (revises : Arena.Revises (fun node => node.CoveredBy (session.bounds first.size)) first last) :
    Run.Changes may (session, first) (session, last) := by
  induction revises with
  | refl => exact .refl
  | tail earlier revision ih =>
    have size := session.bounds_le (Arena.Revises.size_le earlier)
    exact ih.tail (.arena (revision.mono fun _ covered => covered.mono size))

end Run.Changes

/-- The second run is a later state of the first, with the same lists of modules and blocks. Of the
definitions that were there only those that `may` allows have changed, and what has been reported
since are notes and errors in what was declared. -/
structure Run.Moves (may : Handle → Prop) (before after : Run) : Prop where
  file : after.file = before.file
  trapped : after.trapped = before.trapped
  modules : after.modules = before.modules
  blocks : after.blocks = before.blocks
  changes : Run.Changes may before.state after.state
  entries : ∃ added, after.log = before.log.recordAll added ∧ ∀ entry ∈ added, entry.Plain

namespace Run.Moves

variable {may larger : Handle → Prop} {before middle after : Run}

theorem exprs (moves : before.Moves may after) : before.arena.size ≤ after.arena.size :=
  moves.changes.evolves.1

theorem session (moves : before.Moves may after) :
    Session.Evolves may after.arena.size before.session after.session :=
  moves.changes.evolves.2

theorem refl (run : Run) : run.Moves may run :=
  ⟨rfl, rfl, rfl, rfl, .refl, [], rfl, List.forall_mem_nil _⟩

theorem trans (first : before.Moves may middle) (second : middle.Moves may after) :
    before.Moves may after where
  file := second.file.trans first.file
  trapped := second.trapped.trans first.trapped
  modules := second.modules.trans first.modules
  blocks := second.blocks.trans first.blocks
  changes := Relation.ReflTransGen.trans first.changes second.changes
  entries := by
    obtain ⟨earlier, sameEarlier, plainEarlier⟩ := first.entries
    obtain ⟨later, sameLater, plainLater⟩ := second.entries
    refine ⟨earlier ++ later, ?_, List.forall_mem_append.mpr ⟨plainEarlier, plainLater⟩⟩
    rw [sameLater, sameEarlier, Log.recordAll_append]

theorem mono (wider : ∀ handle, may handle → larger handle) (moves : before.Moves may after) :
    before.Moves larger after :=
  { moves with changes := moves.changes.mono wider }

theorem of_session {run : Run} {session : Session}
    (evolves : Session.Evolves may run.arena.size run.session session) :
    run.Moves may { run with session := session } :=
  ⟨rfl, rfl, rfl, rfl, .of_session evolves, [], rfl, List.forall_mem_nil _⟩

theorem of_entries (run : Run) {entries : List Entry} (plain : ∀ entry ∈ entries, entry.Plain) :
    run.Moves may (run.reporting entries) :=
  ⟨rfl, rfl, rfl, rfl, .refl, entries, rfl, plain⟩

theorem bounds (moves : before.Moves may after) : before.bounds.Le after.bounds :=
  (before.session.bounds_le moves.exprs).trans (moves.session.persists.bounds _)

theorem integral (moves : before.Moves may after)
    (integral : before.session.Integral before.arena.size) :
    after.session.Integral after.arena.size :=
  moves.session.integral (integral.mono moves.exprs)

end Run.Moves

structure Run.Registers (may : Handle → Prop) (before after : Run) : Prop
    extends before.Moves may after where
  arena : after.arena = before.arena

theorem Run.Registers.refl {may : Handle → Prop} (run : Run) : run.Registers may run :=
  ⟨.refl run, rfl⟩

def Session.Open (may : Handle → Prop) (session : Session) : Prop :=
  ∀ handle, (session.bounds 0).holds handle = false → may handle

theorem Session.Open.persists {may : Handle → Prop} {before after : Session}
    (isOpen : before.Open may) (persists : before.Persists after) : after.Open may := by
  intro handle absent
  apply isOpen
  rw [Bool.eq_false_iff] at absent ⊢
  exact fun held => absent ((persists.bounds 0).holds held)

namespace Pass

open Session (Evolves)

variable {α : Type} {may : Handle → Prop} {base run : Run} {module : ModuleId}

theorem report_moves {entries : List Entry} (plain : ∀ entry ∈ entries, entry.Plain) :
    Keeps (base.Registers may) (report entries) :=
  fun run moves => ⟨moves.trans (.of_entries run plain), moves.arena⟩

theorem onSession_moves {action : StateM Session α}
    (evolves : ∀ exprs, Keeps (Evolves may exprs base.session) action) :
    Keeps (base.Registers may) (onSession action) := by
  intro run moves
  have changed := evolves _ _ moves.session
  rw [moves.arena] at changed
  refine ⟨{ moves with changes := ?_ }, moves.arena⟩
  show Run.Changes may base.state (_, run.arena)
  rw [moves.arena]
  exact .of_session changed

theorem register_moves {refusal : Fault → Entry} (plain : ∀ fault, (refusal fault).Plain)
    {edit : Edit α} (evolves : ∀ exprs, Stopping.Keeps (Evolves may exprs base.session) edit) :
    Keeps (base.Registers may) (register refusal edit) := by
  refine (onSession_moves evolves).bind fun outcome => ?_
  cases outcome with
  | ok value => exact .pure _
  | error fault => exact report_moves (List.forall_mem_singleton.mpr (plain fault))

theorem register_moves_at {refusal : Fault → Entry} (plain : ∀ fault, (refusal fault).Plain)
    {edit : Edit α}
    (evolves : Evolves may run.arena.size run.session (edit.run.run run.session).2) :
    run.Moves may ((register refusal edit).run run).2 := by
  obtain ⟨entries, isNext, refused⟩ := register_run refusal edit run
  rw [isNext]
  refine (Run.Moves.of_session evolves).trans (.of_entries _ fun entry member => ?_)
  obtain ⟨fault, rfl, _⟩ := refused entry member
  exact plain fault

theorem plain_error (loc : Location) (fault : Fault) : (Entry.error loc fault).Plain :=
  .inr (Entry.isError_error loc fault)

/-! ## Modules -/

end Pass

namespace Session

variable {may : Handle → Prop} {session before after : Session}

structure Supplied (session : Session) : Prop extends session.Furnished where
  sealable : ∀ id ∈ Prelude.structIds, (session.structAt id).Sealable
  names : Prelude.structIds.map (fun id => (session.structAt id).name) =
    ["string_t", "type_t", "type_node_t"]

def Stocked (session : Session) : Prop :=
  ∀ id ∈ Prelude.structIds,
    (session.structAt id).owner.isSome = true ∧ (session.structAt id).isSealed = true

theorem supplied_ofTarget (target : Target) : (ofTarget target).Supplied where
  held := Nat.le_refl 3
  free := by
    intro id member scope owner
    simp only [Prelude.structIds, List.mem_cons, List.not_mem_nil, or_false] at member
    rcases member with rfl | rfl | rfl <;> cases owner
  sealable := by
    intro id member
    simp only [Prelude.structIds, List.mem_cons, List.not_mem_nil, or_false] at member
    rcases member with rfl | rfl | rfl <;> exact .inr ⟨rfl, rfl⟩
  names := rfl

/-- A module that has just been allocated takes the runtime structs. -/
theorem Supplied.installs (supplied : session.Supplied) (name : String) (loc : Location) :
    let allocated := ((allocModule name loc).run session).2
    let module : ModuleId := ⟨session.modules.size⟩
    let after := session.declare name loc
    (Edit.installPrelude module).run.run allocated = (.ok ⟨⟩, after) ∧
      Edit.TakesAll module Prelude.structIds allocated after ∧
      ∀ kind ∈ Prelude.describedKinds, ∃ global ∈ (after.moduleAt module).globals,
        global.Describes (kind.spelling ++ "_type") kind.typeNumber := by
  intro allocated module after
  have isNew : allocated.moduleAt module = { own := module, name := name, loc := loc } := by
    rw [moduleAt_allocModule, if_pos rfl]
  have introducible : Edit.Introducible module Prelude.structIds allocated := by
    refine ⟨?_, fun id member => ?_, supplied.sealable, fun id _ => ?_, ?_, ?_⟩
    · exact Nat.lt_of_lt_of_eq (Nat.lt_succ_self _) (Array.size_push _).symm
    · exact Nat.lt_of_lt_of_le (Prelude.index_lt member) supplied.held
    · rw [isNew]
      rfl
    · rw [isNew]
      exact ⟨by simp, by simp⟩
    · rw [show Prelude.structIds.map (fun id => (allocated.structAt id).name) = _ from supplied.names]
      decide
  obtain ⟨last, done, takes, kinds⟩ := Edit.installPrelude_succeeds introducible (by
    rw [isNew]
    exact supplied.names)
  have isLast : after = last := congrArg Prod.snd done
  rw [isLast]
  exact ⟨done, takes, kinds⟩

/-- The session in which a module has been allocated and has taken the runtime structs. -/
theorem Supplied.declare (supplied : session.Supplied) (isOpen : session.Open may)
    (touch : ∀ id ∈ Prelude.structIds, may (.struct id) ∨
      (session.structAt id).owner.isSome = true ∧ (session.structAt id).isSealed = true)
    (name : String) (loc : Location) :
    let after := session.declare name loc
    (∀ exprs, Evolves may exprs session after) ∧ after.Supplied ∧ after.Stocked ∧
      after.modules.size = session.modules.size + 1 := by
  intro after
  let allocated := ((allocModule name loc).run session).2
  obtain ⟨_, takes, _⟩ := supplied.installs name loc
  have held : session.modules.size < allocated.modules.size :=
    Nat.lt_of_lt_of_eq (Nat.lt_succ_self _) (Array.size_push _).symm
  have allowed : may (.module ⟨session.modules.size⟩) :=
    isOpen _ (decide_eq_false (Nat.lt_irrefl _))
  have furnished : allocated.Furnished := ⟨supplied.held, supplied.free⟩
  have evolves : ∀ exprs, Evolves may exprs session after := by
    intro exprs
    have installed : Evolves may exprs allocated after :=
      Edit.installPrelude_evolves held allowed furnished touch allocated .refl
    exact Relation.ReflTransGen.head (.declareModule name loc) installed
  have persists := (evolves 0).persists
  refine ⟨evolves, ⟨supplied.toFurnished.persists persists, fun id member => ?_, ?_⟩,
    fun id member => ?_, ?_⟩
  · exact .inl (takes.sealed id member).1
  · have sameNames : Prelude.structIds.map (fun id => (after.structAt id).name) =
        Prelude.structIds.map fun id => (session.structAt id).name :=
      List.map_congr_left fun id member =>
        (persists.structs id (Nat.lt_of_lt_of_le (Prelude.index_lt member) supplied.held)).name
    exact sameNames.trans supplied.names
  · exact (takes.sealed id member).symm
  · rw [takes.modules_size]
    exact Array.size_push _

end Session

namespace Pass

open Session (Evolves)

variable {α : Type} {may : Handle → Prop} {base run : Run} {module : ModuleId}

/-- A module is declared without fail, whether its name is taken or not. -/
theorem declareModule_moves (supplied : run.session.Supplied) (isOpen : run.session.Open may)
    (touch : ∀ id ∈ Prelude.structIds, may (.struct id) ∨
      (run.session.structAt id).owner.isSome = true ∧
        (run.session.structAt id).isSealed = true)
    (spec : Manifest.Module) :
    let after := ((declareModule spec).run run).2
    ({ run with modules := run.modules ++ [(⟨run.session.modules.size⟩, spec)] } : Run).Moves may
        after ∧ after.session.Supplied ∧ after.session.Stocked ∧
      after.session.modules.size = run.session.modules.size + 1 := by
  obtain ⟨evolves, after⟩ := supplied.declare isOpen touch spec.name (.item run.file spec.name)
  obtain ⟨entries, isNext, reported⟩ := declareModule_run spec run
  have plain : ∀ entry ∈ entries, entry.Plain := by
    intro entry member
    rcases reported entry member with rfl | ⟨fault, failed⟩
    · exact plain_error _ _
    · rw [(supplied.installs spec.name (.item run.file spec.name)).1] at failed
      cases failed
  dsimp only
  rw [isNext]
  exact ⟨⟨rfl, rfl, rfl, rfl, .of_session (evolves _), entries, rfl, plain⟩, after⟩

/-! ## Imports -/

variable (held : module.index < run.session.modules.size) (allowed : may (.module module))
include held allowed

theorem wireImport_moves (prelude : 3 ≤ run.session.structs.size)
    (known : ∀ entry ∈ run.modules, entry.1.index < run.session.modules.size)
    (spec : Manifest.Module) (name : String) :
    run.Moves may ((wireImport module spec name).run run).2 := by
  rw [wireImport, run_bind, run_get_bind]
  split
  · next imported isDeclared =>
    refine (register_moves (plain_error _) (fun exprs => ?_) run (.refl run)).toMoves
    obtain ⟨entry, isEntry, rfl⟩ := Option.map_eq_some_iff.mp isDeclared
    exact (Edit.editsModule_evolves held allowed prelude).addImport
      (decide_eq_true (known entry (List.mem_of_find?_eq_some isEntry)))
  · exact .of_entries run (List.forall_mem_singleton.mpr (plain_error _ _))

/-! ## Registration -/

theorem registerObject_moves (isOpen : run.session.Open may) (spec : Manifest.Module)
    (name : String) : run.Moves may ((registerObject module spec name).run run).2 := by
  let loc := Location.item run.file (spec.name ++ "/objects/" ++ name)
  let first := ((onSession (Session.allocObject name loc)).run run).2
  have allocated : run.Moves may first :=
    .of_session (Session.allocObject_evolves name loc run.session .refl)
  have heldFirst : module.index < first.session.modules.size := held
  have heldObject : run.session.objects.size < first.session.objects.size :=
    Nat.lt_of_lt_of_eq (Nat.lt_succ_self _) (Array.size_push _).symm
  have allowedObject : may (.object ⟨run.session.objects.size⟩) :=
    isOpen _ (decide_eq_false (Nat.lt_irrefl _))
  change run.Moves may ((register (.error loc)
    (Edit.addObject module ⟨run.session.objects.size⟩)).run first).2
  refine allocated.trans
    (register_moves (plain_error loc) (fun exprs => ?_) first (.refl first)).toMoves
  exact Edit.addObject_evolves heldFirst allowed heldObject allowedObject

theorem registerStruct_moves (prelude : 3 ≤ run.session.structs.size)
    (isOpen : run.session.Open may) (spec : Manifest.Module) (struct : Manifest.Struct) :
    run.Moves may ((registerStruct module spec struct).run run).2 := by
  let loc := Location.item run.file (spec.name ++ "/structs/" ++ struct.name)
  let id : StructId := ⟨run.session.structs.size⟩
  let first := ((onSession (Session.allocStruct struct.name loc struct.packed)).run run).2
  have allocated : run.Moves may first :=
    .of_session (Session.allocStruct_evolves _ loc _ run.session .refl)
  have heldFirst : module.index < first.session.modules.size := held
  obtain ⟨heldStruct, isNew⟩ := Session.allocStruct_fresh struct.name loc struct.packed run.session
  have allowedStruct : may (.struct id) := isOpen _ (decide_eq_false (Nat.lt_irrefl _))
  have free : (first.session.structAt id).Free :=
    Struct.free_of_unowned (congrArg Struct.owner isNew)
  refine allocated.trans ?_
  change first.Moves may ((do
    struct.members.forM fun member =>
      register (.error loc) (Edit.addMember id member.name (.ofName member.type loc))
    register (.error loc) (Edit.addStruct module id) : Pass Unit).run first).2
  refine (Keeps.bind (.forM fun member _ => ?_) (fun _ => ?_) first
    (Run.Registers.refl first)).toMoves
  · exact register_moves (plain_error loc) fun exprs =>
      Edit.addMember_evolves heldStruct allowedStruct (by simp) member.name
  · refine register_moves (plain_error loc) fun exprs => ?_
    exact Edit.addStruct_evolves heldFirst allowed
      (Nat.le_trans prelude (allocated.session.persists.bounds 0).structs) heldStruct free
      (.inl allowedStruct)

end Pass

/-! ## Functions and their variables -/

namespace Session

variable {may only : Handle → Prop} {exprs : Nat} {session before after : Session}
  {block : BlockId} {vars : StructId}

structure Vacant (block : BlockId) (vars : StructId) (session : Session) : Prop where
  held : block.index < session.blocks.size
  parent : (session.blockAt block).parent = none
  isVars : (session.blockAt block).vars = vars
  heldVars : vars.index < session.structs.size
  owned : (session.structAt vars).owner = some (.block block)

theorem allocBlock_vacant (name : String) (loc : Location) (session : Session) :
    Vacant ⟨session.blocks.size⟩ ⟨session.structs.size⟩
      ((allocBlock (some name) loc).run session).2 := by
  rw [allocBlock_run]
  constructor <;> simp [blockAt, structAt]

/-- A block stays vacant as long as it may not be changed. -/
theorem Vacant.evolves (vacant : before.Vacant block vars)
    (evolves : Evolves only exprs before after) (spared : ¬ only (.block block)) :
    after.Vacant block vars := by
  have persists := evolves.persists
  have same := evolves.spares.blocks block vacant.held spared
  refine ⟨Nat.lt_of_lt_of_le vacant.held (persists.bounds 0).blocks, ?_, ?_,
    Nat.lt_of_lt_of_le vacant.heldVars (persists.bounds 0).structs,
    (persists.structs vars vacant.heldVars).owner vacant.owned⟩
  · rw [same]
    exact vacant.parent
  · rw [same]
    exact vacant.isVars

theorem Vacant.attach (vacant : session.Vacant block vars) {func : FuncId}
    (held : func.index < session.funcs.size) (allowed : may (.func func))
    (allowedBlock : may (.block block)) :
    Event may exprs session (session.attachBlock func .mainline block) := by
  refine .attach func .mainline block held vacant.held allowed allowedBlock vacant.parent ?_
  rw [vacant.isVars]
  exact vacant.owned

def Outfitted (may : Handle → Prop) (func : FuncId) (session : Session) : Prop :=
  ∀ block ∈ (session.funcAt func).blocks, block.index < session.blocks.size ∧
    (session.blockAt block).vars.index < session.structs.size ∧
    may (.struct (session.blockAt block).vars)

theorem Vacant.outfits (vacant : session.Vacant block vars) {func : FuncId}
    (held : func.index < session.funcs.size) (bare : (session.funcAt func).blocks = [])
    (allowed : may (.struct vars)) :
    (session.attachBlock func .mainline block).Outfitted may func := by
  intro other member
  have isFunc : (session.attachBlock func .mainline block).funcAt func =
      (session.funcAt func).setBlock .mainline block := by
    rw [attachBlock, funcAt_modifyFunc, if_pos ⟨rfl, held⟩]
    rfl
  rw [isFunc] at member
  have isBlock : other = block := by
    rcases Func.mem_blocks_setBlock member with same | absent
    · exact same
    · rw [bare] at absent
      exact (List.not_mem_nil absent).elim
  have size : (session.attachBlock func .mainline block).blocks.size = session.blocks.size :=
    Array.size_modify
  have sameVars : ((session.attachBlock func .mainline block).blockAt block).vars = vars := by
    show ((session.modifyBlock block _).blockAt block).vars = vars
    rw [blockAt_modifyBlock, if_pos ⟨rfl, vacant.held⟩]
    exact vacant.isVars
  rw [isBlock, sameVars, size]
  exact ⟨vacant.held, vacant.heldVars, allowed⟩

structure Drafted (func : FuncId) (inbound outbound : StructId) (session : Session) : Prop where
  held : func.index < session.funcs.size
  isInbound : (session.funcAt func).inbound = inbound
  isOutbound : (session.funcAt func).outbound = outbound
  params : ∀ params ∈ [inbound, outbound],
    params.index < session.structs.size ∧ (session.structAt params).Free

variable {func : FuncId} {inbound outbound : StructId}

theorem allocFunc_params (session : Session) (name : String) (loc : Location) :
    let after := ((allocFunc name loc).run session).2
    after.structs.size = session.structs.size + 2 ∧
      after.structAt ⟨session.structs.size⟩ = { name := inboundName name, loc := loc } ∧
      after.structAt ⟨session.structs.size + 1⟩ = { name := outboundName name, loc := loc } := by
  have one : (session.structs.push { name := inboundName name, loc := loc }).size =
      session.structs.size + 1 := Array.size_push _
  dsimp only
  rw [allocFunc_run]
  refine ⟨?_, getD_push_push _ _ _, ?_⟩
  · rw [Array.size_push, one]
  · rw [structAt, ← one, Array.getElem?_push_size]
    rfl

theorem allocFunc_unowned (name : String) (loc : Location) (session : Session) :
    let after := ((allocFunc name loc).run session).2
    ∀ params ∈ [⟨session.structs.size⟩, ⟨session.structs.size + 1⟩],
      params.index < after.structs.size ∧ (after.structAt params).owner = none := by
  obtain ⟨size, inbound, outbound⟩ := session.allocFunc_params name loc
  refine List.forall_mem_cons.mpr ⟨⟨?_, ?_⟩, List.forall_mem_singleton.mpr ⟨?_, ?_⟩⟩
  · rw [size]
    exact Nat.lt_add_of_pos_right Nat.two_pos
  · rw [inbound]
  · rw [size]
    exact Nat.lt_succ_self _
  · rw [outbound]

theorem allocFunc_drafted (name : String) (loc : Location) (session : Session) :
    let after := ((allocFunc name loc).run session).2
    after.Drafted ⟨session.funcs.size⟩ ⟨session.structs.size⟩ ⟨session.structs.size + 1⟩ ∧
      (after.funcAt ⟨session.funcs.size⟩).blocks = [] := by
  intro after
  have isAfter := congrArg Prod.snd (allocFunc_run name loc session)
  change after = _ at isAfter
  refine ⟨⟨?_, ?_, ?_, fun params member => ?_⟩, ?_⟩
  · simp [isAfter]
  · simp [isAfter, funcAt]
  · simp [isAfter, funcAt]
  · exact (allocFunc_unowned name loc session params member).imp_right Struct.free_of_unowned
  · simp [isAfter, funcAt, Func.blocks]

theorem Drafted.persists (drafted : before.Drafted func inbound outbound)
    (persists : before.Persists after) : after.Drafted func inbound outbound where
  held := Nat.lt_of_lt_of_le drafted.held (persists.bounds 0).funcs
  isInbound := (persists.funcs func drafted.held).inbound.trans drafted.isInbound
  isOutbound := (persists.funcs func drafted.held).outbound.trans drafted.isOutbound
  params := fun params member =>
    have ⟨held, free⟩ := drafted.params params member
    ⟨Nat.lt_of_lt_of_le held (persists.bounds 0).structs, (persists.structs params held).free free⟩

theorem Drafted.presentable (drafted : session.Drafted func inbound outbound)
    (allowed : may (.func func)) (allowedParams : ∀ params ∈ [inbound, outbound],
      may (.struct params)) (outfitted : session.Outfitted may func) :
    Edit.Presentable may session func where
  held := drafted.held
  allowed := allowed
  params := by
    rw [drafted.isInbound, drafted.isOutbound]
    exact fun params member =>
      have ⟨held, free⟩ := drafted.params params member
      ⟨held, free, allowedParams params member⟩
  blocks := outfitted

end Session

def Session.HasBlocks (blocks : Array Block) (session : Session) : Prop :=
  session.blocks = blocks

namespace Pass

open Session (Evolves)

variable {α : Type} {may : Handle → Prop} {base run : Run} {module : ModuleId}

def addInbounds (id : FuncId) (slots : List Manifest.Slot) (loc : Location) : Pass Unit :=
  slots.forM fun slot =>
    register (.error loc) (Edit.addInbound id slot.name (.ofName slot.type loc))

def addOutbounds (id : FuncId) (slots : List Manifest.Slot) (loc : Location) : Pass Unit :=
  slots.forM fun slot =>
    register (.error loc) (Edit.addOutbound id slot.name (.ofName slot.type loc))

theorem addParameters_blocks {arena : Arena} {blocks : Array Block} (id : FuncId)
    (func : Manifest.Func) (loc : Location) : Keeps (Run.Early arena (Session.HasBlocks blocks)) (do
      addInbounds id func.inbound loc
      addOutbounds id func.outbound loc) := by
  refine Keeps.bind (.forM fun parameter _ => ?_) fun _ => .forM fun parameter _ => ?_
  · exact register_keeps (Edit.addInbound_keeps (fun same _ => same) id) _
  · exact register_keeps (Edit.addOutbound_keeps (fun same _ => same) id) _

theorem addParameters_moves {id : FuncId} {inbound outbound : StructId}
    (drafted : base.session.Drafted id inbound outbound) (func : Manifest.Func) (loc : Location) :
    Keeps (base.Registers fun handle => ∃ params ∈ [inbound, outbound],
        handle = .struct params) (do
      addInbounds id func.inbound loc
      addOutbounds id func.outbound loc) := by
  refine Keeps.bind (.forM fun parameter _ => ?_) fun _ => .forM fun parameter _ => ?_
  · refine register_moves (plain_error loc) fun exprs => .get_bind fun session evolves => ?_
    rw [(drafted.persists evolves.persists).isInbound]
    have ⟨held, _⟩ := drafted.params inbound (by simp)
    exact Edit.addParameter_evolves held ⟨inbound, by simp, rfl⟩ (by simp) id _ session evolves
  · refine register_moves (plain_error loc) fun exprs => .get_bind fun session evolves => ?_
    rw [(drafted.persists evolves.persists).isOutbound]
    have ⟨held, _⟩ := drafted.params outbound (by simp)
    exact Edit.addParameter_evolves held ⟨outbound, by simp, rfl⟩ (by simp) id _ session evolves

theorem addLocals_moves {block : BlockId} {vars : StructId} (vacant : base.session.Vacant block vars)
    (locals : List Manifest.Variable) (loc : Location) :
    Keeps (base.Registers fun handle => handle = .struct vars)
      (locals.forM fun slot =>
        register (.error loc) (Edit.addLocal block slot.name (.ofName slot.type loc))) := by
  refine .forM fun slot _ => register_moves (plain_error loc) fun exprs =>
    .get_bind fun session evolves => ?_
  rw [(evolves.persists.blocks block vacant.held).vars, vacant.isVars]
  exact Edit.addMember_evolves vacant.heldVars (by rfl) (by simp) slot.name session evolves

def newFrames (session : Session) (module : ModuleId) (func : Manifest.Func) : List Frame :=
  if func.locals.isEmpty then [] else [⟨module, func.name, ⟨session.blocks.size⟩, func.locals⟩]

/-- What setting up the variables of a function leaves: a frame at the end of the list, for a block
that is held, and a function whose blocks are held. -/
structure SetsUp (may : Handle → Prop) (module : ModuleId) (id : FuncId) (func : Manifest.Func)
    (before after : Run) : Prop where
  moves : ({ before with
    blocks := before.blocks ++ newFrames before.session module func } : Run).Moves may after
  held : ∀ frame ∈ newFrames before.session module func,
    frame.block.index < after.session.blocks.size
  outfitted : after.session.Outfitted may id

theorem registerLocals_setsUp {id : FuncId} (held : id.index < run.session.funcs.size)
    (allowed : may (.func id)) (isOpen : run.session.Open may)
    (bare : (run.session.funcAt id).blocks = []) (func : Manifest.Func) (loc : Location) :
    SetsUp may module id func run ((registerLocals module id func loc).run run).2 := by
  rw [registerLocals]
  split
  · next noLocals =>
    have none : newFrames run.session module func = [] := if_pos noLocals
    refine ⟨?_, by simp [none], fun block member => ?_⟩
    · rw [none, List.append_nil]
      exact .refl run
    · rw [show ((return : Pass Unit).run run).2 = run from rfl, bare] at member
      exact (List.not_mem_nil member).elim
  · next hasLocals =>
    have one : newFrames run.session module func =
        [⟨module, func.name, ⟨run.session.blocks.size⟩, func.locals⟩] := if_neg hasLocals
    let block : BlockId := ⟨run.session.blocks.size⟩
    let vars : StructId := ⟨run.session.structs.size⟩
    have allowedBlock : may (.block block) := isOpen _ (decide_eq_false (Nat.lt_irrefl _))
    have allowedVars : may (.struct vars) := isOpen _ (decide_eq_false (Nat.lt_irrefl _))
    let first : Run := { run with session :=
      ((Session.allocBlock (some (func.name ++ "_mainline")) loc).run run.session).2 }
    have vacant : first.session.Vacant block vars := Session.allocBlock_vacant _ loc run.session
    have allocated : run.Moves may first :=
      .of_session (Session.allocBlock_evolves (func.name ++ "_mainline") loc _ .refl)
    let second := ((func.locals.forM fun slot => register (.error loc)
      (Edit.addLocal block slot.name (.ofName slot.type loc)) : Pass Unit).run first).2
    -- Only the variables change while they are declared, so that the block stays vacant.
    have filled : first.Moves (fun handle => handle = .struct vars) second :=
      (addLocals_moves vacant func.locals loc first (.refl first)).toMoves
    have stillVacant := vacant.evolves filled.session (by simp)
    have grown : run.Moves may second := by
      refine allocated.trans (filled.mono ?_)
      rintro handle rfl
      exact allowedVars
    have heldFirst := Nat.lt_of_lt_of_le held (allocated.session.persists.bounds 0).funcs
    have heldSecond := Nat.lt_of_lt_of_le heldFirst (filled.session.persists.bounds 0).funcs
    have bareSecond : (second.session.funcAt id).blocks = [] := by
      rw [filled.session.spares.funcs id heldFirst (by simp)]
      exact bare
    have attached : run.Moves may { second with
        session := second.session.attachBlock id .mainline block } :=
      grown.trans (.of_session (.single (stillVacant.attach heldSecond allowed allowedBlock)))
    have size : (second.session.attachBlock id .mainline block).blocks.size =
        second.session.blocks.size := Array.size_modify
    change SetsUp may module id func run { second with
      session := second.session.attachBlock id .mainline block
      blocks := second.blocks ++ [⟨module, func.name, block, func.locals⟩] }
    refine ⟨?_, ?_, stillVacant.outfits heldSecond bareSecond allowedVars⟩
    · rw [one]
      exact { attached with blocks := by rw [grown.blocks] }
    · rw [one]
      refine List.forall_mem_singleton.mpr ?_
      show block.index < (second.session.attachBlock id .mainline block).blocks.size
      rw [size]
      exact stillVacant.held

/-- A function is registered together with the structs of its parameters and its variables. -/
theorem registerFunction_moves (held : module.index < run.session.modules.size)
    (allowed : may (.module module)) (prelude : 3 ≤ run.session.structs.size)
    (isOpen : run.session.Open may) (spec : Manifest.Module) (func : Manifest.Func) :
    let after := ((registerFunction module spec func).run run).2
    ({ run with blocks := run.blocks ++ newFrames run.session module func } : Run).Moves may after ∧
      ∀ frame ∈ newFrames run.session module func,
        frame.block.index < after.session.blocks.size := by
  let loc := Location.item run.file (spec.name ++ "/functions/" ++ func.name)
  let id : FuncId := ⟨run.session.funcs.size⟩
  let inbound : StructId := ⟨run.session.structs.size⟩
  let outbound : StructId := ⟨run.session.structs.size + 1⟩
  have allowedFunc : may (.func id) := isOpen _ (decide_eq_false (Nat.lt_irrefl _))
  have allowedParams : ∀ params ∈ [inbound, outbound], may (.struct params) := by
    intro params member
    refine isOpen _ (decide_eq_false ?_)
    simp only [List.mem_cons, List.not_mem_nil, or_false] at member
    rcases member with rfl | rfl <;> simp [Session.bounds, inbound, outbound]
  let first : Run := { run with
    session := ((Session.allocFunc func.name loc).run run.session).2 }
  obtain ⟨drafted, bare⟩ : first.session.Drafted id inbound outbound ∧
      (first.session.funcAt id).blocks = [] := Session.allocFunc_drafted func.name loc run.session
  have allocated : run.Moves may first :=
    .of_session (Session.allocFunc_evolves func.name loc _ .refl)
  let second := ((do
    addInbounds id func.inbound loc
    addOutbounds id func.outbound loc : Pass Unit).run first).2
  -- Only the parameters change while they are declared, so that the function has no block yet.
  have declared : first.Moves (fun handle => ∃ params ∈ [inbound, outbound],
      handle = .struct params) second :=
    (addParameters_moves drafted func loc first (.refl first)).toMoves
  have grown : run.Moves may second := by
    refine allocated.trans (declared.mono ?_)
    rintro handle ⟨params, member, rfl⟩
    exact allowedParams params member
  have stillDrafted := drafted.persists declared.session.persists
  have stillBare : (second.session.funcAt id).blocks = [] := by
    rw [declared.session.spares.funcs id drafted.held (by simp)]
    exact bare
  have setsUp : SetsUp may module id func second
      ((registerLocals module id func loc).run second).2 :=
    registerLocals_setsUp stillDrafted.held allowedFunc
      (isOpen.persists grown.session.persists) stillBare func loc
  let third := ((registerLocals module id func loc).run second).2
  have sameFrames : newFrames second.session module func = newFrames run.session module func := by
    have sameBlocks : second.session.blocks = run.session.blocks :=
      (addParameters_blocks id func loc first ⟨rfl,
        congrArg (Session.blocks ∘ Prod.snd) (Session.allocFunc_run func.name loc run.session)⟩).session
    rw [newFrames, newFrames, sameBlocks]
  obtain ⟨moves, heldFrames, outfitted⟩ := setsUp
  rw [sameFrames] at moves heldFrames
  have reaches : ({ run with
      blocks := run.blocks ++ newFrames run.session module func } : Run).Moves may third := by
    refine Run.Moves.trans ?_ moves
    exact { grown with blocks := by rw [grown.blocks] }
  have persists := reaches.session.persists
  have presentable : Edit.Presentable may third.session id :=
    (stillDrafted.persists moves.session.persists).presentable allowedFunc allowedParams outfitted
  have registered : third.Moves may
      ((register (.error loc) (Edit.addFunc module id)).run third).2 :=
    register_moves_at (plain_error loc) (Edit.addFunc_evolves
      (Nat.lt_of_lt_of_le held (persists.bounds 0).modules) allowed
      (Nat.le_trans prelude (persists.bounds 0).structs) presentable)
  exact ⟨reaches.trans registered, fun frame member => Nat.lt_of_lt_of_le (heldFrames frame member)
    (registered.session.persists.bounds 0).blocks⟩

/-! ## Binding -/

def bindOne (module : ModuleId) : Pass Unit := do
  let run ← get
  let bound := run.session.bindModule module run.log
  set { run with session := bound.session, log := bound.log }

theorem bindOne_moves (integral : run.session.Integral run.arena.size)
    (prelude : 3 ≤ run.session.structs.size)
    (mayBind : ∀ id ∈ run.session.pendingStructs module, Session.MayBind may run.session id) :
    run.Moves may ((bindOne module).run run).2 := by
  obtain ⟨evolves, entries, isLog, plain, _⟩ :=
    Session.bindModule_evolves integral prelude mayBind run.log
  exact ⟨rfl, rfl, rfl, rfl, .of_session evolves, entries, isLog, plain⟩

end Pass

end Assay
