import Assay.Proofs.Check.Sequence
import Assay.Proofs.Scope.Outline

/-!
Contract: what a run without errors has registered.
-/

namespace Assay

/-! ## Runs without errors -/

def Run.ErrorFree (run : Run) : Prop :=
  run.log.counts .error = 0

def Run.Logs (before after : Run) : Prop :=
  ∃ added, after.log = before.log.recordAll added

namespace Run

variable {run : Run} {entries : List Entry} {entry : Entry}

theorem not_errorFree_reporting (member : entry ∈ entries) (isError : entry.IsError) :
    ¬ (run.reporting entries).ErrorFree := by
  intro clean
  rw [ErrorFree, reporting, Log.counts_recordAll] at clean
  have absent := List.countP_eq_zero.mp (Nat.eq_zero_of_add_eq_zero_left clean) entry member
  exact absent (decide_eq_true isError.symm)

theorem not_errorFree_singleton (isError : entry.IsError) :
    ¬ (run.reporting [entry]).ErrorFree :=
  not_errorFree_reporting (List.mem_singleton.mpr rfl) isError

end Run

namespace Run.Logs

variable {before middle after : Run}

theorem refl (run : Run) : run.Logs run :=
  ⟨[], rfl⟩

theorem trans (first : before.Logs middle) (second : middle.Logs after) : before.Logs after := by
  obtain ⟨earlier, isMiddle⟩ := first
  obtain ⟨later, isAfter⟩ := second
  exact ⟨earlier ++ later, by rw [isAfter, isMiddle, Log.recordAll_append]⟩

theorem errorFree (logs : before.Logs after) (clean : after.ErrorFree) : before.ErrorFree := by
  obtain ⟨added, isAfter⟩ := logs
  rw [Run.ErrorFree, isAfter, Log.counts_recordAll] at clean
  exact Nat.eq_zero_of_add_eq_zero_right clean

end Run.Logs

namespace Pass

open Session (Fills)

variable {α : Type} {run : Run} {loc : Location}

theorem register_logs (refusal : Fault → Entry) (edit : Edit α) (run : Run) :
    run.Logs ((register refusal edit).run run).2 := by
  obtain ⟨entries, isNext, _⟩ := register_run refusal edit run
  rw [isNext]
  exact ⟨entries, rfl⟩

theorem forM_logs {items : List α} {body : α → Pass Unit}
    (logs : ∀ item (run : Run), run.Logs ((body item).run run).2) (run : Run) :
    run.Logs ((items.forM body).run run).2 := by
  induction items generalizing run with
  | nil => exact .refl run
  | cons item items ih => exact (logs item run).trans (ih _)

/-- A registration that reports no error was not refused. -/
theorem register_clean {edit : Edit α}
    (clean : ((register (.error loc) edit).run run).2.ErrorFree) :
    ∃ value session, edit.run.run run.session = (.ok value, session) ∧
      ((register (.error loc) edit).run run).2 = { run with session := session } := by
  rcases edited : edit.run.run run.session with ⟨fault | value, session⟩
  · rw [register_error edited] at clean
    exact absurd clean (Run.not_errorFree_singleton rfl)
  · exact ⟨value, session, rfl, register_ok edited _⟩

/-- Members that are declared without an error have all been added. -/
theorem forM_register_fills {id : StructId} {slots : List α} {edit : α → Edit Nat}
    {name : α → String} (place : Session → StructId)
    (keeps : ∀ {before after : Session}, after.funcs = before.funcs →
      after.blocks = before.blocks → place after = place before)
    (fills : ∀ slot {session value after}, (place session).index < session.structs.size →
      (edit slot).run.run session = (.ok value, after) →
        session.Fills (place session) [name slot] after)
    (isPlace : place run.session = id) (held : id.index < run.session.structs.size)
    (clean : ((slots.forM fun slot => register (.error loc) (edit slot)).run run).2.ErrorFree) :
    run.session.Fills id (slots.map name)
        ((slots.forM fun slot => register (.error loc) (edit slot)).run run).2.session ∧
      run.ErrorFree := by
  induction slots generalizing run with
  | nil => exact ⟨.refl id run.session, clean⟩
  | cons slot slots ih =>
    rw [Computation.run_forM_cons] at clean ⊢
    have between : ((register (.error loc) (edit slot)).run run).2.ErrorFree :=
      (forM_logs (fun slot run => register_logs _ (edit slot) run) _).errorFree clean
    obtain ⟨value, session, edited, isNext⟩ := register_clean between
    have first := fills slot (isPlace.symm ▸ held) edited
    rw [isPlace] at first
    rw [isNext] at clean between ⊢
    have isNextPlace := (keeps first.funcs first.blocks).trans isPlace
    exact ⟨first.trans (ih isNextPlace (first.size ▸ held) clean).1, between⟩

end Pass

/-! ## Outlines -/

namespace Manifest

def Struct.outline (struct : Manifest.Struct) : String × List String :=
  (struct.name, struct.members.map Slot.name ++ Assay.Struct.bookkeeping)

def Func.outlines (func : Manifest.Func) : List (String × List String) :=
  [("__" ++ func.name ++ "_inbound", func.inbound.map Slot.name ++ Assay.Struct.bookkeeping),
   ("__" ++ func.name ++ "_outbound", func.outbound.map Slot.name ++ Assay.Struct.bookkeeping)]

def Module.outlines (spec : Manifest.Module) : List (String × List String) :=
  spec.structs.map Struct.outline ++ spec.functions.flatMap Func.outlines

end Manifest

def Step.outlines (module : ModuleId) : Step → List (String × List String)
  | .struct owner _ written => if module = owner then [written.outline] else []
  | .func owner _ written => if module = owner then written.outlines else []
  | _ => []

namespace Session

variable {session before after : Session}

theorem listed_unheld {module : ModuleId} (unheld : session.modules.size ≤ module.index) :
    session.listed module = [] := by
  rw [listed, moduleAt, Array.getElem?_eq_none unheld]
  rfl

theorem Supplied.declare_outlines (supplied : session.Supplied) (name : String) (loc : Location)
    (module : ModuleId) : (session.declare name loc).outlines module = session.outlines module := by
  obtain ⟨_, takes, _⟩ := supplied.installs name loc
  have listed : (session.declare name loc).listed module = session.listed module := by
    by_cases same : module = ⟨session.modules.size⟩
    · have empty : session.listed ⟨session.modules.size⟩ = [] := listed_unheld (Nat.le_refl _)
      rw [same, empty, Session.listed, takes.structs]
      have noStruct : (((allocModule name loc).run session).2.moduleAt
          ⟨session.modules.size⟩).structs = [] := by
        rw [moduleAt_allocModule, if_pos rfl]
      rw [noStruct, List.nil_append, List.map_map, List.filter_eq_nil_iff]
      intro id member
      obtain ⟨other, isOther, rfl⟩ := List.mem_map.mp member
      simpa using isOther
    · have isOther : module.index ≠ session.modules.size := fun equal => same (by
        cases module
        simp_all)
      rw [Session.listed, Session.listed, takes.modules module same, moduleAt_allocModule,
        if_neg isOther]
  refine outlines_congr listed fun id member => ?_
  have new : id ∉ Prelude.structIds := of_decide_eq_true (List.mem_filter.mp member).2
  rw [takes.others id new]
  rfl

theorem listed_congr (modules : after.modules = before.modules) (module : ModuleId) :
    after.listed module = before.listed module := by
  rw [listed, listed, moduleAt, moduleAt, modules]

/-- New structs leave the outlines alone. -/
theorem outlines_of_extends {exprs : Nat} (covered : before.CoveredBy (before.bounds exprs))
    (grown : before.Extends after) (modules : after.modules = before.modules) (module : ModuleId) :
    after.outlines module = before.outlines module := by
  refine outlines_congr (listed_congr modules module) fun id member => ?_
  rw [grown.structs id (listed_held covered member) False.elim]

end Session

namespace Pass

variable {run : Run} {module : ModuleId} {id : FuncId}

/-- A struct that is registered without an error is listed with all its members. -/
theorem registerStruct_outlines (integral : run.session.Integral run.arena.size)
    (prelude : 3 ≤ run.session.structs.size) (held : module.index < run.session.modules.size)
    {spec : Manifest.Module} {written : Manifest.Struct}
    (clean : ((registerStruct module spec written).run run).2.ErrorFree) (other : ModuleId) :
    ((registerStruct module spec written).run run).2.session.outlines other =
      run.session.outlines other ++ if other = module then [written.outline] else [] := by
  let loc := Location.item run.file (spec.name ++ "/structs/" ++ written.name)
  let id : StructId := ⟨run.session.structs.size⟩
  let first := ((onSession (Session.allocStruct written.name loc written.packed)).run run).2
  let second := ((written.members.forM fun member => register (.error loc)
    (Edit.addMember id member.name (.ofName member.type loc)) : Pass Unit).run first).2
  change ((register (.error loc) (Edit.addStruct module id)).run second).2.ErrorFree at clean
  change ((register (.error loc) (Edit.addStruct module id)).run second).2.session.outlines other = _
  obtain ⟨heldFirst, isNew⟩ : id.index < first.session.structs.size ∧ first.session.structAt id =
      { name := written.name, loc := loc, packed := written.packed } :=
    Session.allocStruct_fresh written.name loc written.packed run.session
  have new : id ∉ Prelude.structIds :=
    fun member => Nat.not_lt.mpr prelude (Prelude.index_lt member)
  have unlisted : first.session.Unlisted id := by
    intro place member
    exact Nat.lt_irrefl _ (Session.listed_held integral.covered member)
  obtain ⟨value, session, edited, isAfter⟩ := register_clean clean
  have cleanSecond := (register_logs (.error loc) (Edit.addStruct module id) second).errorFree clean
  obtain ⟨fills, _⟩ := forM_register_fills (fun _ => id) (fun _ _ => rfl)
    (fun _ => Edit.addMember_ok) rfl heldFirst cleanSecond
  have unlistedSecond : second.session.Unlisted id := by
    intro place member
    rw [Session.listed_congr fills.modules] at member
    exact unlisted place member
  have heldModule : module.index < second.session.modules.size := by
    rw [fills.modules]
    exact held
  have unsealed : (second.session.structAt id).isSealed = false := by
    rw [fills.isSealed, isNew]
  have takes := (Edit.addStruct_ok heldModule (fills.size ▸ heldFirst) edited).2
  obtain ⟨name, members⟩ := Prod.mk.inj fills.outline
  have outlined : ((second.session.structAt id).name,
      (second.session.structAt id).members.map Member.name ++ Struct.bookkeeping) =
        written.outline := by
    rw [name, members, isNew]
    rfl
  have allocated : first.session.outlines other = run.session.outlines other :=
    Session.outlines_of_extends integral.covered (Session.Spares.pushStruct _ _) rfl other
  rw [isAfter]
  show session.outlines other = _
  rw [takes.outlines new unlistedSecond unsealed, fills.outlines unlisted, allocated, outlined]

/-- Parameters that are declared without an error have all been added. -/
theorem addParameters_clean {inbound outbound : StructId}
    (drafted : run.session.Drafted id inbound outbound) (func : Manifest.Func) (loc : Location) :
    let middle := ((addInbounds id func.inbound loc).run run).2
    let after := ((addOutbounds id func.outbound loc).run middle).2
    after.ErrorFree →
      run.session.Fills inbound (func.inbound.map Manifest.Slot.name) middle.session ∧
        middle.session.Fills outbound (func.outbound.map Manifest.Slot.name) after.session := by
  intro middle after clean
  have heldInbound := (drafted.params inbound (by simp)).1
  have heldOutbound := (drafted.params outbound (by simp)).1
  have cleanMiddle : middle.ErrorFree :=
    (forM_logs (fun parameter run => register_logs _ _ run) middle).errorFree clean
  have sameFunc : ∀ {before after : Session}, after.funcs = before.funcs →
      after.funcAt id = before.funcAt id := fun same => by rw [Session.funcAt, same]; rfl
  have fillsInbound : run.session.Fills inbound (func.inbound.map Manifest.Slot.name)
      middle.session :=
    (forM_register_fills (fun session => (session.funcAt id).inbound)
      (fun funcs _ => by rw [sameFunc funcs]) (fun _ => Edit.addInbound_ok) drafted.isInbound
      heldInbound cleanMiddle).1
  have isOutbound : (middle.session.funcAt id).outbound = outbound := by
    rw [sameFunc fillsInbound.funcs]
    exact drafted.isOutbound
  exact ⟨fillsInbound, (forM_register_fills (fun session => (session.funcAt id).outbound)
    (fun funcs _ => by rw [sameFunc funcs]) (fun _ => Edit.addOutbound_ok) isOutbound
    (fillsInbound.size ▸ heldOutbound) clean).1⟩

/-- Variables that are declared without an error have different names. -/
theorem registerLocals_clean {func : Manifest.Func} {loc : Location}
    (clean : ((registerLocals module id func loc).run run).2.ErrorFree) :
    run.ErrorFree ∧ (func.locals.map Manifest.Variable.name).Nodup ∧
      ((registerLocals module id func loc).run run).2.session.modules = run.session.modules := by
  revert clean
  rw [registerLocals]
  split
  · next noLocals =>
    intro clean
    rw [List.isEmpty_iff.mp noLocals]
    exact ⟨clean, List.nodup_nil, rfl⟩
  · intro clean
    let block : BlockId := ⟨run.session.blocks.size⟩
    let vars : StructId := ⟨run.session.structs.size⟩
    let first : Run := { run with session :=
      ((Session.allocBlock (some (func.name ++ "_mainline")) loc).run run.session).2 }
    have vacant : first.session.Vacant block vars := Session.allocBlock_vacant _ loc run.session
    have noMember : (first.session.structAt vars).members = [] := by
      show (((Session.allocBlock (some (func.name ++ "_mainline")) loc).run
        run.session).2.structAt vars).members = []
      rw [Session.allocBlock_run]
      simp [Session.structAt, vars]
    let second := ((func.locals.forM fun slot => register (.error loc)
      (Edit.addLocal block slot.name (.ofName slot.type loc)) : Pass Unit).run first).2
    have cleanSecond : second.ErrorFree := clean
    have fills : first.session.Fills vars (func.locals.map Manifest.Variable.name)
        second.session ∧ first.ErrorFree :=
      forM_register_fills (fun session => (session.blockAt block).vars)
        (fun _ blocks => by rw [Session.blockAt, blocks]; rfl) (fun _ => Edit.addLocal_ok)
        vacant.isVars vacant.heldVars cleanSecond
    have names := (Prod.mk.inj fills.1.outline).2
    have distinct := fills.1.distinct (by rw [noMember]; exact List.nodup_nil)
    rw [names, noMember] at distinct
    refine ⟨fills.2, distinct, fills.1.modules.trans ?_⟩
    exact congrArg (Session.modules ∘ Prod.snd) (Session.allocBlock_run _ loc run.session)

end Pass

structure Session.Announces (func : Manifest.Func) (before after : Session) : Prop where
  modules : after.modules = before.modules
  size : before.structs.size + 2 ≤ after.structs.size
  others : ∀ id : StructId, id.index < before.structs.size → after.structAt id = before.structAt id
  inbound : (after.structAt ⟨before.structs.size⟩).isSealed = false ∧
    (after.structAt ⟨before.structs.size⟩).outline =
      (Session.inboundName func.name, func.inbound.map Manifest.Slot.name)
  outbound : (after.structAt ⟨before.structs.size + 1⟩).isSealed = false ∧
    (after.structAt ⟨before.structs.size + 1⟩).outline =
      (Session.outboundName func.name, func.outbound.map Manifest.Slot.name)

namespace Session.Announces

variable {func : Manifest.Func} {before middle after : Session} {exprs : Nat} {id : StructId}

/-- What leaves the modules and all structs alone may follow. -/
theorem spared (announces : before.Announces func middle) (modules : after.modules = middle.modules)
    (size : middle.structs.size ≤ after.structs.size)
    (structs : ∀ id : StructId, id.index < middle.structs.size →
      after.structAt id = middle.structAt id) : before.Announces func after where
  modules := modules.trans announces.modules
  size := Nat.le_trans announces.size size
  others := fun id held => (structs id (by have := announces.size; omega)).trans
    (announces.others id held)
  inbound := by
    rw [structs ⟨before.structs.size⟩ (Nat.lt_of_lt_of_le (by simp) announces.size)]
    exact announces.inbound
  outbound := by
    rw [structs ⟨before.structs.size + 1⟩ (Nat.lt_of_lt_of_le (by simp) announces.size)]
    exact announces.outbound

section

variable (covered : before.CoveredBy (before.bounds exprs))
include covered

/-- No module lists a struct that was not there before. -/
theorem unlisted (announces : before.Announces func after) (new : before.structs.size ≤ id.index) :
    after.Unlisted id := by
  intro module member
  rw [listed_congr announces.modules] at member
  exact Nat.not_lt.mpr new (listed_held covered member)

theorem outlines (announces : before.Announces func after) (module : ModuleId) :
    after.outlines module = before.outlines module := by
  refine outlines_congr (listed_congr announces.modules module) fun id member => ?_
  rw [announces.others id (listed_held covered member)]

theorem parameters (prelude : 3 ≤ before.structs.size) (announces : before.Announces func after)
    (new : before.structs.size ≤ id.index) (held : id.index < before.structs.size + 2)
    (unsealed : (after.structAt id).isSealed = false) : Edit.Parameters after id where
  held := Nat.lt_of_lt_of_le held announces.size
  new := fun member => Nat.not_lt.mpr (Nat.le_trans prelude new) (Prelude.index_lt member)
  unlisted := announces.unlisted covered new
  unsealed := unsealed

end

/-- A function whose parameters have been announced brings them in when it is registered. -/
theorem addFunc_outlines {exprs : Nat} (covered : before.CoveredBy (before.bounds exprs))
    (prelude : 3 ≤ before.structs.size) (announces : before.Announces func middle) {id : FuncId}
    (isInbound : (middle.funcAt id).inbound = ⟨before.structs.size⟩)
    (isOutbound : (middle.funcAt id).outbound = ⟨before.structs.size + 1⟩)
    (slots : ∀ block ∈ (middle.funcAt id).blocks,
      before.structs.size + 2 ≤ (middle.blockAt block).vars.index)
    {module : ModuleId} (held : module.index < before.modules.size) {value : Unit}
    (done : (Edit.addFunc module id).run.run middle = (.ok value, after)) (other : ModuleId) :
    after.outlines other =
      before.outlines other ++ if other = module then func.outlines else [] := by
  have inbound := announces.parameters covered prelude (Nat.le_refl _) (by simp)
    announces.inbound.1
  have outbound := announces.parameters covered prelude (Nat.le_succ _) (Nat.lt_succ_self _)
    announces.outbound.1
  have distinct : (middle.funcAt id).outbound ≠ (middle.funcAt id).inbound := by
    rw [isInbound, isOutbound]
    simp
  have apart : ∀ block ∈ (middle.funcAt id).blocks, middle.Unlisted (middle.blockAt block).vars ∧
      (middle.blockAt block).vars ≠ (middle.funcAt id).inbound ∧
      (middle.blockAt block).vars ≠ (middle.funcAt id).outbound := by
    intro block member
    have new := slots block member
    refine ⟨announces.unlisted covered (Nat.le_trans (Nat.le_add_right _ 2) new), ?_, ?_⟩
    · intro same
      rw [same, isInbound] at new
      exact Nat.not_succ_le_self _ (Nat.le_of_succ_le new)
    · intro same
      rw [same, isOutbound] at new
      exact Nat.not_succ_le_self _ new
  obtain ⟨inboundName, inboundMembers⟩ := Prod.mk.inj announces.inbound.2
  obtain ⟨outboundName, outboundMembers⟩ := Prod.mk.inj announces.outbound.2
  rw [Edit.addFunc_outlines (by rw [announces.modules]; exact held) (isInbound ▸ inbound)
    (isOutbound ▸ outbound) distinct apart done, announces.outlines covered, isInbound, isOutbound,
    inboundName, inboundMembers, outboundName, outboundMembers]
  rfl

end Session.Announces

namespace Pass

variable {run : Run} {module : ModuleId} {written : Manifest.Func}

theorem addParameters_announces {written : Manifest.Func} {loc : Location} {middle after : Run}
    (inbound : ((Session.allocFunc written.name loc).run run.session).2.Fills
      ⟨run.session.structs.size⟩ (written.inbound.map Manifest.Slot.name) middle.session)
    (outbound : middle.session.Fills ⟨run.session.structs.size + 1⟩
      (written.outbound.map Manifest.Slot.name) after.session) :
    run.session.Announces written after.session := by
  obtain ⟨size, isInbound, isOutbound⟩ := run.session.allocFunc_params written.name loc
  have evolves : Session.Evolves (fun _ => False) 0 run.session
      ((Session.allocFunc written.name loc).run run.session).2 :=
    Session.allocFunc_evolves written.name loc run.session .refl
  refine ⟨outbound.modules.trans inbound.modules, ?_, fun id held => ?_, ?_, ?_⟩
  · rw [outbound.size, inbound.size, size]
  · have notInbound : id ≠ ⟨run.session.structs.size⟩ := fun same => by
      rw [same] at held
      exact Nat.lt_irrefl _ held
    have notOutbound : id ≠ ⟨run.session.structs.size + 1⟩ := fun same => by
      rw [same] at held
      exact Nat.not_succ_lt_self held
    rw [outbound.others id notOutbound, inbound.others id notInbound]
    exact evolves.spares.structs id held False.elim
  · rw [outbound.others _ (by simp), inbound.isSealed, inbound.outline, isInbound]
    exact ⟨rfl, rfl⟩
  · rw [outbound.isSealed, outbound.outline, inbound.others _ (by simp), isOutbound]
    exact ⟨rfl, rfl⟩

/-- A function that is registered without an error brings in the structs of its parameters, and its
variables have different names. -/
theorem registerFunction_clean (integral : run.session.Integral run.arena.size)
    (prelude : 3 ≤ run.session.structs.size) (held : module.index < run.session.modules.size)
    {spec : Manifest.Module} {written : Manifest.Func}
    (clean : ((registerFunction module spec written).run run).2.ErrorFree) :
    (∀ other, ((registerFunction module spec written).run run).2.session.outlines other =
      run.session.outlines other ++ if other = module then written.outlines else []) ∧
    (written.locals.map Manifest.Variable.name).Nodup := by
  let loc := Location.item run.file (spec.name ++ "/functions/" ++ written.name)
  let id : FuncId := ⟨run.session.funcs.size⟩
  let inbound : StructId := ⟨run.session.structs.size⟩
  let outbound : StructId := ⟨run.session.structs.size + 1⟩
  let first : Run := { run with
    session := ((Session.allocFunc written.name loc).run run.session).2 }
  obtain ⟨drafted, bare⟩ : first.session.Drafted id inbound outbound ∧
      (first.session.funcAt id).blocks = [] := Session.allocFunc_drafted written.name loc run.session
  let middle := ((addInbounds id written.inbound loc).run first).2
  let second := ((addOutbounds id written.outbound loc).run middle).2
  let third := ((registerLocals module id written loc).run second).2
  change ((register (.error loc) (Edit.addFunc module id)).run third).2.ErrorFree at clean
  change (∀ other, ((register (.error loc)
    (Edit.addFunc module id)).run third).2.session.outlines other = _) ∧ _
  have cleanThird := (register_logs (.error loc) (Edit.addFunc module id) third).errorFree clean
  obtain ⟨cleanSecond, nodup, sameModules⟩ := registerLocals_clean cleanThird
  obtain ⟨fillsInbound, fillsOutbound⟩ := addParameters_clean drafted written loc cleanSecond
  have announced : run.session.Announces written second.session :=
    addParameters_announces fillsInbound fillsOutbound
  have sameFunc : second.session.funcAt id = first.session.funcAt id := by
    rw [Session.funcAt, Session.funcAt, fillsOutbound.funcs, fillsInbound.funcs]
  have heldFunc : id.index < second.session.funcs.size := by
    rw [fillsOutbound.funcs, fillsInbound.funcs]
    exact drafted.held
  -- While the variables are set up, only the function changes and what was not there before.
  let may : Handle → Prop := fun handle =>
    handle = .func id ∨ (second.session.bounds 0).holds handle = false
  have setsUp : SetsUp may module id written second third := by
    refine registerLocals_setsUp heldFunc (.inl rfl) (fun _ absent => .inr absent) ?_ written loc
    rw [sameFunc]
    exact bare
  have spared : ∀ struct : StructId, struct.index < second.session.structs.size →
      ¬ may (.struct struct) := by
    rintro struct heldStruct (isFunc | absent)
    · cases isFunc
    · exact of_decide_eq_false absent heldStruct
  have evolves := setsUp.moves.session
  have announcedThird : run.session.Announces written third.session :=
    announced.spared sameModules (evolves.persists.bounds 0).structs fun struct heldStruct =>
      evolves.spares.structs struct heldStruct (spared struct heldStruct)
  have isInbound : (third.session.funcAt id).inbound = inbound := by
    rw [(evolves.persists.funcs id heldFunc).inbound, sameFunc]
    exact drafted.isInbound
  have isOutbound : (third.session.funcAt id).outbound = outbound := by
    rw [(evolves.persists.funcs id heldFunc).outbound, sameFunc]
    exact drafted.isOutbound
  have slots : ∀ block ∈ (third.session.funcAt id).blocks,
      run.session.structs.size + 2 ≤ (third.session.blockAt block).vars.index := by
    intro block member
    refine Nat.le_trans announced.size (Nat.not_lt.mp fun old => ?_)
    exact spared _ old (setsUp.outfitted block member).2.2
  obtain ⟨value, session, edited, isAfter⟩ := register_clean clean
  rw [isAfter]
  exact ⟨announcedThird.addFunc_outlines integral.covered prelude isInbound isOutbound slots held
    edited, nodup⟩

end Pass

/-! ## Steps -/

namespace ConstantJob

variable {job : ConstantJob} {run next : Run}

/-- Folding a constant lists no struct and changes none. -/
theorem Folds.sameStructs (folds : Folds job run next) : run.session.SameStructs next.session := by
  rcases folds.session_cases with same | ⟨_, _, _, _, _, _, _, _, _, _, _, _, _, added, isNext⟩
  · rw [same]
    exact .refl _
  · obtain ⟨held, installs⟩ := Module.installs_of_added added
    rw [isNext]
    exact .setModule _ installs.lists.structs

end ConstantJob

namespace Step

variable {may : Handle → Prop} {run : Run} {step : Step} {module : ModuleId} {steps : List Step}

def registers : Step → Bool
  | declare _ | struct _ _ _ | func _ _ _ => true
  | _ => false

theorem wire_sameStructs (module : ModuleId) (spec : Manifest.Module) (name : String) (run : Run) :
    run.session.SameStructs ((wire module spec name).after run).session := by
  rw [after, pass, Pass.wireImport, Computation.run_bind, Computation.run_get_bind]
  split
  · exact (Pass.register_keeps (Edit.addImport_sameStructs module _) _ _ ⟨rfl, .refl _⟩).session
  · exact .refl _

theorem object_sameStructs (module : ModuleId) (spec : Manifest.Module) (name : String)
    (run : Run) : run.session.SameStructs ((object module spec name).after run).session := by
  let loc := Location.item run.file (spec.name ++ "/objects/" ++ name)
  let first := ((Pass.onSession (Session.allocObject name loc)).run run).2
  have allocated : run.session.SameStructs first.session := ⟨rfl, fun _ => rfl⟩
  change run.session.SameStructs ((Pass.register (.error loc)
    (Edit.addObject module ⟨run.session.objects.size⟩)).run first).2.session
  exact (Pass.register_keeps (Edit.addObject_sameStructs module _) _ first ⟨rfl, allocated⟩).session

theorem bind_sameOutlines (module : ModuleId) (run : Run) :
    run.session.SameOutlines ((bind module).after run).session :=
  Session.LastsBinding.bindStructs (Session.lastsBinding_sameOutlines run.session) (.refl _) _ _ _

/-- A step that registers no struct keeps the outlines. -/
theorem after_sameOutlines (silent : step.registers = false) :
    run.session.SameOutlines (step.after run).session := by
  cases step with
  | wire module spec name => exact (wire_sameStructs module spec name run).sameOutlines
  | object module spec name => exact (object_sameStructs module spec name run).sameOutlines
  | bind module => exact bind_sameOutlines module run
  | constant job => exact (job.after_folds run).sameStructs.sameOutlines
  | block slot =>
    exact (block_keeps run.session.SameStructs (fun same => ⟨same.structs, same.lists⟩)
      (.refl _)).sameOutlines
  | _ => cases silent

theorem outlines_silent (silent : step.registers = false) : step.outlines module = [] := by
  cases step with
  | declare _ | struct _ _ _ | func _ _ _ => cases silent
  | _ => rfl

theorem Takes.held_module (takes : step.Takes may run) (handles : step.handles = [.module module]) :
    module.index < run.session.modules.size := by
  have covers := takes.held
  rw [handles] at covers
  exact of_decide_eq_true (covers (.module module) (List.mem_singleton.mpr rfl))

/-- A step that reports no error adds to the outlines what it is for. -/
theorem after_outlines (orderly : run.Orderly) (takes : step.Takes may run)
    (declared : ∀ spec, step ≠ .declare spec) (clean : (step.after run).ErrorFree)
    (module : ModuleId) :
    (step.after run).session.outlines module =
      run.session.outlines module ++ step.outlines module := by
  cases silent : step.registers with
  | false =>
    rw [outlines_silent silent, List.append_nil]
    exact (after_sameOutlines silent).outlines module
  | true =>
    cases step with
    | declare spec => exact absurd rfl (declared spec)
    | struct owner spec written =>
      exact Pass.registerStruct_outlines orderly.integral orderly.furnished.held
        (takes.held_module rfl) clean module
    | func owner spec written =>
      exact (Pass.registerFunction_clean orderly.integral orderly.furnished.held
        (takes.held_module rfl) clean).1 module
    | _ => cases silent

/-! ## Many steps -/

theorem TakesAll.logs (all : TakesAll may steps run) : run.Logs (afterAll steps run) :=
  all.keeps run.Logs (.refl run) fun _ _ _ logs takes => logs.trans takes.entries

theorem TakesAll.sameOutlines (all : TakesAll may steps run)
    (silent : ∀ step ∈ steps, step.registers = false) :
    run.session.SameOutlines (afterAll steps run).session :=
  all.keeps (fun later => run.session.SameOutlines later.session) (.refl _)
    fun step member _ same _ => same.trans (after_sameOutlines (silent step member))

section

variable (orderly : run.Orderly) (all : TakesAll may steps run)
include orderly all

theorem TakesAll.clean (clean : (afterAll steps run).ErrorFree) :
    ∀ step ∈ steps, ∃ before : Run, before.Orderly ∧ step.Takes may before ∧
      (step.after before).ErrorFree := by
  induction steps generalizing run with
  | nil => exact List.forall_mem_nil _
  | cons step steps ih =>
    refine List.forall_mem_cons.mpr ⟨⟨run, orderly, all.1, all.2.logs.errorFree clean⟩, ?_⟩
    exact ih all.1.orderly all.2 clean

/-- Steps that report no error add to the outlines what they are for, in order. -/
theorem TakesAll.outlines (declared : ∀ step ∈ steps, ∀ spec, step ≠ .declare spec)
    (clean : (afterAll steps run).ErrorFree) (module : ModuleId) :
    (afterAll steps run).session.outlines module =
      run.session.outlines module ++ steps.flatMap (Step.outlines module) := by
  induction steps generalizing run with
  | nil => exact (List.append_nil _).symm
  | cons step steps ih =>
    obtain ⟨isFirst, others⟩ := List.forall_mem_cons.mp declared
    have first := after_outlines orderly all.1 isFirst (all.2.logs.errorFree clean) module
    have rest := ih all.1.orderly all.2 others clean
    rw [List.flatMap_cons, ← List.append_assoc, ← first]
    exact rest

end

/-! ## Modules -/

/-- Modules start out without structs of their own. -/
theorem declares_outlines (supplied : run.session.Supplied) (specs : List Manifest.Module)
    (module : ModuleId) :
    (afterAll (specs.map declare) run).session.outlines module = run.session.outlines module := by
  induction specs generalizing run with
  | nil => rfl
  | cons spec specs ih =>
    have rest := ih (supplied_declare supplied spec)
    rw [session_declare, supplied.declare_outlines] at rest
    exact rest

end Step

namespace Manifest

variable {manifest : Manifest} {index : Nat} {spec : Manifest.Module}

/-- The modules before and after one of them have other handles. -/
theorem numbered_split (isModule : manifest.modules[index]? = some spec) :
    ∃ earlier later, manifest.numbered = earlier ++ (⟨index⟩, spec) :: later ∧
      (∀ module ∈ earlier, module.1 ≠ ⟨index⟩) ∧ ∀ module ∈ later, module.1 ≠ ⟨index⟩ := by
  obtain ⟨bound, isSpec⟩ := List.getElem?_eq_some_iff.mp isModule
  have split : manifest.modules =
      manifest.modules.take index ++ spec :: manifest.modules.drop (index + 1) := by
    rw [← isSpec, List.cons_getElem_drop_succ, List.take_append_drop]
  have length : (manifest.modules.take index).length = index :=
    List.length_take_of_le (Nat.le_of_lt bound)
  refine ⟨(manifest.modules.take index).zipIdx.map fun place => (⟨place.2⟩, place.1),
    ((manifest.modules.drop (index + 1)).zipIdx (index + 1)).map
      fun place => (⟨place.2⟩, place.1), ?_, ?_, ?_⟩
  · rw [numbered]
    conv => lhs; rw [split]
    rw [List.zipIdx_append, List.zipIdx_cons, List.map_append, List.map_cons, length, Nat.zero_add]
  · intro module member
    obtain ⟨⟨other, place⟩, isOther, rfl⟩ := List.mem_map.mp member
    obtain ⟨_, below, _⟩ := List.mem_zipIdx isOther
    rw [length] at below
    intro same
    cases same
    omega
  · intro module member
    obtain ⟨⟨other, place⟩, isOther, rfl⟩ := List.mem_map.mp member
    obtain ⟨above, _⟩ := List.mem_zipIdx isOther
    intro same
    cases same
    omega

/-- What only one module contributes to. -/
theorem numbered_flatMap {β : Type} (isModule : manifest.modules[index]? = some spec)
    {part : ModuleId × Manifest.Module → List β}
    (others : ∀ module, module.1 ≠ ⟨index⟩ → part module = []) :
    manifest.numbered.flatMap part = part (⟨index⟩, spec) := by
  obtain ⟨earlier, later, isNumbered, before, after⟩ := numbered_split isModule
  rw [isNumbered, List.flatMap_append, List.flatMap_cons,
    List.flatMap_eq_nil_iff.mpr fun module member => others module (before module member),
    List.flatMap_eq_nil_iff.mpr fun module member => others module (after module member),
    List.nil_append, List.append_nil]

theorem definitions_outlines (module : ModuleId × Manifest.Module) (id : ModuleId) :
    (Step.definitions module).flatMap (Step.outlines id) =
      if id = module.1 then module.2.outlines else [] := by
  rw [Step.definitions, List.flatMap_append, List.flatMap_append, List.flatMap_map,
    List.flatMap_map, List.flatMap_map]
  by_cases same : id = module.1
  · simp [Step.outlines, same, Module.outlines, ← List.map_eq_flatMap]
  · simp [Step.outlines, same]

end Manifest

namespace Run

variable {manifest : Manifest} {file : String} {index : Nat} {spec : Manifest.Module}

theorem declared_outlines (module : ModuleId) :
    (declared manifest file).session.outlines module = [] := by
  rw [declared_eq, Step.declares_outlines (Session.supplied_ofTarget manifest.settings.target)]
  rfl

/-- A run without errors had none at any stage. -/
theorem stages_clean (clean : (ofManifest manifest file).ErrorFree) :
    (registered manifest file).ErrorFree ∧ (bound manifest file).ErrorFree ∧
      (folded manifest file).ErrorFree := by
  rw [ofManifest_eq] at clean
  have cleanFolded := (blocks_taken manifest file).logs.errorFree clean
  have cleanBound := (folded_taken manifest file).1.logs.errorFree cleanFolded
  exact ⟨(bound_taken manifest file).1.logs.errorFree cleanBound, cleanBound, cleanFolded⟩

theorem registration_outlines (isModule : manifest.modules[index]? = some spec) :
    manifest.registration.flatMap (Step.outlines ⟨index⟩) = spec.outlines := by
  rw [manifest.registration_flatMap fun _ _ _ => rfl, List.flatMap_assoc,
    Manifest.numbered_flatMap isModule fun module different => ?_, Manifest.definitions_outlines,
    if_pos rfl]
  rw [Manifest.definitions_outlines, if_neg different.symm]

/-- Registration without errors leaves the outlines of the manifest. -/
theorem registered_outlines (clean : (registered manifest file).ErrorFree)
    (isModule : manifest.modules[index]? = some spec) :
    (registered manifest file).session.outlines ⟨index⟩ = spec.outlines := by
  have orderly := (declared_taken manifest file).2.1
  have taken := (registered_taken manifest file).1
  have registers := taken.outlines orderly (fun step member spec isDeclare => ?_) clean ⟨index⟩
  · rw [declared_outlines, List.nil_append, registration_outlines isModule] at registers
    exact registers
  · have within := manifest.within_registration step member
    rw [isDeclare] at within
    exact within

/-- Nothing after the registration changes an outline. -/
theorem ofManifest_sameOutlines (manifest : Manifest) (file : String) :
    (bound manifest file).session.SameOutlines (ofManifest manifest file).session ∧
      (registered manifest file).session.SameOutlines (bound manifest file).session := by
  have binds := (bound_taken manifest file).1.sameOutlines (List.forall_mem_map.mpr fun _ _ => rfl)
  have folds := (folded_taken manifest file).1.sameOutlines (List.forall_mem_map.mpr fun _ _ => rfl)
  have blocks := (blocks_taken manifest file).sameOutlines (List.forall_mem_map.mpr fun _ _ => rfl)
  rw [← ofManifest_eq] at blocks
  exact ⟨folds.trans blocks, binds⟩

/-- A run without errors ends with the outlines of the manifest. -/
theorem ofManifest_outlines (clean : (ofManifest manifest file).ErrorFree)
    (isModule : manifest.modules[index]? = some spec) :
    (ofManifest manifest file).session.outlines ⟨index⟩ = spec.outlines := by
  obtain ⟨later, binds⟩ := ofManifest_sameOutlines manifest file
  rw [later.outlines, binds.outlines]
  exact registered_outlines (stages_clean clean).1 isModule

end Run

end Assay
