import Assay.Proofs.Check.Moves
import Assay.Proofs.Scope.References

/-!
Contract: the passes before the first expression change a session by strict alterations.
-/

namespace Assay

open Assay.Computation

open Session (Changes Takeable)

/-! ## Declarations -/

/-- A new module takes the runtime strings, and the others keep them. -/
theorem Session.Registered.declare {session : Session} (registered : session.Registered)
    (supplied : session.Supplied) (name : String) (loc : Location) :
    (session.declare name loc).Registered := by
  obtain ⟨evolves, _, _, size⟩ :=
    supplied.declare (fun _ _ => trivial) (fun _ _ => .inl trivial) name loc
  have persists := (evolves 0).persists
  obtain ⟨_, takes, _⟩ := supplied.installs name loc
  refine ⟨Nat.lt_of_lt_of_le registered.allocated (persists.bounds 0).structs,
    (persists.structs _ registered.allocated).name.trans registered.name, fun id held => ?_⟩
  by_cases isNew : id = ⟨session.modules.size⟩
  · rw [isNew, Module.struct?, takes.structs, moduleAt_allocModule, if_pos rfl]
    show List.lookup _ ((_, Prelude.string) :: _) = _
    rw [show (((allocModule name loc).run session).2.structAt Prelude.string).name = _ from
      registered.name]
    exact List.lookup_cons_self
  · have older : id.index ≠ session.modules.size := fun same => isNew (congrArg ModuleId.mk same)
    rw [takes.modules id isNew, moduleAt_allocModule, if_neg older]
    exact registered.modules (by omega)

/-! ## Parameters -/

namespace Session

variable {module : ModuleId} {session : Session} {func : FuncId}

def Registrable (module : ModuleId) (func : FuncId) (session : Session) : Prop :=
  session.Takeable module (session.funcAt func).inbound ∧
    session.Takeable module (session.funcAt func).outbound

theorem takeable_of_unowned {id : StructId} (held : id.index < session.structs.size)
    (unowned : (session.structAt id).owner = none) : session.Takeable module id := by
  refine .inr ⟨held, fun scope owner => ?_⟩
  rw [unowned] at owner
  cases owner

theorem allocStruct_takeable (session : Session) (module : ModuleId) (name : String) (loc : Location)
    (packed : Bool) :
    ((allocStruct name loc packed).run session).2.Takeable module ⟨session.structs.size⟩ := by
  obtain ⟨held, isNew⟩ := allocStruct_fresh name loc packed session
  exact takeable_of_unowned held (congrArg Struct.owner isNew)

theorem allocFunc_registrable (session : Session) (module : ModuleId) (name : String)
    (loc : Location) :
    ((allocFunc name loc).run session).2.Registrable module ⟨session.funcs.size⟩ := by
  have drafted := (allocFunc_drafted name loc session).1
  have unowned := allocFunc_unowned name loc session
  have takeable : ∀ params ∈ [⟨session.structs.size⟩, ⟨session.structs.size + 1⟩],
      ((allocFunc name loc).run session).2.Takeable module params :=
    fun params member =>
      takeable_of_unowned (unowned params member).1 (unowned params member).2
  rw [Registrable, drafted.isInbound, drafted.isOutbound]
  exact ⟨takeable _ (by simp), takeable _ (by simp)⟩

theorem allocBlock_registrable (name : String) (loc : Location) :
    Keeps (Registrable module func) (allocBlock (some name) loc) := by
  intro session registrable
  rw [allocBlock_run]
  have pushed : ∀ id, session.Takeable module id →
      ({ session with
        structs := session.structs.push
          { name := name, loc := loc, owner := some (.block ⟨session.blocks.size⟩) } } :
            Session).Takeable module id := by
    intro id takeable
    refine takeable.imp_right fun ⟨held, owned⟩ =>
      ⟨Nat.lt_of_lt_of_le held (by simp), fun scope owner => owned scope ?_⟩
    rw [structAt, getD_push held] at owner
    exact owner
  exact ⟨pushed _ registrable.1, pushed _ registrable.2⟩

theorem Registrable.attachBlock (registrable : session.Registrable module func) (other : FuncId)
    (role : BlockRole) (block : BlockId) :
    (session.attachBlock other role block).Registrable module func := by
  have params : ((session.attachBlock other role block).funcAt func).inbound =
      (session.funcAt func).inbound ∧ ((session.attachBlock other role block).funcAt func).outbound =
        (session.funcAt func).outbound := by
    rw [Session.attachBlock, funcAt_modifyFunc]
    split
    · cases role <;> exact ⟨rfl, rfl⟩
    · exact ⟨rfl, rfl⟩
  rw [Registrable, params.1, params.2]
  exact registrable

end Session

structure Session.Prepares (base : Session) (module : ModuleId) (func : FuncId) (session : Session) :
    Prop where
  changes : Changes True .registration base session
  registrable : session.Registrable module func

theorem Edit.prepares_addMember {base session : Session} {module : ModuleId} {func : FuncId}
    {id : StructId} {name : String} {ty : Ty} {struct : Struct}
    (prepares : base.Prepares module func session)
    (added : (session.structAt id).addMember name ty = .ok struct) :
    base.Prepares module func (session.setStruct id struct) :=
  ⟨changes_addMember prepares.changes added, takeable_addMember prepares.registrable.1 added,
    takeable_addMember prepares.registrable.2 added⟩

/-! ## Passes -/

namespace Pass

variable {α : Type} {run : Run} {arena : Arena} {base : Session} {module : ModuleId} {func : FuncId}

theorem register_early {edit : Edit α} {refusal : Fault → Entry}
    (early : run.Early arena (Changes True .registration base))
    (next : Changes True .registration run.session (edit.run.run run.session).2) :
    Run.Early arena (Changes True .registration base) ((register refusal edit).run run).2 := by
  obtain ⟨entries, isNext, _⟩ := register_run refusal edit run
  rw [isNext]
  exact ⟨early.arena_eq, early.session.trans next⟩

/-- The module is added first. -/
theorem declareModule_early (consistent : run.session.Consistent) (spec : Manifest.Module) :
    Run.Early run.arena (Changes True .registration ((Session.allocModule spec.name
      (.item run.file spec.name)).run run.session).2) ((declareModule spec).run run).2 := by
  obtain ⟨entries, isNext, _⟩ := declareModule_run spec run
  rw [isNext]
  have first : Session.Alters False .registration run.session
      ((Session.allocModule spec.name (.item run.file spec.name)).run run.session).2 :=
    .pushModule id spec.name _
  have held : run.session.modules.size < ((Session.allocModule spec.name
      (.item run.file spec.name)).run run.session).2.modules.size :=
    Nat.lt_of_lt_of_eq (Nat.lt_succ_self _) (Array.size_push _).symm
  exact ⟨rfl, Edit.installPrelude_changes (first.consistent consistent) held _ .refl⟩

theorem wireImport_early (module : ModuleId) (spec : Manifest.Module) (name : String) :
    Keeps (Run.Early arena (Changes True .registration base)) (wireImport module spec name) := by
  refine (place_keeps _).bind fun loc => .get_bind fun run early => ?_
  split
  · next imported _ => exact register_keeps (Edit.addImport_changes module imported) _ run early
  · exact ⟨early.arena_eq, early.session⟩

theorem registerObject_early (module : ModuleId) (spec : Manifest.Module) (name : String) :
    Keeps (Run.Early arena (Changes True .registration base)) (registerObject module spec name) :=
  (place_keeps _).bind fun loc => (onSession_keeps fun _ changes =>
    changes.tail (.pushObject name loc)).bind fun object =>
      register_keeps (Edit.addObject_changes module object) _

theorem registerStruct_early (consistent : run.session.Consistent)
    (held : module.index < run.session.modules.size)
    (spec : Manifest.Module) (struct : Manifest.Struct) :
    Run.Early run.arena (Changes True .registration run.session)
      ((registerStruct module spec struct).run run).2 := by
  let loc := Location.item run.file (spec.name ++ "/structs/" ++ struct.name)
  let id : StructId := ⟨run.session.structs.size⟩
  let inv : Session → Prop := fun next =>
    Changes True .registration run.session next ∧ next.Takeable module id
  let first := ((onSession (Session.allocStruct struct.name loc struct.packed)).run run).2
  have allocated : first.Early run.arena inv :=
    ⟨rfl, .single (.pushStruct struct.name loc struct.packed),
      run.session.allocStruct_takeable module _ _ _⟩
  have members : Keeps (Run.Early run.arena inv) (struct.members.forM fun member =>
      register (.error loc) (Edit.addMember id member.name (.ofName member.type loc))) :=
    .forM fun member _ => register_keeps (Edit.addMember_keeps fun holds added =>
      ⟨Edit.changes_addMember holds.1 added, Edit.takeable_addMember holds.2 added⟩) _
  obtain ⟨isArena, changes, takeable⟩ := members first allocated
  exact register_early ⟨isArena, changes⟩ (Edit.addStruct_changes
    (fun _ => changes.consistent consistent)
    (Nat.lt_of_lt_of_le held changes.upholds.modules_size) fun _ => takeable)

theorem registerLocals_early (module : ModuleId) (id : FuncId) (written : Manifest.Func)
    (loc : Location) :
    Keeps (Run.Early arena (base.Prepares module func)) (registerLocals module id written loc) := by
  rw [registerLocals]
  split
  · exact .pure _
  · refine (onSession_keeps fun session prepares => ?_).bind fun block => ?_
    · exact ⟨prepares.changes.trans (session.allocBlock_changes _ loc),
        Session.allocBlock_registrable _ loc session prepares.registrable⟩
    refine Keeps.bind (.forM fun slot _ => ?_) fun _ => ?_
    · exact register_keeps (Edit.addLocal_keeps Edit.prepares_addMember block) _
    · refine (onSession_keeps fun session prepares => ?_).bind fun _ => ?_
      · exact ⟨prepares.changes.tail (.attach id .mainline block),
          prepares.registrable.attachBlock id .mainline block⟩
      · exact fun _ early => ⟨early.arena_eq, early.session⟩

theorem registerFunction_early (consistent : run.session.Consistent)
    (held : module.index < run.session.modules.size)
    (spec : Manifest.Module) (written : Manifest.Func) :
    Run.Early run.arena (Changes True .registration run.session)
      ((registerFunction module spec written).run run).2 := by
  let loc := Location.item run.file (spec.name ++ "/functions/" ++ written.name)
  let id : FuncId := ⟨run.session.funcs.size⟩
  let first : Run := { run with
    session := ((Session.allocFunc written.name loc).run run.session).2 }
  have allocated : first.Early run.arena (run.session.Prepares module id) :=
    ⟨rfl, run.session.allocFunc_changes written.name loc,
      run.session.allocFunc_registrable module written.name loc⟩
  have declared : Keeps (Run.Early run.arena (run.session.Prepares module id)) (do
      addInbounds id written.inbound loc
      addOutbounds id written.outbound loc
      registerLocals module id written loc) := by
    refine Keeps.bind (.forM fun slot _ => ?_) fun _ => Keeps.bind (.forM fun slot _ => ?_) fun _ => ?_
    · exact register_keeps (Edit.addInbound_keeps Edit.prepares_addMember id) _
    · exact register_keeps (Edit.addOutbound_keeps Edit.prepares_addMember id) _
    · exact registerLocals_early module id written loc
  obtain ⟨isArena, changes, registrable⟩ := declared first allocated
  exact register_early ⟨isArena, changes⟩ (Edit.addFunc_changes
    (fun _ => changes.consistent consistent)
    (Nat.lt_of_lt_of_le held changes.upholds.modules_size) fun _ => registrable)

end Pass

end Assay
