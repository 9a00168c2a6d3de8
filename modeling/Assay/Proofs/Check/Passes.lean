import Assay.Check.Run
import Assay.Proofs.Scope.Growth

/-!
Contract: what a registration and the declaration of a module make of a run.
-/

namespace Assay

open Assay.Computation

def Session.declare (session : Session) (name : String) (loc : Location) : Session :=
  let allocated := ((Session.allocModule name loc).run session).2
  ((Edit.installPrelude ⟨session.modules.size⟩).run.run allocated).2

structure Run.Early (arena : Arena) (inv : Session → Prop) (run : Run) : Prop where
  arena_eq : run.arena = arena
  session : inv run.session

def Run.reporting (run : Run) (entries : List Entry) : Run :=
  { run with log := run.log.recordAll entries }

namespace Pass

variable {α : Type} {arena : Arena} {inv : Session → Prop}

/-! ## Steps -/

theorem place_keeps {inv : Run → Prop} (path : String) : Keeps inv (place path) :=
  fun _ holds => holds

theorem onSession_run (action : StateM Session α) (run : Run) :
    (onSession action).run run =
      ((action.run run.session).1, { run with session := (action.run run.session).2 }) :=
  rfl

theorem register_ok {edit : Edit α} {run : Run} {value : α} {session : Session}
    (edited : edit.run.run run.session = (.ok value, session)) (refusal : Fault → Entry) :
    ((register refusal edit).run run).2 = { run with session := session } := by
  rw [register, run_bind, onSession_run, edited]
  rfl

theorem register_error {edit : Edit α} {run : Run} {fault : Fault} {session : Session}
    (edited : edit.run.run run.session = (.error fault, session)) (refusal : Fault → Entry) :
    ((register refusal edit).run run).2 =
      Run.reporting { run with session := session } [refusal fault] := by
  rw [register, run_bind, onSession_run, edited]
  rfl

/-- A registration changes the session, and adds a message if it fails. -/
theorem register_run (refusal : Fault → Entry) (edit : Edit α) (run : Run) :
    ∃ entries, ((register refusal edit).run run).2 =
        Run.reporting { run with session := (edit.run.run run.session).2 } entries ∧
      ∀ entry ∈ entries, ∃ fault, entry = refusal fault ∧
        (edit.run.run run.session).1 = .error fault := by
  rcases edited : edit.run.run run.session with ⟨fault | value, session⟩
  · exact ⟨[refusal fault], register_error edited refusal,
      List.forall_mem_singleton.mpr ⟨fault, rfl, rfl⟩⟩
  · exact ⟨[], register_ok edited refusal, List.forall_mem_nil _⟩

/-- What an edit keeps of a session, its registration keeps of a run. -/
theorem register_keeps {edit : Edit α} (keeps : Stopping.Keeps inv edit) (refusal : Fault → Entry) :
    Keeps (Run.Early arena inv) (register refusal edit) := by
  intro run early
  obtain ⟨entries, isNext, _⟩ := register_run refusal edit run
  rw [isNext]
  exact ⟨early.arena_eq, keeps run.session early.session⟩

theorem onSession_keeps {action : StateM Session α} (keeps : Keeps inv action) :
    Keeps (Run.Early arena inv) (onSession action) :=
  fun run early => ⟨early.arena_eq, keeps run.session early.session⟩

/-! ## Declarations -/

/-- Declaring a module gives it the next handle. A name that is taken is reported. -/
theorem declareModule_run (spec : Manifest.Module) (run : Run) :
    let loc := Location.item run.file spec.name
    let allocated := ((Session.allocModule spec.name loc).run run.session).2
    ∃ entries, ((declareModule spec).run run).2 = Run.reporting { run with
          session := run.session.declare spec.name loc
          modules := run.modules ++ [(⟨run.session.modules.size⟩, spec)] } entries ∧
      ∀ entry ∈ entries, entry = .error loc (.duplicateDefinition spec.name) ∨ ∃ fault,
        ((Edit.installPrelude ⟨run.session.modules.size⟩).run.run allocated).1 = .error fault := by
  intro loc allocated
  have declares : ∀ first : List Entry, ∃ entries, ((do
      let module ← onSession (Session.allocModule spec.name loc)
      register (.internal loc) (Edit.installPrelude module)
      modify fun run : Run => { run with modules := run.modules ++ [(module, spec)] } :
        Pass Unit).run (run.reporting first)).2 =
        Run.reporting { run with
          session := run.session.declare spec.name loc
          modules := run.modules ++ [(⟨run.session.modules.size⟩, spec)] } (first ++ entries) ∧
      ∀ entry ∈ entries, ∃ fault,
        ((Edit.installPrelude ⟨run.session.modules.size⟩).run.run allocated).1 = .error fault := by
    intro first
    obtain ⟨entries, isNext, refused⟩ := register_run (.internal loc)
      (Edit.installPrelude ⟨run.session.modules.size⟩)
      { run.reporting first with session := allocated }
    refine ⟨entries, ?_, fun entry member => (refused entry member).imp fun _ => And.right⟩
    rw [run_bind, run_bind, onSession_run]
    refine (congrArg (fun run : Run =>
      ({ run with modules := run.modules ++ [(⟨_⟩, spec)] } : Run)) isNext).trans ?_
    simp only [Run.reporting, Log.recordAll_append]
    rfl
  have placed : (place spec.name).run run = (loc, run) := rfl
  rw [declareModule, run_bind, placed]
  dsimp only
  rw [run_get_bind]
  split
  · obtain ⟨entries, isNext, refused⟩ :=
      declares [.error loc (.duplicateDefinition spec.name)]
    exact ⟨_, isNext, List.forall_mem_cons.mpr
      ⟨.inl rfl, fun entry member => .inr (refused entry member)⟩⟩
  · obtain ⟨entries, isNext, refused⟩ := declares []
    exact ⟨entries, isNext, fun entry member => .inr (refused entry member)⟩

/-! ## Passes -/

/-- The passes between the declaration of modules and the folding of constants. Says whether the
run may go on. -/
def bindDeclared (modules : List (ModuleId × Manifest.Module)) : Pass Bool := do
  modules.forM fun (module, spec) => spec.imports.forM (wireImport module spec)
  modules.forM fun (module, spec) => registerDefinitions module spec
  bindModules modules

end Pass

end Assay
