import Assay.Proofs.Check.Outlines
import Assay.Proofs.Scope.Extension

/-!
Contract: registration in a run that has further modules.
-/

namespace Assay

open Assay.Computation

/-- The second run has the modules `added` besides the first `count`, and is otherwise the first
one. -/
structure Run.Beside (count : Nat) (added : List (ModuleId × Manifest.Module)) (first second : Run) :
    Prop where
  file : second.file = first.file
  session : Session.Beside count first.session second.session
  modules : second.modules = first.modules ++ added
  held : ∀ entry ∈ first.modules, entry.1.index < count
  blocks : second.blocks = first.blocks

namespace Pass

open Run (Beside)

variable {α β : Type} {count : Nat} {added : List (ModuleId × Manifest.Module)} {module : ModuleId}
  {name : String}

abbrev Mirrored (count : Nat) (added : List (ModuleId × Manifest.Module)) (pass : Pass α) : Prop :=
  Mirrors (Beside count added) id pass pass

/-! ## Steps of a pass -/

theorem place_mirrored (path : String) : Mirrored count added (place path) :=
  fun _ _ beside => ⟨congrArg (fun file => Location.item file path) beside.file, beside⟩

theorem report_mirrored (entries : List Entry) : Mirrored count added (report entries) :=
  fun _ _ beside =>
    ⟨rfl, beside.file, beside.session, beside.modules, beside.held, beside.blocks⟩

theorem onSession_mirrored {image : α → β} {action : StateM Session α} {shown : StateM Session β}
    (mirrors : Mirrors (Session.Beside count) image action shown) :
    Mirrors (Beside count added) image (onSession action) (onSession shown) := by
  intro first second beside
  obtain ⟨same, session⟩ := mirrors first.session second.session beside.session
  exact ⟨same, beside.file, session, beside.modules, beside.held, beside.blocks⟩

theorem register_mirrored {edit : Edit α} (mirrored : Edit.Mirrored (Session.Beside count) edit)
    (refusal : Fault → Entry) : Mirrored count added (register refusal edit) := by
  refine Mirrors.bind (onSession_mirrored mirrored) fun outcome => ?_
  cases outcome with
  | ok value => exact Mirrors.pure id _
  | error fault => exact report_mirrored _

/-! ## Registration -/

/-- A name that no further module has leads to the same module in both runs. -/
theorem declared?_beside {first second : Run} (beside : Beside count added first second)
    (absent : ∀ entry ∈ added, entry.2.name ≠ name) :
    declared? second name = declared? first name := by
  have notFound : added.find? (fun entry => decide (entry.2.name = name)) = none :=
    List.find?_eq_none.mpr fun entry member => by simpa using absent entry member
  rw [declared?, declared?, beside.modules, List.find?_append]
  change (Option.or _ (added.find? fun entry => decide (entry.2.name = name))).map Prod.fst = _
  rw [notFound, Option.or_none]

section

variable (held : module.index < count) (spec : Manifest.Module)
include held spec

theorem wireImport_mirrored (absent : ∀ entry ∈ added, entry.2.name ≠ name) :
    Mirrored count added (wireImport module spec name) := by
  refine Mirrors.bind (place_mirrored _) fun loc => ?_
  refine Mirrors.get_bind fun first second beside => ?_
  rw [declared?_beside beside absent]
  cases isDeclared : declared? first name with
  | none => exact report_mirrored _
  | some imported =>
    obtain ⟨entry, isEntry, rfl⟩ := Option.map_eq_some_iff.mp isDeclared
    exact register_mirrored (Edit.addImport_mirrored held
      (beside.held entry (List.mem_of_find?_eq_some isEntry))) _

theorem registerObject_mirrored (name : String) :
    Mirrored count added (registerObject module spec name) :=
  Mirrors.bind (place_mirrored _) fun loc =>
    Mirrors.bind (onSession_mirrored (Session.Beside.allocObject name loc)) fun object =>
      register_mirrored (Edit.addObject_mirrored held object) _

theorem registerStruct_mirrored (struct : Manifest.Struct) :
    Mirrored count added (registerStruct module spec struct) := by
  refine Mirrors.bind (place_mirrored _) fun loc => ?_
  refine Mirrors.bind (onSession_mirrored (Session.Beside.allocStruct _ _ _)) fun id => ?_
  refine Mirrors.bind (.forM fun member _ => ?_) fun _ => ?_
  · exact register_mirrored (Edit.addMember_mirrored id _ _) _
  · exact register_mirrored (Edit.addStruct_mirrored held id) _

end

theorem registerLocals_mirrored (module : ModuleId) (owner : FuncId) (func : Manifest.Func)
    (loc : Location) : Mirrored count added (registerLocals module owner func loc) := by
  unfold registerLocals
  split
  · exact Mirrors.pure id _
  · refine Mirrors.bind (onSession_mirrored (Session.Beside.allocBlock _ _)) fun block => ?_
    refine Mirrors.bind (.forM fun slot _ => ?_) fun _ => ?_
    · exact register_mirrored (Edit.addLocal_mirrored block _ _) _
    · have attaches : Mirrored count added (onSession
          (modify fun session => session.attachBlock owner .mainline block)) :=
        onSession_mirrored fun _ _ beside => ⟨rfl, beside.attachBlock owner .mainline block⟩
      refine Mirrors.bind attaches fun _ first second beside => ?_
      exact ⟨rfl, beside.file, beside.session, beside.modules, beside.held,
        congrArg (fun blocks => blocks ++ _) beside.blocks⟩

theorem registerFunction_mirrored (held : module.index < count) (spec : Manifest.Module)
    (func : Manifest.Func) : Mirrored count added (registerFunction module spec func) := by
  refine Mirrors.bind (place_mirrored _) fun loc => ?_
  refine Mirrors.bind (onSession_mirrored (Session.Beside.allocFunc _ _)) fun id => ?_
  refine Mirrors.bind (.forM fun parameter _ => ?_) fun _ => ?_
  · exact register_mirrored (Edit.addInbound_mirrored id _ _) _
  refine Mirrors.bind (.forM fun parameter _ => ?_) fun _ => ?_
  · exact register_mirrored (Edit.addOutbound_mirrored id _ _) _
  refine Mirrors.bind (registerLocals_mirrored module id func loc) fun _ => ?_
  exact register_mirrored (Edit.addFunc_mirrored held id) _

end Pass

/-! ## Steps of a run -/

namespace Step

open Run (Beside)

variable {count : Nat} {added modules : List (ModuleId × Manifest.Module)} {first second : Run}

theorem imports_beside (held : ∀ module ∈ modules, module.1.index < count)
    (absent : ∀ module ∈ modules, ∀ entry ∈ added, entry.2.name ∉ module.2.imports)
    (beside : Beside count added first second) :
    Beside count added (afterAll (modules.flatMap imports) first)
      (afterAll (modules.flatMap imports) second) := by
  refine afterAll_relates (List.forall_mem_flatMap.mpr fun module isModule =>
    forall_imports fun name isName first second beside => ?_) beside
  have other : ∀ entry ∈ added, entry.2.name ≠ name :=
    fun entry isEntry same => absent module isModule entry isEntry (same ▸ isName)
  exact (Pass.wireImport_mirrored (held module isModule) module.2 other first second beside).2

theorem definitions_beside (held : ∀ module ∈ modules, module.1.index < count)
    (beside : Beside count added first second) :
    Beside count added (afterAll (modules.flatMap definitions) first)
      (afterAll (modules.flatMap definitions) second) := by
  refine afterAll_relates (List.forall_mem_flatMap.mpr fun module isModule => ?_) beside
  have heldModule := held module isModule
  refine forall_definitions ?_ ?_ ?_
  · intro name _ first second beside
    exact (Pass.registerObject_mirrored heldModule module.2 name first second beside).2
  · intro struct _ first second beside
    exact (Pass.registerStruct_mirrored heldModule module.2 struct first second beside).2
  · intro func _ first second beside
    exact (Pass.registerFunction_mirrored heldModule module.2 func first second beside).2

/-! Further modules -/

theorem wire_beyond {module : ModuleId} (beyond : count ≤ module.index) (spec : Manifest.Module)
    (name : String) (beside : Beside count added first second) :
    Beside count added first ((wire module spec name).after second) := by
  have silent : ∀ session, Session.Beside count first.session session → ∀ entries,
      Beside count added first (Run.reporting { second with session := session } entries) :=
    fun session kept _ => ⟨beside.file, kept, beside.modules, beside.held, beside.blocks⟩
  rw [after, pass, Pass.wireImport, run_bind, run_get_bind]
  split
  · next imported _ =>
    let loc := Location.item second.file (spec.name ++ "/imports/" ++ name)
    change Beside count added first
      ((Pass.register (.error loc) (Edit.addImport module imported)).run second).2
    obtain ⟨entries, isNext, _⟩ :=
      Pass.register_run (.error loc) (Edit.addImport module imported) second
    rw [isNext]
    exact silent _ (Edit.addImport_beyond beyond imported second.session beside.session) entries
  · exact silent second.session beside.session _

/-- A module is declared besides those that a run has. -/
theorem declare_beside {run : Run} (stocked : run.session.Stocked)
    (held : ∀ entry ∈ run.modules, entry.1.index < run.session.modules.size)
    (spec : Manifest.Module) :
    Beside run.session.modules.size [(⟨run.session.modules.size⟩, spec)] run
      ((declare spec).after run) := by
  obtain ⟨entries, isNext, _⟩ := Pass.declareModule_run spec run
  rw [show (declare spec).after run = _ from isNext]
  refine ⟨rfl, ?_, rfl, held, rfl⟩
  have allocated : Session.Beside run.session.modules.size run.session
      ((Session.allocModule spec.name (.item run.file spec.name)).run run.session).2 :=
    .pushModule run.session
      { own := ⟨run.session.modules.size⟩, name := spec.name, loc := .item run.file spec.name } rfl
  exact Edit.installPrelude_beyond (Nat.le_refl _) stocked _ allocated

end Step

end Assay
