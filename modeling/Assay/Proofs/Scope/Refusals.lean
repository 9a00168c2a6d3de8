import Assay.Proofs.Scope.Bookkeeping

/-!
Contract: what a refused operation leaves behind.
-/

namespace Assay

open Stopping

/-! ## Clean computations -/

namespace Stopping

variable {σ ε α β : Type}

def stop? (computation : ExceptT ε (StateM σ) α) (state : σ) : Option ε :=
  match (computation.run.run state).1 with
  | .error stop => some stop
  | .ok _ => none

def Clean (computation : ExceptT ε (StateM σ) α) : Prop :=
  ∀ state stop, stop? computation state = some stop → (computation.run.run state).2 = state

theorem stop?_eq_none {computation : ExceptT ε (StateM σ) α} {state after : σ} {value : α}
    (done : computation.run.run state = (.ok value, after)) : stop? computation state = none := by
  rw [stop?, done]

theorem Clean.get_bind {next : σ → ExceptT ε (StateM σ) β}
    (clean : ∀ state, Clean (next state)) : Clean (get >>= next) :=
  fun state => clean state state

theorem Clean.throw (stop : ε) : Clean (throw stop : ExceptT ε (StateM σ) α) :=
  fun _ _ _ => rfl

/-- What follows a clean computation may change the state if it does not stop. -/
theorem Clean.bind {first : ExceptT ε (StateM σ) α} {next : α → ExceptT ε (StateM σ) β}
    (clean : Clean first) (onwards : ∀ value state, stop? (next value) state = none) :
    Clean (first >>= next) := by
  intro state stop stops
  have cleanHere := clean state
  rw [stop?, run_bind] at stops
  rw [run_bind]
  rw [stop?] at cleanHere
  generalize first.run.run state = outcome at stops cleanHere ⊢
  obtain ⟨result, middle⟩ := outcome
  cases result with
  | error earlier => exact cleanHere earlier rfl
  | ok value =>
    have goesOn := onwards value middle
    rw [stop?] at goesOn
    simp [goesOn] at stops

end Stopping

namespace Edit

open Stopping (Clean)

theorem changeModule_clean (module : ModuleId) (change : Module → Except Fault Module) :
    Clean (changeModule module change) := by
  intro session fault refused
  cases changed : change (session.moduleAt module) with
  | error other => rw [changeModule_error change changed]
  | ok after =>
    rw [stop?_eq_none (changeModule_ok change changed)] at refused
    cases refused

theorem changeStruct_clean (id : StructId) (change : Struct → Except Fault Struct) :
    Clean (changeStruct id change) := by
  intro session fault refused
  cases changed : change (session.structAt id) with
  | error other => rw [changeStruct_error change changed]
  | ok after =>
    rw [stop?_eq_none (changeStruct_ok change changed)] at refused
    cases refused

theorem addMember_clean (id : StructId) (name : String) (ty : Ty) : Clean (addMember id name ty) :=
  .get_bind fun _ => (changeStruct_clean id _).bind fun _ _ => rfl

theorem addParameter_clean (func : FuncId) (params : StructId) (name : String) (ty : Ty) :
    Clean (addParameter func params name ty) := by
  refine .get_bind fun session => ?_
  by_cases taken : hasParameter session func name = true
  · rw [if_pos taken]
    exact .get_bind fun _ => .throw _
  · rw [if_neg taken]
    exact addMember_clean params name ty

theorem addInbound_clean (func : FuncId) (name : String) (ty : Ty) :
    Clean (addInbound func name ty) :=
  .get_bind fun _ => addParameter_clean func _ name ty

theorem addOutbound_clean (func : FuncId) (name : String) (ty : Ty) :
    Clean (addOutbound func name ty) :=
  .get_bind fun _ => addParameter_clean func _ name ty

theorem addLocal_clean (block : BlockId) (name : String) (ty : Ty) :
    Clean (addLocal block name ty) :=
  .get_bind fun _ => addMember_clean _ name ty

theorem setInit_clean (block : BlockId) (name : String) (expr : ExprId) :
    Clean (setInit block name expr) := by
  refine .get_bind fun session => ?_
  split
  · exact .throw _
  · exact fun _ _ refused => by cases refused

theorem addConstant_clean (module : ModuleId) (constant : Constant) :
    Clean (addConstant module constant) := by
  intro session fault refused
  rcases added : (session.moduleAt module).addConstant module constant with other | ⟨name, after⟩
  · rw [addConstant_error added]
  · rw [stop?_eq_none (addConstant_ok added)] at refused
    cases refused

theorem addGlobal_clean (module : ModuleId) (global : Global) : Clean (addGlobal module global) :=
  changeModule_clean module _

theorem addImport_clean (module imported : ModuleId) : Clean (addImport module imported) :=
  .get_bind fun _ => changeModule_clean module _

theorem addObject_clean (module : ModuleId) (id : ObjectId) : Clean (addObject module id) :=
  .get_bind fun _ => (changeModule_clean module _).bind fun _ _ => rfl

/-! ## What registrations of several steps have listed -/

open Session (Changes)

variable {module : ModuleId} {session base : Session}

/-- Whatever follows, a struct stays listed. -/
theorem struct?_changes {after : Session} {name : String} {id : StructId}
    (changes : Changes False .registration session after)
    (held : module.index < session.modules.size)
    (listed : (session.moduleAt module).struct? name = some id) :
    (after.moduleAt module).struct? name = some id :=
  (changes.upholds.modules module held).structs.lookup_eq_some listed

theorem addStruct_keepsChanges (held : module.index < base.modules.size) (id : StructId) :
    Keeps (Changes False .registration base) (addStruct module id) := by
  intro session changes
  have heldNow := Nat.lt_of_lt_of_le held changes.upholds.modules_size
  exact changes.trans (addStruct_changes False.elim heldNow False.elim)

/-- A struct whose name was free is listed, whether its description is refused or not. -/
theorem addStruct_lists {id : StructId} (held : module.index < session.modules.size)
    (free : (session.moduleAt module).struct? (session.structAt id).name = none) :
    (((addStruct module id).run.run session).2.moduleAt module).struct?
      (session.structAt id).name = some id := by
  have heldTaken : module.index < (session.takeStruct module id).modules.size :=
    Nat.lt_of_lt_of_eq held Array.size_modify.symm
  rw [addStruct_taken free]
  refine struct?_changes (describeStruct_changes False.elim heldTaken id _ .refl) heldTaken ?_
  rw [moduleAt_takeStruct held, Module.struct?, List.lookup_append]
  rw [Module.struct?] at free
  simp [free]

theorem describeFunc_keepsChanges (held : module.index < base.modules.size) (func : Func) :
    Keeps (Changes False .registration base) (describeFunc module func) :=
  (addStruct_keepsChanges held _).bind fun _ => (addStruct_keepsChanges held _).bind fun _ =>
    .forM fun _ _ => .get_bind fun state => describeStruct_changes False.elim held _ state

/-- A function whose name was free is listed, whether its structs can be taken or not. -/
theorem addFunc_lists {id : FuncId} (held : module.index < session.modules.size)
    (free : (session.moduleAt module).func? (session.funcAt id).name = none) :
    (((addFunc module id).run.run session).2.moduleAt module).func?
      (session.funcAt id).name = some id := by
  have heldTaken : module.index < (session.takeFunc module id).modules.size :=
    Nat.lt_of_lt_of_eq held Array.size_modify.symm
  have listed : ((session.takeFunc module id).moduleAt module).func?
      (session.funcAt id).name = some id := by
    change ((session.setModule module _).moduleAt module).func? _ = _
    rw [Session.moduleAt_setModule, if_pos ⟨rfl, held⟩, Module.func?, List.lookup_append]
    rw [Module.func?] at free
    simp [free]
  rw [addFunc_taken free]
  have changes := describeFunc_keepsChanges heldTaken (session.funcAt id) _ .refl
  exact (changes.upholds.modules module heldTaken).funcs.lookup_eq_some listed

theorem installPrelude_refused {other : StructId}
    (taken : (session.moduleAt module).struct? (session.structAt Prelude.string).name = some other) :
    ((installPrelude module).run.run session).2 = session := by
  have refused := addStruct_refused taken
  change ((((addStruct module Prelude.string) >>= fun _ => _) >>= fun _ => _ : Edit Unit).run.run
    session).2 = session
  rw [run_bind, run_bind, refused]

/-- The first struct of the runtime is listed if its name was free, whatever is refused later. -/
theorem installPrelude_lists (consistent : session.Consistent)
    (held : module.index < session.modules.size)
    (free : (session.moduleAt module).struct? (session.structAt Prelude.string).name = none) :
    (((installPrelude module).run.run session).2.moduleAt module).struct?
      (session.structAt Prelude.string).name = some Prelude.string := by
  have first : Changes False .registration session
      ((addStruct module Prelude.string).run.run session).2 :=
    addStruct_changes False.elim held False.elim
  have heldMiddle := Nat.lt_of_lt_of_le held first.upholds.modules_size
  refine struct?_changes ?_ heldMiddle (addStruct_lists held free)
  refine holds_bind (holds_bind .refl fun _ => ?_) fun _ => ?_
  · exact .forM fun id _ => addStruct_keepsChanges heldMiddle id
  · exact .forM fun _ => describeKind_changes (first.consistent consistent) heldMiddle

end Edit

/-! ## Refused operations -/

namespace Operation

open Session (ofTarget)

variable {session : Session} {operation : Operation}

/-- The violation that an operation is refused for. Operations that are not listed are never
refused. -/
def refusal? (session : Session) : Operation → Option Fault
  | .addMember struct name ty => stop? (Edit.addMember struct name ty) session
  | .addInbound func name ty => stop? (Edit.addInbound func name ty) session
  | .addOutbound func name ty => stop? (Edit.addOutbound func name ty) session
  | .addLocal block name ty => stop? (Edit.addLocal block name ty) session
  | .addImport module imported => stop? (Edit.addImport module imported) session
  | .addStruct module struct => stop? (Edit.addStruct module struct) session
  | .addObject module object => stop? (Edit.addObject module object) session
  | .addFunc module func => stop? (Edit.addFunc module func) session
  | .addConstant module constant => stop? (Edit.addConstant module constant) session
  | .addGlobal module global => stop? (Edit.addGlobal module global) session
  | .setInit block name expr => stop? (Edit.setInit block name expr) session
  | .installPrelude module => stop? (Edit.installPrelude module) session
  | _ => none

/-- Whether a registration of several steps gets past its first check, which is for the name of the
struct, of the function or of the first runtime struct. -/
def begins (session : Session) : Operation → Bool
  | .addStruct module struct =>
      ((session.moduleAt module).struct? (session.structAt struct).name).isNone
  | .addFunc module func => ((session.moduleAt module).func? (session.funcAt func).name).isNone
  | .installPrelude module =>
      ((session.moduleAt module).struct? (session.structAt Prelude.string).name).isNone
  | _ => false

/-- A refused operation leaves no trace unless it got past the first check of several steps. -/
theorem run_eq_of_refused {fault : Fault} (refused : operation.refusal? session = some fault)
    (checked : operation.begins session = false) : operation.run session = session := by
  cases operation with
  | addMember struct name ty => exact Edit.addMember_clean struct name ty session fault refused
  | addInbound func name ty => exact Edit.addInbound_clean func name ty session fault refused
  | addOutbound func name ty => exact Edit.addOutbound_clean func name ty session fault refused
  | addLocal block name ty => exact Edit.addLocal_clean block name ty session fault refused
  | addImport module imported => exact Edit.addImport_clean module imported session fault refused
  | addObject module object => exact Edit.addObject_clean module object session fault refused
  | addConstant module constant => exact Edit.addConstant_clean module constant session fault refused
  | addGlobal module global => exact Edit.addGlobal_clean module global session fault refused
  | setInit block name expr => exact Edit.setInit_clean block name expr session fault refused
  | addStruct module struct =>
    obtain ⟨other, taken⟩ := Option.isSome_iff_exists.mp (Option.isNone_eq_false_iff.mp checked)
    rw [run, Edit.addStruct_refused taken]
  | addFunc module func =>
    obtain ⟨other, taken⟩ := Option.isSome_iff_exists.mp (Option.isNone_eq_false_iff.mp checked)
    rw [run, Edit.addFunc_refused taken]
  | installPrelude module =>
    obtain ⟨other, taken⟩ := Option.isSome_iff_exists.mp (Option.isNone_eq_false_iff.mp checked)
    exact Edit.installPrelude_refused taken
  | _ => cases refused

/-- What gets past its first check is listed, also if it is refused afterwards. -/
theorem run_ne_of_begins (consistent : session.Consistent)
    (allocated : operation.Allocated session) (begun : operation.begins session = true) :
    operation.run session ≠ session := by
  have held : ∀ handle ∈ operation.handles, (session.bounds 0).holds handle = true := allocated
  intro unchanged
  cases operation with
  | addStruct module struct =>
    have heldModule := of_decide_eq_true (held (.module module) (by simp [handles]))
    have free := Option.isNone_iff_eq_none.mp begun
    have listed := Edit.addStruct_lists heldModule free
    rw [run] at unchanged
    rw [unchanged, free] at listed
    cases listed
  | addFunc module func =>
    have heldModule := of_decide_eq_true (held (.module module) (by simp [handles]))
    have free := Option.isNone_iff_eq_none.mp begun
    have listed := Edit.addFunc_lists heldModule free
    rw [run] at unchanged
    rw [unchanged, free] at listed
    cases listed
  | installPrelude module =>
    have heldModule := of_decide_eq_true (held (.module module) (by simp [handles]))
    have free := Option.isNone_iff_eq_none.mp begun
    have listed := Edit.installPrelude_lists consistent heldModule free
    rw [run] at unchanged
    rw [unchanged, free] at listed
    cases listed
  | _ => cases begun

/-! ## Main result -/

/-- A refused operation leaves the session as it was exactly if it is refused by its first check. -/
theorem refused_unchanged_iff (reachable : session.Reachable)
    (allocated : operation.Allocated session) {fault : Fault}
    (refused : operation.refusal? session = some fault) :
    operation.run session = session ↔ operation.begins session = false := by
  constructor
  · intro unchanged
    by_contra begun
    exact run_ne_of_begins reachable.consistent allocated (Bool.of_not_eq_false begun) unchanged
  · exact run_eq_of_refused refused

/-- A struct is not taken under a name that the module has. -/
theorem refused_unchanged_iff_secondBox :
    let session := runAll (ofTarget {}) [.newModule "m" .builtin, .newStruct "Box" .builtin false,
      .newStruct "Box" .builtin true, .addStruct ⟨0⟩ ⟨3⟩]
    (Operation.addStruct ⟨0⟩ ⟨4⟩).run session = session := by
  intro session
  have facts : AllocatedAll (ofTarget {}) [.newModule "m" .builtin,
      .newStruct "Box" .builtin false, .newStruct "Box" .builtin true, .addStruct ⟨0⟩ ⟨3⟩] ∧
      (Operation.addStruct ⟨0⟩ ⟨4⟩).Allocated session ∧
      (Operation.addStruct ⟨0⟩ ⟨4⟩).refusal? session = some (.duplicateDefinition "Box") ∧
      (Operation.addStruct ⟨0⟩ ⟨4⟩).begins session = false := by
    decide +kernel
  have reachable : session.Reachable := ⟨{}, _, facts.1, rfl⟩
  exact (refused_unchanged_iff reachable facts.2.1 facts.2.2.1).mpr facts.2.2.2

/-- A function whose parameters cannot be taken is refused, and is listed by the module all the
same. -/
theorem refused_function_stays_listed :
    let operations : List Operation := [.newModule "m" .builtin,
      .newStruct "__f_inbound" .builtin false, .addStruct ⟨0⟩ ⟨3⟩, .newFunc "f" .builtin]
    let session := runAll (ofTarget {}) operations
    let after := (Operation.addFunc ⟨0⟩ ⟨0⟩).run session
    AllocatedAll (ofTarget {}) operations ∧ (Operation.addFunc ⟨0⟩ ⟨0⟩).Allocated session ∧
      (Operation.addFunc ⟨0⟩ ⟨0⟩).refusal? session =
        some (.duplicateDefinition "__f_inbound") ∧
      (session.moduleAt ⟨0⟩).func? "f" = none ∧ (after.moduleAt ⟨0⟩).func? "f" = some ⟨0⟩ := by
  decide +kernel

end Operation

end Assay
