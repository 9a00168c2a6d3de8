import Assay.Proofs.Scope.Boundness

/-!
Contract: what initializers and tables refer to stays where it was found.
-/

namespace Assay

/-! ## Modules -/

namespace Module

variable {before after module : Module} {strict : Prop} {own : ModuleId} {name : String}
  {initializer : Initializer}

/-- The constants of a module are sound, its globals are numbered, and what their initializers refer to
is there. -/
structure Connected (module : Module) : Prop where
  constants : ∀ constant ∈ module.constants,
    module.Linked constant.name constant.initializer ∧ constant.Sound
  globals : ∀ global ∈ module.globals,
    module.Linked global.name global.initializer ∧ global.Numbered

theorem connected_empty (own : ModuleId) (name : String) (loc : Location) :
    Connected { own := own, name := name, loc := loc } :=
  ⟨List.forall_mem_nil _, List.forall_mem_nil _⟩

theorem Upholds.linked (upholds : before.Upholds after) (linked : before.Linked name initializer) :
    after.Linked name initializer := by
  cases initializer with
  | stringIndex index => exact Nat.lt_of_lt_of_le linked upholds.strings.length_le
  | typeInfo constant ty =>
    obtain ⟨text, holds, isName⟩ := linked
    exact ⟨text, upholds.holds holds, isName⟩
  | _ => trivial

section

variable (connected : before.Connected) (upholds : before.Upholds after)
include connected upholds

theorem Connected.upholds_constants (constants : after.constants = before.constants) :
    ∀ constant ∈ after.constants,
      after.Linked constant.name constant.initializer ∧ constant.Sound := by
  rw [constants]
  exact fun constant member => (connected.constants constant member).imp_left upholds.linked

theorem Connected.upholds_globals (globals : after.globals = before.globals) :
    ∀ global ∈ after.globals, after.Linked global.name global.initializer ∧ global.Numbered := by
  rw [globals]
  exact fun global member => (connected.globals global member).imp_left upholds.linked

end

/-- Only the initializer of a type refers to the name of its own definition, and that name is not
empty. -/
theorem Linked.rename {other : String} (linked : module.Linked name initializer)
    (same : name ≠ "" → other = name) : module.Linked other initializer := by
  cases initializer with
  | typeInfo constant ty =>
    obtain ⟨text, holds, isName⟩ := linked
    have named : name ≠ "" := by
      rw [isName]
      simp
    exact ⟨text, holds, (same named).trans isName⟩
  | stringIndex index => exact linked
  | _ => trivial

theorem install_connected {constant : Constant} (connected : module.Connected)
    (indexed : module.Indexed) (free : constant.name ≠ "" → module.hasConstant constant.name = false)
    (linked : module.Linked constant.name constant.initializer)
    (sound : ({ constant with ty := constantType constant.ty } : Constant).Sound) :
    (module.install own constant).2.Connected := by
  have upholds := module.install_upholds own free
  obtain ⟨held, installs⟩ := module.install_installs own constant free
  have linkedHeld : (module.install own constant).2.Linked held.name held.initializer := by
    rcases installs.initializer with same | ⟨text, index, _, isIndex, read⟩
    · rw [same]
      exact (upholds.linked linked).rename installs.named
    · rw [isIndex]
      exact (List.getElem?_eq_some_iff.mp (read indexed)).1
  refine ⟨?_, connected.upholds_globals upholds installs.lists.globals⟩
  rw [installs.constants]
  exact List.forall_mem_append.mpr ⟨fun other member =>
    (connected.constants other member).imp_left upholds.linked,
    List.forall_mem_singleton.mpr ⟨linkedHeld, installs.sound sound⟩⟩

/-- Structs are taken by sessions, not by modules on their own. -/
theorem Alters.structs (alters : before.Alters strict own after) : after.structs = before.structs := by
  cases alters with
  | intern text => exact (before.intern_sameLists text).structs
  | install constant free =>
    obtain ⟨_, installs⟩ := before.install_installs own constant free
    exact installs.lists.structs
  | _ => rfl

theorem Alters.connected (isStrict : strict) (alters : before.Alters strict own after)
    (indexed : before.Indexed) (connected : before.Connected) : after.Connected := by
  have upholds := alters.upholds
  cases alters with
  | install constant free linked sound =>
    exact install_connected connected indexed free (linked isStrict) (sound isStrict)
  | addGlobal global free linked numbered =>
    refine ⟨connected.upholds_constants upholds rfl, ?_⟩
    rw [globals_pushGlobal]
    exact List.forall_mem_append.mpr ⟨fun other member =>
      (connected.globals other member).imp_left upholds.linked,
      List.forall_mem_singleton.mpr ⟨upholds.linked (linked isStrict), numbered isStrict⟩⟩
  | intern text =>
    have same := before.intern_sameLists text
    exact ⟨connected.upholds_constants upholds same.constants,
      connected.upholds_globals upholds same.globals⟩
  | _ => exact ⟨connected.upholds_constants upholds rfl, connected.upholds_globals upholds rfl⟩

end Module

/-! ## Sessions -/

namespace Session

variable {strict : Prop} {phase : Phase} {session before after : Session}

/-- Every module is connected, and lists structs of the runtime and its own only. -/
structure Referenced (session : Session) : Prop where
  connected : ∀ id, (session.moduleAt id).Connected
  listed : ∀ id, ∀ entry ∈ (session.moduleAt id).structs,
    entry.2 ∈ Prelude.structIds ∨ (session.structAt entry.2).owner = some (.module id)

theorem referenced_ofTarget (target : Target) : (ofTarget target).Referenced :=
  ⟨fun _ => Module.connected_empty _ _ _, fun _ => List.forall_mem_nil _⟩

theorem referenced_allocModule (referenced : session.Referenced) (name : String) (loc : Location) :
    ((allocModule name loc).run session).2.Referenced := by
  constructor <;> intro id <;> rw [moduleAt_allocModule] <;> split
  · exact Module.connected_empty _ name loc
  · exact referenced.connected id
  · exact List.forall_mem_nil _
  · exact referenced.listed id

theorem owner_takeStruct {module : ModuleId} {id : StructId} {word : Ty}
    (takeable : session.Takeable module id) (isOwn : id ∉ Prelude.structIds) (listed : Module) :
    (((session.setModule module listed).setStruct id
      (((session.structAt id).takenBy module).sealed id word)).structAt id).owner =
        some (.module module) := by
  obtain ⟨held, owned⟩ := takeable.resolve_left isOwn
  rw [structAt_setStruct, if_pos ⟨rfl, held⟩, Struct.owner_sealed, Struct.takenBy]
  cases owner : (session.structAt id).owner with
  | none => rfl
  | some scope =>
    rw [owned scope owner]
    rfl

/-- What a strict alteration makes a module list anew is of the runtime or its own. -/
theorem Alters.listed (isStrict : strict) (alters : Alters strict phase before after) (id : ModuleId)
    {entry : String × StructId} (member : entry ∈ (after.moduleAt id).structs) :
    entry ∈ (before.moduleAt id).structs ∨ entry.2 ∈ Prelude.structIds ∨
      (after.structAt entry.2).owner = some (.module id) := by
  cases alters with
  | pushModule lenient name loc => exact absurd isStrict lenient
  | module alters =>
    rw [moduleAt_setModule] at member
    split at member
    · next isAltered =>
      rw [alters.structs, isAltered.1] at member
      exact .inl member
    · exact .inl member
  | @takeStruct _ module taken held free own =>
    let listed : Module := { before.moduleAt module with
      structs := (before.moduleAt module).structs ++ [((before.structAt taken).name, taken)] }
    change entry ∈ ((before.setModule module listed).moduleAt id).structs at member
    rw [moduleAt_setModule] at member
    split at member
    · next isModule =>
      obtain ⟨rfl, _⟩ := isModule
      refine (List.mem_append.mp member).imp_right fun isNew => ?_
      rw [List.mem_singleton.mp isNew]
      by_cases isOwn : taken ∈ Prelude.structIds
      · exact .inl isOwn
      · exact .inr (owner_takeStruct (own isStrict) isOwn listed)
    · exact .inl member
  | _ => exact .inl member

theorem Alters.referenced (isStrict : strict) (alters : Alters strict phase before after)
    (consistent : before.Consistent) (referenced : before.Referenced) : after.Referenced := by
  refine ⟨?_, fun id entry member => ?_⟩
  · exact alters.forall_moduleAt (absurd isStrict ·) (fun id _ alters =>
      alters.connected isStrict (consistent.modules id).indexed (referenced.connected id))
      (fun _ connected => { connected with }) referenced.connected
  · rcases alters.listed isStrict id member with isOld | isNew
    · exact (referenced.listed id entry isOld).imp_right fun owner =>
        (alters.upholds.structs entry.2 (held_of_owner owner)).owner owner
    · exact isNew

theorem Changes.referenced (isStrict : strict) (changes : Changes strict phase before after)
    (consistent : before.Consistent) (referenced : before.Referenced) : after.Referenced := by
  induction changes with
  | refl => exact referenced
  | tail changes alters ih =>
    exact alters.referenced isStrict (Changes.consistent changes consistent) ih

/-! ## Rounded sessions -/

/-- What is referred to is there, and what is bound is complete. -/
structure Rounded (session : Session) : Prop where
  consistent : session.Consistent
  fitted : session.Fitted
  referenced : session.Referenced

theorem rounded_ofTarget (target : Target) : (ofTarget target).Rounded :=
  ⟨consistent_ofTarget target, fitted_ofTarget target, referenced_ofTarget target⟩

theorem rounded_allocModule (rounded : session.Rounded) (name : String) (loc : Location) :
    ((allocModule name loc).run session).2.Rounded := by
  have alters : Alters False .registration session ((allocModule name loc).run session).2 :=
    .pushModule id name loc
  exact ⟨alters.consistent rounded.consistent, alters.fitted rounded.consistent rounded.fitted,
    referenced_allocModule rounded.referenced name loc⟩

theorem Changes.rounded (changes : Changes True phase before after) (rounded : before.Rounded) :
    after.Rounded :=
  ⟨changes.consistent rounded.consistent, changes.fitted rounded.consistent rounded.fitted,
    changes.referenced trivial rounded.consistent rounded.referenced⟩

/-- Strict alterations add no module. -/
theorem Changes.modules_size (changes : Changes True phase before after) :
    after.modules.size = before.modules.size := by
  induction changes with
  | refl => rfl
  | tail _ alters ih =>
    rw [← ih]
    cases alters with
    | pushModule lenient name loc => exact absurd trivial lenient
    | module alters => exact Array.size_modify
    | takeStruct held free own => exact Array.size_modify
    | _ => rfl

end Session

end Assay
