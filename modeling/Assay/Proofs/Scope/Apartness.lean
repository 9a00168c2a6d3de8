import Assay.Proofs.Scope.Extension
import Assay.Proofs.Scope.References

/-!
Contract: a module whose definitions lie beyond those of a smaller session.
-/

namespace Assay

def Bounds.Beyond (limits : Bounds) (handle : Handle) : Prop :=
  limits.holds handle = false

theorem Bounds.Le.not_beyond {small large : Bounds} (le : small.Le large) {handle : Handle}
    (held : small.holds handle = true) : ¬ large.Beyond handle :=
  fun absent => Bool.eq_false_iff.mp absent (le.holds held)

namespace Session

variable {limits : Bounds} {may : Handle → Prop} {exprs : Nat} {module : ModuleId}
  {first second session before after : Session}

/-- Changes beyond the definitions of the first session leave these as they are. -/
theorem Spares.extends_of_beyond (grown : first.Extends second) (le : (first.bounds 0).Le limits)
    (spares : second.Spares limits.Beyond after) : first.Extends after := by
  have both : first.Spares limits.Beyond after := (Spares.of_extends grown).trans spares
  exact
    { target := both.target
      bounds := both.bounds
      modules := fun id held _ => both.modules id held (le.not_beyond (decide_eq_true held))
      structs := fun id held _ => both.structs id held (le.not_beyond (decide_eq_true held))
      funcs := fun id held _ => both.funcs id held (le.not_beyond (decide_eq_true held))
      blocks := fun id held _ => both.blocks id held (le.not_beyond (decide_eq_true held))
      objects := fun id held _ => both.objects id held (le.not_beyond (decide_eq_true held)) }

/-! ## Functions -/

/-- The functions that the module lists lie beyond the limits, and so do the modules around functions
beyond the limits. -/
structure Apart (limits : Bounds) (module : ModuleId) (session : Session) : Prop where
  listed : ∀ entry ∈ (session.moduleAt module).funcs, limits.Beyond (.func entry.2)
  owned : ∀ func owner, limits.Beyond (.func func) →
    (session.funcAt func).parent = some (.module owner) → limits.Beyond (.module owner)

theorem Apart.setModule (apart : session.Apart limits module) {id : ModuleId} {changed : Module}
    (funcs : ∀ entry ∈ changed.funcs,
      entry ∈ (session.moduleAt id).funcs ∨ limits.Beyond (.func entry.2)) :
    (session.setModule id changed).Apart limits module := by
  refine ⟨fun entry member => ?_, apart.owned⟩
  rw [moduleAt_setModule] at member
  split at member
  · next same =>
    obtain ⟨rfl, _⟩ := same
    exact (funcs entry member).elim (apart.listed entry) fun beyond => beyond
  · exact apart.listed entry member

theorem Apart.modifyFunc (apart : session.Apart limits module) {id : FuncId} {change : Func → Func}
    (owners : ∀ owner, (change (session.funcAt id)).parent = some (.module owner) →
      (session.funcAt id).parent = some (.module owner) ∨ limits.Beyond (.module owner)) :
    (session.modifyFunc id change).Apart limits module := by
  refine ⟨apart.listed, fun func owner beyond isOwner => ?_⟩
  rw [funcAt_modifyFunc] at isOwner
  split at isOwner
  · next same =>
    obtain ⟨rfl, _⟩ := same
    exact (owners owner isOwner).elim (apart.owned id owner beyond) fun allowed => allowed
  · exact apart.owned func owner beyond isOwner

/-- A change that gives functions to modules beyond the limits only. -/
theorem Event.apart (within : ∀ func owner, may (.func func) → may (.module owner) →
      limits.Beyond (.func func) ∧ limits.Beyond (.module owner))
    (event : Event may exprs before after) (apart : before.Apart limits module) :
    after.Apart limits module := by
  cases event with
  | declareModule name loc =>
    refine ⟨fun entry member => ?_, apart.owned⟩
    rcases getD_push_cases before.modules { own := ⟨before.modules.size⟩, name, loc } module.index
      with same | new
    · rw [moduleAt, same] at member
      exact apart.listed entry member
    · rw [moduleAt, new] at member
      cases member
  | allocFunc name loc =>
    refine ⟨apart.listed, fun func owner beyond isOwner => ?_⟩
    rcases getD_push_cases before.funcs _ func.index with same | new
    · rw [funcAt, same] at isOwner
      exact apart.owned func owner beyond isOwner
    · rw [funcAt, new] at isOwner
      cases isOwner
  | editModule id changed held allowed edited =>
    exact apart.setModule fun entry member => .inl (edited.funcs ▸ member)
  | takeStruct owner id =>
    have taken : (before.setModule owner { before.moduleAt owner with
        structs := (before.moduleAt owner).structs ++
          [((before.structAt id).name, id)] }).Apart limits module :=
      apart.setModule fun entry member => .inl member
    exact ⟨taken.listed, taken.owned⟩
  | takeObject owner id =>
    have taken : (before.setModule owner { before.moduleAt owner with
        objects := (before.moduleAt owner).objects ++
          [((before.objectAt id).name, id)] }).Apart limits module :=
      apart.setModule fun entry member => .inl member
    exact ⟨taken.listed, taken.owned⟩
  | takeFunc owner id heldModule held allowed allowedFunc =>
    obtain ⟨beyond, beyondOwner⟩ := within id owner allowedFunc allowed
    refine (apart.setModule (mem_concat_or ?_)).modifyFunc fun other isOwner => .inr ?_
    · exact beyond
    · cases isOwner
      exact beyondOwner
  | attach func role block =>
    have modified : (before.modifyBlock block fun state =>
        { state with parent := some (.func func) }).Apart limits module := ⟨apart.listed, apart.owned⟩
    refine modified.modifyFunc fun owner isOwner => .inl ?_
    cases role <;> exact isOwner
  | _ => exact ⟨apart.listed, apart.owned⟩

theorem Evolves.apart (within : ∀ func owner, may (.func func) → may (.module owner) →
      limits.Beyond (.func func) ∧ limits.Beyond (.module owner))
    (evolves : Evolves may exprs before after) (apart : before.Apart limits module) :
    after.Apart limits module := by
  induction evolves with
  | refl => exact apart
  | tail _ event ih => exact event.apart within ih

/-! ## Binding -/

theorem Alters.bounds_eq {strict : Prop} (alters : Alters strict .binding before after)
    (exprs : Nat) : after.bounds exprs = before.bounds exprs := by
  cases alters with
  | module alters => exact bounds_modifyModule before _ _ exprs
  | bindTypes id scope => exact bounds_modifyStruct before id _ exprs
  | markBound owner home tabulated => exact bounds_modifyStruct before _ _ exprs

/-- Binding allocates nothing. -/
theorem Changes.bounds_eq {strict : Prop} (changes : Changes strict .binding before after)
    (exprs : Nat) : after.bounds exprs = before.bounds exprs := by
  induction changes with
  | refl => rfl
  | tail _ alters ih => exact (alters.bounds_eq exprs).trans ih

section Binding

variable (grown : first.Extends second) (covered : first.CoveredBy (first.bounds exprs))

include grown covered

/-- What owns a struct of the smaller session is there too. -/
theorem Spares.beyond_of_owner {id : StructId} {scope : ScopeId}
    (owner : (second.structAt id).owner = some scope)
    (beyond : (first.bounds exprs).Beyond scope.handle) : (first.bounds exprs).Beyond (.struct id) := by
  refine decide_eq_false fun held => ?_
  rw [grown.structs id held not_false] at owner
  have isHeld := (Struct.covers_handles.mp (covered.structAt id)).1 scope owner
  exact Bool.eq_false_iff.mp beyond isHeld

theorem Spares.beyond_of_func {id : BlockId} {func : FuncId}
    (parent : (second.blockAt id).parent = some (.func func))
    (beyond : (first.bounds exprs).Beyond (.func func)) : (first.bounds exprs).Beyond (.block id) := by
  refine decide_eq_false fun held => ?_
  rw [grown.blocks id held not_false] at parent
  have isHeld := (Block.covers_handles.mp (covered.blockAt held)).2.2 _ parent
  exact Bool.eq_false_iff.mp beyond isHeld

/-- Binding a module that lies beyond the smaller session does not touch this one: the runtime
structs are bound, and all others that the module lists are its own. -/
theorem Apart.mayBind {large : Nat} (integral : second.Integral large)
    (referenced : second.Referenced) (held : module.index < second.modules.size)
    (apart : second.Apart (first.bounds exprs) module)
    (beyond : (first.bounds exprs).Beyond (.module module))
    (runtime : ∀ id ∈ Prelude.structIds, (second.structAt id).isBound = true) :
    ∀ id ∈ second.pendingStructs module, MayBind (first.bounds exprs).Beyond second id := by
  intro id member
  rcases List.mem_append.mp member with isStruct | isVariables
  · obtain ⟨entry, isEntry, rfl⟩ := List.mem_map.mp isStruct
    rcases referenced.listed module entry isEntry with isRuntime | owner
    · exact .inl (runtime _ isRuntime)
    · refine .inr ⟨Spares.beyond_of_owner grown covered owner beyond, ?_⟩
      intro scope isOwner home isHome
      cases owner.symm.trans isOwner
      cases isHome
      exact beyond
  · obtain ⟨entry, isEntry, isVars⟩ := List.mem_flatMap.mp isVariables
    obtain ⟨block, isBlock, rfl⟩ := List.mem_map.mp isVars
    have beyondFunc := apart.listed entry isEntry
    obtain ⟨_, _, _, funcs, _⟩ :=
      Module.covers_handles.mp (integral.covered.modules _ (getD_mem held))
    obtain ⟨blockOwner, varsOwner⟩ :=
      integral.attached entry.2 (of_decide_eq_true (funcs entry isEntry)) block isBlock
    have beyondBlock := Spares.beyond_of_func grown covered blockOwner beyondFunc
    refine .inr ⟨Spares.beyond_of_owner grown covered varsOwner beyondBlock, ?_⟩
    intro scope isOwner home isHome
    cases varsOwner.symm.trans isOwner
    obtain ⟨func, isFunc, isModule⟩ := integral.nested.moduleOf?_block.mp isHome
    cases blockOwner.symm.trans isFunc
    exact apart.owned entry.2 home beyondFunc isModule

end Binding

end Session

end Assay
