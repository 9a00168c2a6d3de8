import Assay.Scope.Module
import Mathlib.Data.List.Nodup
import Mathlib.Data.List.Perm.Subperm
import Mathlib.Order.Bounds.Basic

/-!
Contract: the names that constants get.
-/

namespace Assay.Module

variable {module : Module} {constant : Constant}

theorem unnamedName_injective : Function.Injective unnamedName := by
  intro left right same
  have numerals : (toString left).toList = (toString right).toList := by
    simpa [unnamedName] using congrArg String.toList same
  have digits : Nat.toDigits 10 left = Nat.toDigits 10 right := by
    simpa [Nat.toString_eq_ofList_toDigits] using numerals
  calc left = Nat.ofDigitChars 10 (Nat.toDigits 10 left) 0 := Nat.ofDigitChars_ten_toDigits.symm
    _ = Nat.ofDigitChars 10 (Nat.toDigits 10 right) 0 := by rw [digits]
    _ = right := Nat.ofDigitChars_ten_toDigits

theorem hasConstant_eq_false {name : String} :
    module.hasConstant name = false ↔ name ∉ module.constantTable.map Prod.fst := by
  rw [← Table.lookup_eq_none, hasConstant, constant?, Option.isSome_eq_false_iff,
    Option.isNone_iff_eq_none]

theorem hasGlobal_eq_false {name : String} :
    module.hasGlobal name = false ↔ name ∉ module.globalTable.map Prod.fst := by
  rw [← Table.lookup_eq_none, hasGlobal, global?, Option.isSome_eq_false_iff,
    Option.isNone_iff_eq_none]

/-! ## The search for a number -/

/-- The search passes over taken numbers only, and gives up only after all of them. -/
theorem freeNumber_spec (module : Module) (fuel number : Nat) :
    let found := module.freeNumber fuel number
    number ≤ found ∧ found ≤ number + fuel ∧
      (∀ earlier, number ≤ earlier → earlier < found →
        module.hasConstant (unnamedName earlier) = true) ∧
      (module.hasConstant (unnamedName found) = true → found = number + fuel) := by
  induction fuel generalizing number with
  | zero => exact ⟨Nat.le_refl _, Nat.le_refl _, fun _ _ _ => by grind [freeNumber], fun _ => rfl⟩
  | succ fuel ih =>
    rw [freeNumber]
    split
    · next taken =>
      obtain ⟨lower, upper, passed, last⟩ := ih (number + 1)
      refine ⟨by omega, by omega, fun earlier isFrom isBefore => ?_, fun isTaken => ?_⟩
      · rcases Nat.eq_or_lt_of_le isFrom with rfl | isLater
        · exact taken
        · exact passed earlier isLater isBefore
      · have := last isTaken
        omega
    · next free => exact ⟨Nat.le_refl _, by omega, fun _ _ _ => by omega, fun taken => absurd taken free⟩

/-- Of one more name than there are constants, one is free. -/
theorem nextUnnamed_free (module : Module) :
    module.hasConstant (unnamedName module.nextUnnamed) = false := by
  by_contra isTaken
  obtain ⟨_, _, passed, last⟩ := module.freeNumber_spec module.constantTable.length module.unnamed
  have isLast := last (Bool.of_not_eq_false isTaken)
  let names := (List.range (module.constantTable.length + 1)).map fun offset =>
    unnamedName (module.unnamed + offset)
  have distinct : names.Nodup := by
    refine List.nodup_range.map fun left right same => ?_
    have := unnamedName_injective same
    omega
  have listed : names ⊆ module.constantTable.map Prod.fst := by
    intro name member
    obtain ⟨offset, inRange, rfl⟩ := List.mem_map.mp member
    have found : module.hasConstant (unnamedName (module.unnamed + offset)) = true := by
      rcases Nat.lt_succ_iff_lt_or_eq.mp (List.mem_range.mp inRange) with isBefore | rfl
      · exact passed _ (Nat.le_add_right _ _) (by omega)
      · exact isLast ▸ Bool.of_not_eq_false isTaken
    by_contra absent
    rw [hasConstant_eq_false.mpr absent] at found
    cases found
  have bound := (List.subperm_of_subset distinct listed).length_le
  simp only [names, List.length_map, List.length_range] at bound
  omega

theorem nextUnnamed_isLeast (module : Module) :
    IsLeast {number | module.unnamed ≤ number ∧ module.hasConstant (unnamedName number) = false}
      module.nextUnnamed := by
  obtain ⟨lower, _, passed, _⟩ := module.freeNumber_spec module.constantTable.length module.unnamed
  refine ⟨⟨lower, module.nextUnnamed_free⟩, fun number ⟨isFrom, free⟩ => ?_⟩
  by_contra isBefore
  rw [passed number isFrom (Nat.lt_of_not_le isBefore)] at free
  cases free

/-! ## Names given -/

theorem unnamed_intern (module : Module) (text : String) :
    (module.intern text).2.unnamed = module.unnamed := by
  unfold intern
  split <;> rfl

theorem internConstant_keeps (module : Module) (constant : Constant) :
    (module.internConstant constant).1.name = constant.name ∧
      (module.internConstant constant).2.unnamed = module.unnamed := by
  unfold internConstant noteString
  split
  · dsimp only
    split <;> exact ⟨rfl, module.unnamed_intern _⟩
  · exact ⟨rfl, rfl⟩

/-- An unnamed constant takes the next number, behind which the counter is left. -/
theorem install_unnamed (isUnnamed : constant.name = "") (own : ModuleId) :
    (module.install own constant).1 = unnamedName module.nextUnnamed ∧
      (module.install own constant).2.unnamed = module.nextUnnamed + 1 := by
  unfold install
  dsimp only
  rw [nameConstant, if_pos isUnnamed]
  exact internConstant_keeps _ _

theorem install_named (isNamed : constant.name ≠ "") (own : ModuleId) :
    (module.install own constant).1 = constant.name ∧
      (module.install own constant).2.unnamed = module.unnamed := by
  unfold install
  dsimp only
  rw [nameConstant, if_neg isNamed]
  exact internConstant_keeps _ _

/-- A constant gets a name that is free. -/
theorem install_free (free : constant.name ≠ "" → module.hasConstant constant.name = false)
    (own : ModuleId) : module.hasConstant (module.install own constant).1 = false := by
  by_cases isUnnamed : constant.name = ""
  · rw [(install_unnamed isUnnamed own).1]
    exact module.nextUnnamed_free
  · rw [(install_named isUnnamed own).1]
    exact free isUnnamed

/-- The counter never goes back. -/
theorem unnamed_le_install (module : Module) (own : ModuleId) (constant : Constant) :
    module.unnamed ≤ (module.install own constant).2.unnamed := by
  by_cases isUnnamed : constant.name = ""
  · rw [(install_unnamed isUnnamed own).2]
    exact Nat.le_succ_of_le module.nextUnnamed_isLeast.1.1
  · rw [(install_named isUnnamed own).2]

end Assay.Module
