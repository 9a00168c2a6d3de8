import Assay.Proofs.Scope.Stability

/-!
Contract: the tables of a module agree with each other.
-/

namespace Assay

/-! ## Names and their order -/

/-- The order lists exactly the names of the table, each once, and what stands under a name has this
name. -/
structure Table.Listed {α : Type} (name : α → String) (table : List (String × α))
    (order : List String) : Prop where
  isOrder : order = table.map Prod.fst
  distinct : order.Nodup
  named : ∀ entry ∈ table, name entry.2 = entry.1

namespace Table

variable {α : Type} {name : α → String} {table : List (String × α)} {order : List String}
  {key : String} {value : α}

theorem listed_nil : Listed name [] [] :=
  ⟨rfl, List.nodup_nil, List.forall_mem_nil _⟩

namespace Listed

variable (listed : Listed name table order)
include listed

/-- A value that is added under a name that is free. -/
theorem concat (free : table.lookup (name value) = none) :
    Listed name (table ++ [(name value, value)]) (order ++ [name value]) := by
  refine ⟨?_, ?_, List.forall_mem_append.mpr ⟨listed.named, List.forall_mem_singleton.mpr rfl⟩⟩
  · rw [List.map_append, listed.isOrder]
    rfl
  · rw [← List.concat_eq_append]
    refine listed.distinct.concat ?_
    rw [listed.isOrder]
    exact lookup_eq_none.mp free

theorem map_name : (table.map Prod.snd).map name = order := by
  rw [listed.isOrder, List.map_map]
  exact List.map_congr_left listed.named

theorem lookup_eq_some :
    table.lookup key = some value ↔ value ∈ table.map Prod.snd ∧ name value = key := by
  have distinct := listed.distinct
  rw [listed.isOrder] at distinct
  constructor
  · intro found
    have member := mem_of_lookup found
    exact ⟨List.mem_map_of_mem member, listed.named _ member⟩
  · rintro ⟨member, rfl⟩
    obtain ⟨entry, isEntry, rfl⟩ := List.mem_map.mp member
    rw [listed.named entry isEntry]
    exact (lookup_eq_some_iff_mem distinct).mpr isEntry

/-- Searching the values for a name finds what stands under it. -/
theorem find?_eq : (table.map Prod.snd).find? (fun value => name value = key) = table.lookup key := by
  cases found : (table.map Prod.snd).find? fun value => name value = key with
  | some value =>
    have isName : name value = key := by simpa using List.find?_some found
    exact (listed.lookup_eq_some.mpr ⟨List.mem_of_find?_eq_some found, isName⟩).symm
  | none =>
    cases looked : table.lookup key with
    | none => rfl
    | some value =>
      obtain ⟨member, isName⟩ := listed.lookup_eq_some.mp looked
      exact absurd (decide_eq_true isName) (List.find?_eq_none.mp found value member)

/-- The order leads through the table from its first entry to the last. -/
theorem filterMap_lookup : order.filterMap (fun key => table.lookup key) = table.map Prod.snd := by
  have distinct := listed.distinct
  rw [listed.isOrder] at distinct ⊢
  rw [List.filterMap_map, ← List.filterMap_eq_map]
  refine List.filterMap_congr fun entry member => ?_
  exact (lookup_eq_some_iff_mem distinct).mpr member

end Listed

end Table

namespace Module

variable {module before after : Module} {strict : Prop} {own : ModuleId} {constant : Constant}
  {text name : String} {entry : String × String} {global : Global}

/-! ## Tables -/

/-- Constants and globals are listed as they are held, texts and places are inverse to each other,
and a text that is remembered is held by the constant remembered for it. -/
structure Tabular (module : Module) : Prop where
  constants : Table.Listed Constant.name module.constantTable module.constantOrder
  globals : Table.Listed Global.name module.globalTable module.globalOrder
  indexed : module.Indexed
  texts : ∀ entry ∈ module.stringConstants, module.Holds entry.2 entry.1

theorem tabular_empty (own : ModuleId) (name : String) (loc : Location) :
    Tabular { own := own, name := name, loc := loc } :=
  ⟨Table.listed_nil, Table.listed_nil, indexed_empty own name loc, List.forall_mem_nil _⟩

namespace Tabular

variable (tabular : module.Tabular)
include tabular

theorem listedConstants : module.listedConstants = module.constants :=
  tabular.constants.filterMap_lookup

theorem listedGlobals : module.listedGlobals = module.globals :=
  tabular.globals.filterMap_lookup

theorem nodup_strings : module.strings.Nodup := by
  refine List.nodup_iff_getElem?_ne_getElem?.mpr fun first second before bound same => ?_
  have read := List.getElem?_eq_getElem bound
  have isFirst := (tabular.indexed _ _).mpr (same.trans read)
  have isSecond := (tabular.indexed _ _).mpr read
  exact absurd (Option.some.inj (isFirst.symm.trans isSecond)) (Nat.ne_of_lt before)

end Tabular

/-- A constant under a free name is found by that name. -/
theorem Installs.constant? {held : Constant} (installs : before.Installs own constant name after held)
    (free : before.hasConstant name = false) : after.constant? name = some held := by
  rw [← installs.isName] at free ⊢
  rw [Module.constant?, installs.lists.constantTable]
  exact (Table.lookup_concat (Table.lookup_eq_none.mpr (hasConstant_eq_false.mp free))).mpr
    (.inr ⟨rfl, rfl⟩)

theorem global?_pushGlobal (free : module.hasGlobal global.name = false) :
    (module.pushGlobal global).global? global.name = some global :=
  (Table.lookup_concat (Table.lookup_eq_none.mpr (hasGlobal_eq_false.mp free))).mpr (.inr ⟨rfl, rfl⟩)

theorem install_tabular (tabular : module.Tabular)
    (free : constant.name ≠ "" → module.hasConstant constant.name = false) (own : ModuleId) :
    (module.install own constant).2.Tabular := by
  have upholds := module.install_upholds own free
  have isFree := install_free free own
  obtain ⟨held, installs⟩ := module.install_installs own constant free
  refine ⟨?_, ?_, installs.indexed tabular.indexed, fun entry member => ?_⟩
  · rw [installs.lists.constantTable, installs.lists.constantOrder]
    refine tabular.constants.concat (Table.lookup_eq_none.mpr (hasConstant_eq_false.mp ?_))
    exact installs.isName ▸ isFree
  · rw [installs.lists.globalTable, installs.lists.globalOrder]
    exact tabular.globals
  · rcases installs.texts entry member with isOld | ⟨isName, isString, index, isIndex, isText⟩
    · exact upholds.holds (tabular.texts entry isOld)
    · rw [isName]
      exact ⟨held, index, installs.constant? isFree, isString, isIndex, isText tabular.indexed⟩

theorem Alters.tabular (alters : before.Alters strict own after) (tabular : before.Tabular) :
    after.Tabular := by
  have upholds := alters.upholds
  cases alters with
  | listImport imported free => exact { tabular with }
  | listObject id free => exact { tabular with }
  | listFunc id free => exact { tabular with }
  | intern text =>
    have same := before.intern_sameLists text
    refine ⟨?_, ?_, (tabular.indexed.intern text).1, fun entry member => ?_⟩
    · rw [same.constantTable, same.constantOrder]
      exact tabular.constants
    · rw [same.globalTable, same.globalOrder]
      exact tabular.globals
    · rw [stringConstants_intern] at member
      exact upholds.holds (tabular.texts entry member)
  | install constant free => exact install_tabular tabular free own
  | addGlobal global free =>
    have absent := Table.lookup_eq_none.mpr (hasGlobal_eq_false.mp free)
    exact { tabular with globals := tabular.globals.concat absent }

/-! ## Texts -/

theorem install_holds (indexed : module.Indexed)
    (free : constant.name ≠ "" → module.hasConstant constant.name = false)
    (own : ModuleId) (isString : (constantType constant.ty).isString = true)
    (isText : constant.initializer = .value (.text text)) :
    (module.install own constant).2.Holds (module.install own constant).1 text := by
  obtain ⟨held, installs⟩ := module.install_installs own constant free
  have isHeldString : held.ty.isString = true := installs.ty ▸ isString
  obtain ⟨⟨index, isIndex, read⟩, _⟩ := installs.interned text isHeldString isText
  exact ⟨held, index, installs.constant? (install_free free own), isHeldString, isIndex,
    read indexed⟩

/-- The constant that was searched for is remembered. -/
theorem stringConstant?_findString (module : Module) (own : ModuleId) (text : String)
    (loc : Location) : (module.findString own text loc).2.stringConstant? text =
      some (module.findString own text loc).1 := by
  unfold findString
  split
  · next known => exact known
  · next unknown =>
    obtain ⟨held, installs⟩ := module.install_installs own
      (.declare "" (Prelude.stringType loc) (.value (.text text))) fun named => absurd rfl named
    exact (installs.interned text (installs.ty ▸ rfl) rfl).2 unknown

theorem findString_tabular (tabular : module.Tabular) (own : ModuleId) (text : String)
    (loc : Location) : (module.findString own text loc).2.Tabular := by
  unfold findString
  split
  · exact tabular
  · exact install_tabular tabular (fun named => absurd rfl named) own

/-- The search for a text finds a constant that holds it. -/
theorem findString_holds (tabular : module.Tabular) (own : ModuleId) (text : String)
    (loc : Location) :
    (module.findString own text loc).2.Holds (module.findString own text loc).1 text :=
  (findString_tabular tabular own text loc).texts (text, _)
    (Table.mem_of_lookup (module.stringConstant?_findString own text loc))

/-- A second search finds the same constant and changes nothing. -/
theorem findString_findString (module : Module) (own : ModuleId) (text : String)
    (loc later : Location) :
    (module.findString own text loc).2.findString own text later =
      module.findString own text loc := by
  have known := module.stringConstant?_findString own text loc
  generalize module.findString own text loc = found at known ⊢
  rw [findString, known]

end Assay.Module
