/-!
Contract: tables of values by name.

Owns: entering a value, which takes the place of the one that had the name before.

Does not own: the order in which names were entered.
-/

namespace Assay.Table

variable {α : Type} {table : List (String × α)} {name : String} {value : α}

/-- Enter a value under a name. -/
def enter (name : String) (value : α) (table : List (String × α)) : List (String × α) :=
  if table.any (fun entry => entry.1 = name) then
    table.map fun entry => if entry.1 = name then (name, value) else entry
  else
    table ++ [(name, value)]

/-- A name is free exactly if no entry has it. -/
theorem lookup_eq_none : table.lookup name = none ↔ name ∉ table.map Prod.fst := by
  rw [List.lookup_eq_none_iff]
  simp only [List.mem_map, bne_iff_ne, not_exists, not_and]
  exact ⟨fun free entry member same => free entry member same.symm,
    fun free entry member same => free entry member same.symm⟩

theorem mem_of_lookup (found : table.lookup name = some value) : (name, value) ∈ table := by
  obtain ⟨earlier, later, rfl, _⟩ := List.lookup_eq_some_iff.mp found
  simp

/-- Where no name is repeated, exactly the entries are found. -/
theorem lookup_eq_some_iff_mem (distinct : (table.map Prod.fst).Nodup) :
    table.lookup name = some value ↔ (name, value) ∈ table := by
  refine ⟨mem_of_lookup, fun member => ?_⟩
  obtain ⟨earlier, later, rfl⟩ := List.append_of_mem member
  refine List.lookup_eq_some_iff.mpr ⟨earlier, later, rfl, fun entry isEarlier => ?_⟩
  rw [List.map_append, List.nodup_append] at distinct
  have different := distinct.2.2 entry.1 (List.mem_map_of_mem isEarlier) name (by simp)
  simpa using different.symm

theorem lookup_concat {other : String} {found : α} (free : table.lookup name = none) :
    (table ++ [(name, value)]).lookup other = some found ↔
      table.lookup other = some found ∨ other = name ∧ value = found := by
  rw [List.lookup_append, Option.or_eq_some_iff]
  by_cases same : other = name
  · subst same
    simp [free]
  · rw [List.lookup_cons, beq_eq_false_iff_ne.mpr same]
    simp [same]

theorem any_eq_true : (table.any fun entry => entry.1 = name) = true ↔ name ∈ table.map Prod.fst := by
  simp

theorem enter_of_free (free : table.lookup name = none) (value : α) :
    enter name value table = table ++ [(name, value)] :=
  if_neg fun taken => lookup_eq_none.mp free (any_eq_true.mp taken)

theorem enter_of_taken (taken : name ∈ table.map Prod.fst) (value : α) :
    enter name value table = table.map fun entry => if entry.1 = name then (name, value) else entry :=
  if_pos (any_eq_true.mpr taken)

theorem map_fst_enter (name : String) (value : α) (table : List (String × α)) :
    (enter name value table).map Prod.fst =
      if name ∈ table.map Prod.fst then table.map Prod.fst else table.map Prod.fst ++ [name] := by
  split
  · next taken =>
    rw [enter_of_taken taken, List.map_map]
    refine List.map_congr_left fun entry _ => ?_
    show (if entry.1 = name then (name, value) else entry).1 = entry.1
    split
    · next isName => exact isName.symm
    · rfl
  · next free => rw [enter_of_free (lookup_eq_none.mpr free), List.map_append, List.map_singleton]

/-- Values may be changed before or after. -/
theorem map_enter {β : Type} (change : α → β) (name : String) (value : α)
    (table : List (String × α)) :
    (enter name value table).map (Prod.map (fun name => name) change) =
      enter name (change value) (table.map (Prod.map (fun name => name) change)) := by
  have keys : (table.map (Prod.map (fun name => name) change)).map Prod.fst = table.map Prod.fst := by
    rw [List.map_map]
    rfl
  by_cases taken : name ∈ table.map Prod.fst
  · rw [enter_of_taken taken, enter_of_taken (keys ▸ taken), List.map_map, List.map_map]
    refine List.map_congr_left fun entry _ => ?_
    simp only [Function.comp_apply, Prod.map_fst]
    split <;> rfl
  · rw [enter_of_free (lookup_eq_none.mpr taken), List.map_append,
      enter_of_free (lookup_eq_none.mpr (keys ▸ taken)), List.map_singleton]
    rfl

theorem mem_enter {entry : String × α} (member : entry ∈ enter name value table) :
    entry = (name, value) ∨ entry ∈ table := by
  unfold enter at member
  split at member
  · obtain ⟨old, isOld, rfl⟩ := List.mem_map.mp member
    split
    · exact .inl rfl
    · exact .inr isOld
  · exact (List.mem_append.mp member).symm.imp_left List.mem_singleton.mp

end Assay.Table
