import Assay.Proofs.Check.Completeness
import Assay.Proofs.Check.Handoff

/-!
Contract: which rows of a reported struct lead to a description of the right kind.
-/

namespace Assay

/-- A described kind is known by its number. -/
theorem Kind.eq_of_typeNumber {kind other : Kind} (described : kind ∈ Prelude.describedKinds)
    (same : other.typeNumber = kind.typeNumber) : other = kind := by
  simp only [Prelude.describedKinds, integers, floats, List.cons_append, List.nil_append,
    List.mem_cons, List.not_mem_nil, or_false] at described
  rcases described with rfl | rfl | rfl | rfl | rfl | rfl | rfl | rfl | rfl | rfl | rfl <;>
    cases other <;> first | rfl | cases same

theorem Ty.infoName_of_described {ty : Ty} (described : ty.kind ∈ Prelude.describedKinds) :
    ty.infoName = ty.kind.spelling ++ "_type" := by
  rw [infoName, definitionName]
  cases kind : ty.kind with
  | struct _ | object _ | function _ =>
    rw [kind] at described
    simp [Prelude.describedKinds, Kind.integers, Kind.floats] at described
  | _ => rfl

/-- Whether one of the globals describes a type under the number of its kind. -/
theorem describes_iff {globals : List Global}
    (kinds : ∀ kind ∈ Prelude.describedKinds, ∃ global ∈ globals,
      global.Describes (kind.spelling ++ "_type") kind.typeNumber)
    (numbered : ∀ global ∈ globals, global.Numbered ∧ Run.isAttrTable global.initializer = false)
    (distinct : (globals.map Global.name).Nodup) (ty : Ty) :
    (∃ global ∈ globals, global.Describes ty.infoName ty.kind.typeNumber) ↔
      ty.kind ∈ Prelude.describedKinds ∨ (∃ id, ty.kind = .struct id) ∧
        (∀ kind ∈ Prelude.describedKinds, ty.infoName ≠ kind.spelling ++ "_type") ∧
        ∃ global ∈ globals, global.name = ty.infoName := by
  constructor
  · rintro ⟨global, member, named, constant, isInfo⟩
    have right := (numbered global member).1
    rw [Global.Numbered, isInfo] at right
    rcases right with asStruct | ⟨kind, described, _, asKind⟩
    · refine .inr ⟨?_, fun kind described shadowed => ?_, global, member, named⟩
      · revert asStruct
        cases ty.kind <;> simp [Kind.typeNumber]
      · -- The description of a built-in kind is the only global of its name.
        obtain ⟨other, isOther, otherNamed, _, otherInfo⟩ := kinds kind described
        have sameName := otherNamed.trans (shadowed.symm.trans named.symm)
        cases List.inj_on_of_nodup_map distinct isOther member sameName
        have isKind := (Initializer.typeInfo.inj (otherInfo.symm.trans isInfo)).2.trans asStruct
        rw [← Kind.eq_of_typeNumber described isKind.symm] at described
        revert described
        decide
    · exact .inl (Kind.eq_of_typeNumber described asKind ▸ described)
  · rintro (described | ⟨⟨id, isStruct⟩, plain, global, member, named⟩)
    · rw [Ty.infoName_of_described described]
      exact kinds ty.kind described
    · obtain ⟨right, notTable⟩ := numbered global member
      refine ⟨global, member, named, ?_⟩
      unfold Global.Numbered at right
      split at right
      · next isTable =>
        rw [isTable] at notTable
        cases notTable
      · next constant number isInfo =>
        rcases right with asStruct | ⟨kind, described, isName, _⟩
        · exact ⟨constant, by rw [isInfo, asStruct, isStruct]; rfl⟩
        · exact absurd (named.symm.trans isName) (plain kind described)
      · cases right

/-! ## Reports -/

/-- At the end of a run every description has its right number. -/
theorem Run.ofManifest_numbered (manifest : Manifest) (file : String) (id : ModuleId) :
    ∀ global ∈ ((ofManifest manifest file).session.moduleAt id).globals, global.Numbered := by
  have connected := (ofManifest_rounded manifest file).referenced.connected id
  exact fun global member => (connected.globals global member).2

def Report.Module.Describes (module : Report.Module) (name : String) (number : Nat) : Prop :=
  ∃ symbol ∈ module.globals, symbol.name = name ∧
    ∃ constant, symbol.initializer = .typeInfo constant number

/-- The row of a member is named for the type of the member. A module describes this type under the
number of its kind exactly if the kind is numeric or null, or the type is a struct, the name is not
that of a numeric kind or null, and the module has a global of this name. -/
theorem Manifest.row_described_iff {manifest : Manifest} {file : String} {report : Report}
    (checked : manifest.check file = .ok report) {module : Report.Module}
    (isModule : module ∈ report.modules) {struct : Report.Struct} (isStruct : struct ∈ module.structs)
    (bound : struct.bound = true) :
    ∃ id, struct = Run.structReport (Run.ofManifest manifest file).session id ∧
      ∀ (slot : Nat) (written : Member),
        ((Run.ofManifest manifest file).session.structAt id).members[slot]? = some written →
          ∃ row, struct.attrTable[slot]? = some row ∧ row.typeInfo = written.ty.infoName ∧
            ∀ other ∈ report.modules,
              other.Describes row.typeInfo written.ty.kind.typeNumber ↔
                written.ty.kind ∈ Prelude.describedKinds ∨ (∃ id, written.ty.kind = .struct id) ∧
                  (∀ kind ∈ Prelude.describedKinds, row.typeInfo ≠ kind.spelling ++ "_type") ∧
                  ∃ symbol ∈ other.globals, symbol.name = row.typeInfo := by
  obtain ⟨_, _, rfl⟩ := check_eq_ok_iff.mp checked
  obtain ⟨⟨home, _⟩, _, rfl⟩ := List.mem_map.mp isModule
  obtain ⟨id, listed, rfl⟩ := List.mem_map.mp isStruct
  have rounded := Run.ofManifest_rounded manifest file
  refine ⟨id, rfl, fun slot written isMember => ?_⟩
  obtain ⟨rows, isTable, tabulated⟩ := Run.tabulated_of_reported rounded listed bound
  obtain ⟨row, isRow, describes⟩ := AttrRow.describes_at tabulated.described isMember
  refine ⟨row, by rw [Run.structReport, isTable]; exact isRow, describes.typeInfo, ?_⟩
  intro other isOther
  obtain ⟨entry, isEntry, rfl⟩ := List.mem_map.mp isOther
  rw [Run.ofManifest_modules] at isEntry
  obtain ⟨⟨spec, index⟩, isPair, rfl⟩ := List.mem_map.mp isEntry
  have declared : ((Run.ofManifest manifest file).session.moduleAt ⟨index⟩).Declared spec.name :=
    Run.ofManifest_declared (List.mk_mem_zipIdx_iff_getElem?.mp isPair)
  have tabular := rounded.consistent.modules ⟨index⟩
  have distinct : (((Run.ofManifest manifest file).session.moduleAt ⟨index⟩).globals.map
      Global.name).Nodup := tabular.globals.map_name ▸ tabular.globals.distinct
  have isIff := @describes_iff (((Run.ofManifest manifest file).session.moduleAt
    ⟨index⟩).globals.filter fun global => !Run.isAttrTable global.initializer)
    (fun kind described => ?_) (fun global member => ?_)
    (distinct.sublist (List.filter_sublist.map _)) written.ty
  · rw [describes.typeInfo]
    refine Iff.trans ?_ (isIff.trans ?_)
    · simp [Report.Module.Describes, Run.moduleReport, Global.Describes, tabular.listedGlobals]
    · simp [Run.moduleReport, tabular.listedGlobals]
  · obtain ⟨global, member, named, constant, isInfo⟩ := declared.kinds kind described
    exact ⟨global, List.mem_filter.mpr ⟨member, by rw [isInfo]; rfl⟩, named, constant, isInfo⟩
  · obtain ⟨held, notTable⟩ := List.mem_filter.mp member
    exact ⟨Run.ofManifest_numbered manifest file ⟨index⟩ global held, by simpa using notTable⟩

def switchedLamp : Manifest :=
  { modules := [
      { name := "lamps"
        structs := [{ name := "Lamp", members := [⟨"level", "uint8_t"⟩, ⟨"lit", "bool_t"⟩] }] }] }

theorem switchedLamp_report :
    ∃ report module struct, switchedLamp.check "l" = .ok report ∧ module ∈ report.modules ∧
      struct ∈ module.structs ∧ struct.bound = true ∧ struct.name = "Lamp" ∧
      struct.attrTable[1]?.map AttrRow.typeInfo = some "bool_t_type" ∧
      ∀ other ∈ report.modules, ∀ symbol ∈ other.globals, symbol.name ≠ "bool_t_type" := by
  have passes : (switchedLamp.check "l").toOption.any (fun report =>
      (report.modules.any fun module => module.structs.any fun struct =>
        struct.bound ∧ struct.name = "Lamp" ∧
          struct.attrTable[1]?.map AttrRow.typeInfo = some "bool_t_type") ∧
      ∀ other ∈ report.modules, ∀ symbol ∈ other.globals, symbol.name ≠ "bool_t_type") = true := by
    decide +kernel
  obtain ⟨report, checked, passes⟩ := exists_ok_of_any passes
  obtain ⟨found, undescribed⟩ := of_decide_eq_true passes
  obtain ⟨module, isModule, found⟩ := List.any_eq_true.mp found
  obtain ⟨struct, isStruct, found⟩ := List.any_eq_true.mp found
  obtain ⟨bound, isLamp, isRow⟩ := of_decide_eq_true found
  exact ⟨report, module, struct, checked, isModule, isStruct, bound, isLamp, isRow, undescribed⟩

theorem row_described_iff_switchedLamp :
    ∃ report module struct row, switchedLamp.check "l" = .ok report ∧ module ∈ report.modules ∧
      struct ∈ module.structs ∧ struct.bound = true ∧ struct.attrTable[0]? = some row ∧
      module.Describes row.typeInfo Kind.uint8.typeNumber := by
  have kinds : (Run.ofManifest switchedLamp "l").session.structs.all (fun struct =>
      struct.name = "Lamp" →
        struct.members[0]?.map (fun member => member.ty.kind) = some .uint8) = true := by
    decide +kernel
  obtain ⟨report, module, struct, checked, isModule, isStruct, bound, isLamp, _⟩ := switchedLamp_report
  obtain ⟨id, isReport, rows⟩ := Manifest.row_described_iff checked isModule isStruct bound
  generalize (Run.ofManifest switchedLamp "l").session = session at kinds isReport rows
  have isLamp : (session.structAt id).name = "Lamp" := by
    rw [isReport] at isLamp
    exact isLamp
  have held : session.structAt id ∈ session.structs := by
    cases found : session.structs[id.index]? with
    | none =>
      rw [Session.structAt, found] at isLamp
      exact absurd isLamp (by decide)
    | some lamp =>
      rw [Session.structAt, found]
      exact Array.mem_of_getElem? found
  obtain ⟨written, isMember, isKind⟩ := Option.map_eq_some_iff.mp
    (of_decide_eq_true (Array.all_eq_true_iff_forall_mem.mp kinds _ held) isLamp)
  obtain ⟨row, isRow, _, describes⟩ := rows 0 written isMember
  rw [isKind] at describes
  exact ⟨report, module, struct, row, checked, isModule, isStruct, bound, isRow,
    (describes _ isModule).mpr (.inl (by decide))⟩

/-- The row of a truth value leads to no description. -/
theorem truth_value_undescribed :
    ∃ report module struct, switchedLamp.check "l" = .ok report ∧ module ∈ report.modules ∧
      struct ∈ module.structs ∧ struct.bound = true ∧
      struct.attrTable[1]?.map AttrRow.typeInfo = some "bool_t_type" ∧
      ∀ other ∈ report.modules, ¬ other.Describes "bool_t_type" Kind.bool.typeNumber := by
  obtain ⟨report, module, struct, checked, isModule, isStruct, bound, _, isRow, undescribed⟩ :=
    switchedLamp_report
  refine ⟨report, module, struct, checked, isModule, isStruct, bound, isRow, ?_⟩
  rintro other isOther ⟨symbol, isSymbol, named, _⟩
  exact undescribed other isOther symbol isSymbol named

end Assay
