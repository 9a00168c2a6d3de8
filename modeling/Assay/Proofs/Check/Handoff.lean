import Assay.Proofs.Check.Sequence
import Assay.Proofs.Check.Settings

/-!
Contract: a report refers to nothing that is not in it.
-/

namespace Assay

theorem Run.ofManifest_rounded (manifest : Manifest) (file : String) :
    (ofManifest manifest file).session.Rounded := by
  rw [ofManifest_steps]
  exact ((steps_taken manifest file).orderly (orderly_start manifest file)).rounded

/-! ## Reports -/

theorem AttrRow.describes_at {module : Module} {rows : List AttrRow} {members : List Member}
    (described : List.Forall₂ (AttrRow.Describes module) rows members) {slot : Nat} {member : Member}
    (found : members[slot]? = some member) :
    ∃ row, rows[slot]? = some row ∧ row.Describes module member := by
  obtain ⟨inMembers, rfl⟩ := List.getElem?_eq_some_iff.mp found
  have inRows : slot < rows.length := described.length_eq ▸ inMembers
  exact ⟨rows[slot], List.getElem?_eq_getElem inRows, described.get inRows inMembers⟩

/-- A reported constant is a string whose text is `text`. -/
def Report.Module.Holds (module : Report.Module) (name text : String) : Prop :=
  ∃ symbol index, module.constant? name = some symbol ∧ symbol.initializer = .stringIndex index ∧
    module.strings[index]? = some text

namespace Run

variable {run : Run} {id : ModuleId}

/-- A constant of a module is reported under its name. -/
theorem moduleReport_holds (rounded : run.session.Rounded) {name text : String}
    (holds : (run.session.moduleAt id).Holds name text) : (run.moduleReport id).Holds name text := by
  obtain ⟨constant, index, found, _, isIndex, isText⟩ := holds
  refine ⟨⟨constant.name, constant.ty.text, constant.initializer⟩, index, ?_, isIndex, isText⟩
  have tabular := rounded.consistent.modules id
  show List.find? _ (List.map _ _) = _
  rw [List.find?_map, tabular.listedConstants]
  exact Option.map_eq_some_iff.mpr ⟨constant, tabular.constants.find?_eq.trans found, rfl⟩

/-- The initializers of a reported module refer to what is reported with them. -/
theorem moduleReport_linked (rounded : run.session.Rounded) {symbol : Report.Symbol}
    (member : symbol ∈ (run.moduleReport id).constants ++ (run.moduleReport id).globals) :
    (run.session.moduleAt id).Linked symbol.name symbol.initializer := by
  have connected := rounded.referenced.connected id
  have tabular := rounded.consistent.modules id
  rcases List.mem_append.mp member with isConstant | isGlobal
  · obtain ⟨constant, isMember, rfl⟩ := List.mem_map.mp isConstant
    exact (connected.constants constant (tabular.listedConstants ▸ isMember)).1
  · obtain ⟨global, isMember, rfl⟩ := List.mem_map.mp isGlobal
    exact (connected.globals global (tabular.listedGlobals ▸ (List.mem_filter.mp isMember).1)).1

/-- A bound struct that a module reports is complete in that module. -/
theorem tabulated_of_reported (rounded : run.session.Rounded) {struct : StructId}
    (listed : struct ∈ ((run.session.moduleAt id).structs.map Prod.snd).filter
      fun struct => struct ∉ Prelude.structIds)
    (bound : (run.session.structAt struct).isBound = true) :
    ∃ rows, run.session.attrTable? struct = some rows ∧ run.session.Tabulated struct id rows := by
  obtain ⟨isListed, isOwn⟩ := List.mem_filter.mp listed
  obtain ⟨entry, isEntry, rfl⟩ := List.mem_map.mp isListed
  have owner := (rounded.referenced.listed id entry isEntry).resolve_left (of_decide_eq_true isOwn)
  obtain ⟨module, rows, home, tabulated⟩ := rounded.fitted.complete _ id owner bound
  have isHome : run.session.home? entry.2 = some id := by
    rw [Session.home?, owner]
    rfl
  cases home.symm.trans isHome
  exact ⟨rows, tabulated.attrTable? home, tabulated⟩

end Run

/-- A report refers to nothing that is not in it: places in the string table are there, the rows of
a bound struct describe its members in order, and descriptions of types are named after the text of
a constant. -/
theorem Manifest.report_refers_within {manifest : Manifest} {file : String} {report : Report}
    (checked : manifest.check file = .ok report) {module : Report.Module}
    (member : module ∈ report.modules) :
    (∀ symbol ∈ module.constants ++ module.globals, ∀ index,
      symbol.initializer = .stringIndex index → index < module.strings.length) ∧
    (∀ struct ∈ module.structs, ∃ id,
      struct = Run.structReport (Run.ofManifest manifest file).session id ∧
      (struct.bound = true → struct.attrTable.length = struct.members.length ∧
        ∀ (slot : Nat) (written : Member),
          ((Run.ofManifest manifest file).session.structAt id).members[slot]? = some written →
            written.ty.isUnresolved = false ∧ ∃ row, struct.attrTable[slot]? = some row ∧
              row.member = written.name ∧ row.flags = written.ty.flags ∧
              module.Holds row.name written.name)) ∧
    ∀ global ∈ module.globals, ∀ name ty, global.initializer = .typeInfo name ty →
      ∃ text, module.Holds name text ∧ global.name = text ++ "_type" := by
  obtain ⟨_, _, rfl⟩ := check_eq_ok_iff.mp checked
  obtain ⟨⟨id, spec⟩, _, rfl⟩ := List.mem_map.mp member
  have rounded := Run.ofManifest_rounded manifest file
  generalize Run.ofManifest manifest file = run at *
  refine ⟨fun symbol isSymbol index isIndex => ?_, fun struct isStruct => ?_,
    fun global isGlobal name ty isInfo => ?_⟩
  · have linked := Run.moduleReport_linked rounded isSymbol
    rw [isIndex] at linked
    exact linked
  · obtain ⟨struct, listed, rfl⟩ := List.mem_map.mp isStruct
    refine ⟨struct, rfl, fun bound => ?_⟩
    obtain ⟨rows, isTable, tabulated⟩ := Run.tabulated_of_reported rounded listed bound
    have isRows : (Run.structReport run.session struct).attrTable = rows := by
      rw [Run.structReport, isTable]
      rfl
    rw [isRows]
    refine ⟨?_, fun slot written isMember => ?_⟩
    · rw [tabulated.described.length_eq]
      simp [Run.structReport]
    · refine ⟨tabulated.definite written (List.mem_of_getElem? isMember), ?_⟩
      obtain ⟨row, isRow, describes⟩ := AttrRow.describes_at tabulated.described isMember
      exact ⟨row, isRow, describes.member, describes.flags,
        Run.moduleReport_holds rounded describes.name⟩
  · have linked := Run.moduleReport_linked rounded (List.mem_append_right _ isGlobal)
    rw [isInfo] at linked
    obtain ⟨text, holds, isName⟩ := linked
    exact ⟨text, Run.moduleReport_holds rounded holds, isName⟩

def labelledParcels : Manifest :=
  { modules := [
      { name := "parcels"
        structs := [{ name := "Parcel", members := [⟨"label", "string_t"⟩, ⟨"weight", "uint32_t"⟩] }]
        functions := [{ name := "ship", inbound := [⟨"parcel", "Parcel"⟩] }]
        constants := [{ name := "label", value := .text "weight" }] }] }

/-- The rows of the struct lead to constants that hold the names of its members, also where another
constant has such a name. -/
theorem report_refers_within_labelledParcels :
    ∃ report module struct, labelledParcels.check "p" = .ok report ∧ report.modules[0]? = some module ∧
      module.structs[0]? = some struct ∧ struct.bound = true ∧ struct.members.length = 4 ∧
      struct.attrTable.length = 4 ∧ (∀ symbol ∈ module.constants ++ module.globals, ∀ index,
        symbol.initializer = .stringIndex index → index < module.strings.length) := by
  have passes : (labelledParcels.check "p").toOption.any (fun report =>
      report.modules[0]?.any fun module => module.structs[0]?.any fun struct =>
        struct.bound && struct.members.length == 4) = true := by
    decide +kernel
  obtain ⟨report, checked, found⟩ := exists_ok_of_any passes
  simp only [Option.any_eq_true, Bool.and_eq_true, beq_iff_eq] at found
  obtain ⟨module, isModule, struct, isStruct, bound, length⟩ := found
  obtain ⟨places, structs, _⟩ :=
    Manifest.report_refers_within checked (List.mem_of_getElem? isModule)
  obtain ⟨id, _, describes⟩ := structs struct (List.mem_of_getElem? isStruct)
  exact ⟨report, module, struct, checked, isModule, isStruct, bound, length,
    (describes bound).1.trans length, places⟩

end Assay
