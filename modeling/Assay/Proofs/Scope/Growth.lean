import Assay.Proofs.Scope.Naming
import Assay.Proofs.Scope.Numbering
import Assay.Proofs.Scope.Parents
import Assay.Scope.Binding

/-!
Contract: what is added to structs and modules, and what the operations that add it keep.
-/

namespace Assay

open Stopping

/-- What is added to a list is good, and the rest was there. -/
theorem mem_concat_or {α : Type} {items : List α} {item : α} {good : α → Prop} (new : good item) :
    ∀ other ∈ items ++ [item], other ∈ items ∨ good other :=
  List.forall_mem_append.mpr ⟨fun _ => .inl, List.forall_mem_singleton.mpr (.inr new)⟩

/-! ## Structs -/

namespace Struct

variable {before middle after : Struct} {name : String} {ty word : Ty} {own : StructId}

theorem push_eq (pushed : before.push name ty = .ok after) :
    after = { before with members := before.members ++ [⟨name, ty⟩] } := by
  unfold push at pushed
  split at pushed <;> cases pushed
  rfl

/-- What a declared member has passed: the struct is open, and its name is neither reserved nor
taken. -/
theorem addMember_ok (added : before.addMember name ty = .ok after) :
    before.isSealed = false ∧ name ≠ referenceCount ∧ name ≠ previousCopy ∧
      before.contains name = false ∧
      after = { before with members := before.members ++ [⟨name, ty⟩] } := by
  unfold addMember push at added
  split at added
  · cases added
  next unsealed =>
  split at added
  · cases added
  next unreserved =>
  split at added
  · cases added
  next free =>
  cases added
  obtain ⟨notCount, notCopy⟩ := not_or.mp unreserved
  exact ⟨Bool.eq_false_iff.mpr unsealed, notCount, notCopy, Bool.eq_false_iff.mpr free, rfl⟩

/-- Sealing leaves a sealed struct alone, and gives any other its bookkeeping members. -/
theorem sealWith_eq (done : before.sealWith own word = .ok after) :
    before.isSealed = true ∧ after = before ∨ before.isSealed = false ∧
      after = { before with
        members := before.members ++ [⟨referenceCount, word⟩,
          ⟨previousCopy, .refToStruct own before.name before.loc⟩]
        isSealed := true } := by
  unfold sealWith at done
  split at done
  · next isSealed =>
    cases done
    exact .inl ⟨isSealed, rfl⟩
  · next unsealed =>
    obtain ⟨first, counted, rest⟩ := bind_eq_ok.mp done
    obtain ⟨second, linked, isAfter⟩ := bind_eq_ok.mp rest
    cases isAfter
    cases push_eq counted
    cases push_eq linked
    refine .inr ⟨Bool.eq_false_iff.mpr unsealed, ?_⟩
    simp

structure Refines (before after : Struct) : Prop where
  name : after.name = before.name
  definite : ∀ ⦃slot : Nat⦄ ⦃member : Member⦄, before.members[slot]? = some member →
    member.ty.isUnresolved = false → after.members[slot]? = some member

namespace Refines

theorem refl (struct : Struct) : struct.Refines struct :=
  ⟨rfl, fun _ _ found _ => found⟩

theorem trans (first : before.Refines middle) (second : middle.Refines after) :
    before.Refines after :=
  ⟨second.name.trans first.name, fun _ _ found definite =>
    second.definite (first.definite found definite) definite⟩

/-- Members that are added stand behind the others. -/
theorem of_append {more : List Member} (name : after.name = before.name)
    (members : after.members = before.members ++ more) : before.Refines after := by
  refine ⟨name, fun slot member found _ => ?_⟩
  obtain ⟨bound, _⟩ := List.getElem?_eq_some_iff.mp found
  rw [members, List.getElem?_append_left bound]
  exact found

theorem addMember (added : before.addMember name ty = .ok after) : before.Refines after := by
  obtain ⟨_, _, _, _, rfl⟩ := addMember_ok added
  exact .of_append rfl rfl

theorem sealWith (done : before.sealWith own word = .ok after) : before.Refines after := by
  rcases sealWith_eq done with ⟨_, rfl⟩ | ⟨_, rfl⟩
  · exact .refl _
  · exact .of_append rfl rfl

end Refines

end Struct

/-! ## Constants -/

/-- A const type that admits the value, and elements in range. -/
structure Constant.Sound (constant : Constant) : Prop where
  isConst : constant.ty.isConst = true
  value : ∀ ⦃literal⦄, constant.initializer = .value literal → constant.ty.Admits literal
  interned : ∀ ⦃index⦄, constant.initializer = .stringIndex index → constant.ty.Textual
  aggregate : ∀ ⦃literals⦄, constant.initializer = .aggregate literals →
    ∀ literal ∈ literals, literal.InRange

/-- The number of a description is that of a struct, or that of the built-in kind it is named for. -/
def Global.Numbered (global : Global) : Prop :=
  match global.initializer with
  | .attrTable _ => True
  | .typeInfo _ number => number = (Kind.struct default).typeNumber ∨
      ∃ kind ∈ Prelude.describedKinds,
        global.name = kind.spelling ++ "_type" ∧ number = kind.typeNumber
  | _ => False

namespace Module

variable {module before middle after : Module} {own : ModuleId} {constant held : Constant}
  {name : String}

/-- The literal that an initializer denotes. Texts are read through the string table. -/
def denoted? (module : Module) : Initializer → Option Literal
  | .value literal => some literal
  | .stringIndex index => (module.strings[index]?).map .text
  | _ => none

theorem mem_of_constant? (found : module.constant? name = some constant) :
    constant ∈ module.constants :=
  List.mem_map_of_mem (Table.mem_of_lookup found)

theorem mem_of_global? {global : Global} (found : module.global? name = some global) :
    global ∈ module.globals :=
  List.mem_map_of_mem (Table.mem_of_lookup found)

theorem value?_of_constant? (found : module.constant? name = some constant) :
    module.value? name = some ⟨constant.ty, module.denoted? constant.initializer⟩ := by
  rw [value?, found]
  cases isInitializer : constant.initializer <;> simp [isInitializer, denoted?]

theorem isSome_value? (module : Module) (name : String) :
    (module.value? name).isSome = (module.hasGlobal name || module.hasConstant name) := by
  unfold value? hasGlobal hasConstant
  cases module.constant? name <;> simp

/-- The same definitions of types. Constants, globals and strings may differ. -/
structure Annotated (before after : Module) : Prop where
  own : after.own = before.own
  name : after.name = before.name
  imports : after.imports = before.imports
  structs : after.structs = before.structs
  objects : after.objects = before.objects
  funcs : after.funcs = before.funcs

theorem Annotated.refl (module : Module) : module.Annotated module :=
  ⟨rfl, rfl, rfl, rfl, rfl, rfl⟩

theorem Annotated.trans (first : before.Annotated middle) (second : middle.Annotated after) :
    before.Annotated after where
  own := second.own.trans first.own
  name := second.name.trans first.name
  imports := second.imports.trans first.imports
  structs := second.structs.trans first.structs
  objects := second.objects.trans first.objects
  funcs := second.funcs.trans first.funcs

/-- The same lists of definitions. Strings and numbers of unnamed constants may differ. -/
structure SameLists (before after : Module) : Prop extends before.Annotated after where
  constantTable : after.constantTable = before.constantTable
  constantOrder : after.constantOrder = before.constantOrder
  globalTable : after.globalTable = before.globalTable
  globalOrder : after.globalOrder = before.globalOrder

theorem SameLists.trans (first : before.SameLists middle) (second : middle.SameLists after) :
    before.SameLists after where
  toAnnotated := first.toAnnotated.trans second.toAnnotated
  constantTable := second.constantTable.trans first.constantTable
  constantOrder := second.constantOrder.trans first.constantOrder
  globalTable := second.globalTable.trans first.globalTable
  globalOrder := second.globalOrder.trans first.globalOrder

theorem SameLists.constants (same : before.SameLists after) : after.constants = before.constants :=
  congrArg (List.map Prod.snd) same.constantTable

theorem SameLists.globals (same : before.SameLists after) : after.globals = before.globals :=
  congrArg (List.map Prod.snd) same.globalTable

theorem intern_sameLists (module : Module) (text : String) :
    module.SameLists (module.intern text).2 := by
  unfold intern
  split <;> exact ⟨⟨rfl, rfl, rfl, rfl, rfl, rfl⟩, rfl, rfl, rfl, rfl⟩

theorem strings_intern (module : Module) (text : String) :
    module.strings <+: (module.intern text).2.strings := by
  unfold intern
  split
  · exact List.prefix_rfl
  · exact List.prefix_append _ _

theorem stringConstants_intern (module : Module) (text : String) :
    (module.intern text).2.stringConstants = module.stringConstants := by
  unfold intern
  split <;> rfl

/-- Texts and their places are inverse to each other. -/
def Indexed (module : Module) : Prop :=
  ∀ text index, module.stringIndex? text = some index ↔ module.strings[index]? = some text

theorem indexed_empty (own : ModuleId) (name : String) (loc : Location) :
    Indexed { own := own, name := name, loc := loc } := by
  simp [Indexed, stringIndex?]

/-- A text that is in the table is read back, and one that is not is put there. -/
theorem Indexed.intern (indexed : module.Indexed) (text : String) :
    (module.intern text).2.Indexed ∧
      (module.intern text).2.strings[(module.intern text).1]? = some text := by
  unfold Module.intern
  split
  · next index found => exact ⟨indexed, (indexed text index).mp found⟩
  · next unknown =>
    refine ⟨fun other place => ?_, List.getElem?_concat_length⟩
    dsimp only [stringIndex?]
    rw [Table.enter_of_free unknown, Table.lookup_concat unknown, List.getElem?_append]
    refine (or_congr_left (indexed other place)).trans ?_
    split
    · next bound => simp [Nat.ne_of_gt bound]
    · next bound =>
      have first : place - module.strings.length = 0 ↔ module.strings.length = place := by omega
      rw [List.getElem?_eq_none (Nat.le_of_not_lt bound), List.getElem?_singleton]
      by_cases last : module.strings.length = place
      · simp [last, eq_comm]
      · simp [last, first]

/-- Remembering which constant holds a text changes no other table. -/
theorem noteString_keeps (module : Module) (text name : String) :
    module.SameLists (module.noteString text name) ∧
      (module.noteString text name).strings = module.strings ∧
      (module.noteString text name).stringIndices = module.stringIndices := by
  unfold noteString
  split <;> exact ⟨⟨⟨rfl, rfl, rfl, rfl, rfl, rfl⟩, rfl, rfl, rfl, rfl⟩, rfl, rfl⟩

theorem stringConstant?_noteString {text : String} (unknown : module.stringConstant? text = none)
    (name : String) : (module.noteString text name).stringConstant? text = some name := by
  rw [noteString, unknown]
  rw [stringConstant?] at unknown ⊢
  simp [List.lookup_append, unknown]

theorem mem_noteString {entry : String × String} {text : String}
    (member : entry ∈ (module.noteString text name).stringConstants) :
    entry ∈ module.stringConstants ∨ entry = (text, name) := by
  unfold noteString at member
  split at member
  · exact .inl member
  · exact (List.mem_append.mp member).imp_right List.mem_singleton.mp

/-- Naming a constant changes its name, and nothing in the tables of the module. -/
theorem nameConstant_keeps (module : Module) (constant : Constant) :
    ∃ name number, module.nameConstant constant =
        ({ constant with name := name }, { module with unnamed := number }) ∧
      (constant.name ≠ "" → name = constant.name) := by
  unfold nameConstant
  split
  · next isEmpty => exact ⟨_, _, rfl, fun named => absurd isEmpty named⟩
  · exact ⟨_, module.unnamed, rfl, fun _ => rfl⟩

def pushConstant (module : Module) (constant : Constant) : Module :=
  { module with
    constantTable := module.constantTable ++ [(constant.name, constant)]
    constantOrder := module.constantOrder ++ [constant.name] }

def pushGlobal (module : Module) (global : Global) : Module :=
  { module with
    globalTable := module.globalTable ++ [(global.name, global)]
    globalOrder := module.globalOrder ++ [global.name] }

/-- Under a name that is free nothing is replaced. -/
theorem SameLists.insertConstant (same : before.SameLists after)
    (free : before.hasConstant constant.name = false) :
    (before.pushConstant constant).SameLists (after.insertConstant constant) := by
  have absent : before.constantTable.lookup constant.name = none := by
    simpa [hasConstant, constant?] using free
  refine ⟨⟨same.own, same.name, same.imports, same.structs, same.objects, same.funcs⟩, ?_, ?_,
    same.globalTable, same.globalOrder⟩
  · rw [Module.insertConstant, same.constantTable]
    exact Table.enter_of_free absent constant
  · exact congrArg (· ++ [constant.name]) same.constantOrder

theorem globals_pushGlobal (module : Module) (global : Global) :
    (module.pushGlobal global).globals = module.globals ++ [global] :=
  List.map_append

theorem addGlobal_ok {global : Global} (free : module.hasGlobal global.name = false)
    (own : ModuleId) :
    module.addGlobal own global = .ok (module.pushGlobal { global with owner := some own }) := by
  have absent : module.globalTable.lookup global.name = none := by
    simpa [hasGlobal, global?] using free
  rw [addGlobal, free, insertGlobal, Table.enter_of_free absent]
  rfl

/-- A global is added under a name that is free. -/
theorem addGlobal_appended {global : Global} (added : module.addGlobal own global = .ok after) :
    module.hasGlobal global.name = false ∧
      after = module.pushGlobal { global with owner := some own } := by
  cases free : module.hasGlobal global.name with
  | true =>
    rw [addGlobal, if_pos free] at added
    cases added
  | false =>
    rw [addGlobal_ok free] at added
    exact ⟨rfl, (Except.ok.inj added).symm⟩

/-- How a module holds a constant that was added to it under `name`. A text moves into the string
table, and is read back from there. -/
structure Installs (before : Module) (own : ModuleId) (constant : Constant) (name : String)
    (after : Module) (held : Constant) : Prop where
  lists : (before.pushConstant held).SameLists after
  strings : before.strings <+: after.strings
  indexed : before.Indexed → after.Indexed
  texts : ∀ entry ∈ after.stringConstants, entry ∈ before.stringConstants ∨
    entry.2 = name ∧ held.ty.isString = true ∧ ∃ index, held.initializer = .stringIndex index ∧
      (before.Indexed → after.strings[index]? = some entry.1)
  isName : held.name = name
  named : constant.name ≠ "" → held.name = constant.name
  ty : held.ty = constantType constant.ty
  owner : held.owner = some own
  initializer : held.initializer = constant.initializer ∨ ∃ text index,
    constant.initializer = .value (.text text) ∧ held.initializer = .stringIndex index ∧
      (before.Indexed → after.strings[index]? = some text)
  interned : ∀ text, held.ty.isString = true → constant.initializer = .value (.text text) →
    (∃ index, held.initializer = .stringIndex index ∧
      (before.Indexed → after.strings[index]? = some text)) ∧
      (before.stringConstant? text = none → after.stringConstant? text = some name)

theorem install_installs (module : Module) (own : ModuleId) (constant : Constant)
    (free : constant.name ≠ "" → module.hasConstant constant.name = false) :
    ∃ held, module.Installs own constant (module.install own constant).1
      (module.install own constant).2 held := by
  have isFree := install_free free own
  obtain ⟨label, number, isNamed, named⟩ :=
    module.nameConstant_keeps { constant with ty := constantType constant.ty }
  rw [install, isNamed] at isFree ⊢
  dsimp only at isFree ⊢
  rw [(internConstant_keeps _ _).1] at isFree
  have numbered : module.SameLists { module with unnamed := number } :=
    ⟨⟨rfl, rfl, rfl, rfl, rfl, rfl⟩, rfl, rfl, rfl, rfl⟩
  unfold internConstant
  split
  · next text isString isText =>
    have interned := intern_sameLists { module with unnamed := number } text
    have grown := strings_intern { module with unnamed := number } text
    have texts := stringConstants_intern { module with unnamed := number } text
    have indexed : module.Indexed → Indexed { module with unnamed := number } := fun indexed => indexed
    have read := fun holds => (indexed holds).intern text
    generalize intern { module with unnamed := number } text = interning
      at interned grown texts read ⊢
    obtain ⟨index, table⟩ := interning
    obtain ⟨noted, strings, indices⟩ := table.noteString_keeps text label
    dsimp only at interned grown texts read ⊢
    rw [← strings] at grown
    refine ⟨_, (numbered.trans (interned.trans noted)).insertConstant isFree, grown,
      fun holds other place => ?_, fun entry member => ?_, rfl, named, rfl, rfl,
      .inr ⟨text, index, isText, rfl, fun holds => strings ▸ (read holds).2⟩, fun other _ isOther => ?_⟩
    · show (table.noteString text label).stringIndices.lookup other = some place ↔ _
      rw [indices]
      exact strings ▸ (read holds).1 other place
    · rcases mem_noteString member with isOld | rfl
      · exact .inl (texts ▸ isOld)
      · exact .inr ⟨rfl, isString, index, rfl, fun holds => strings ▸ (read holds).2⟩
    · cases isText.symm.trans isOther
      refine ⟨⟨index, rfl, fun holds => strings ▸ (read holds).2⟩, fun unknown => ?_⟩
      refine stringConstant?_noteString ?_ label
      rw [stringConstant?, texts]
      exact unknown
  · refine ⟨_, numbered.insertConstant isFree, List.prefix_rfl, fun indexed => indexed,
      fun entry member => .inl member, rfl, named, rfl, rfl, .inl rfl, fun text isString isText => ?_⟩
    next other => exact (other text isString isText).elim

/-- A constant is added under a name that is empty or free. -/
theorem addConstant_installed (added : before.addConstant own constant = .ok (name, after)) :
    (constant.name ≠ "" → before.hasConstant constant.name = false) ∧
      before.install own constant = (name, after) := by
  unfold addConstant at added
  split at added
  · cases added
  · next isFree =>
    exact ⟨fun named => Bool.eq_false_iff.mpr fun taken => isFree ⟨named, taken⟩,
      Except.ok.inj added⟩

theorem installs_of_added (added : before.addConstant own constant = .ok (name, after)) :
    ∃ held, before.Installs own constant name after held := by
  obtain ⟨free, installed⟩ := addConstant_installed added
  have installs := before.install_installs own constant free
  rw [installed] at installs
  exact installs

theorem Installs.annotated (installs : before.Installs own constant name after held) :
    before.Annotated after :=
  have same := installs.lists
  ⟨same.own, same.name, same.imports, same.structs, same.objects, same.funcs⟩

/-- A text is known, or a constant for it is installed. -/
theorem findString_cases (module : Module) (own : ModuleId) (text : String) (loc : Location) :
    (module.findString own text loc).2 = module ∧
        module.stringConstant? text = some (module.findString own text loc).1 ∨
      module.stringConstant? text = none ∧ ∃ held,
        module.Installs own (.declare "" (Prelude.stringType loc) (.value (.text text)))
          (module.findString own text loc).1 (module.findString own text loc).2 held := by
  unfold findString
  split
  · next known => exact .inl ⟨rfl, known⟩
  · next unknown =>
    exact .inr ⟨unknown, module.install_installs own _ fun named => absurd rfl named⟩

theorem Installs.constants (installs : before.Installs own constant name after held) :
    after.constants = before.constants ++ [held] := by
  rw [installs.lists.constants]
  exact List.map_append

theorem Installs.denoted (installs : before.Installs own constant name after held)
    (indexed : before.Indexed) {literal : Literal} (isLiteral : constant.initializer = .value literal) :
    after.denoted? held.initializer = some literal := by
  rcases installs.initializer with same | ⟨text, index, isText, isIndex, read⟩
  · rw [same, isLiteral]
    rfl
  · rw [isLiteral] at isText
    cases isText
    rw [isIndex]
    exact congrArg (Option.map Literal.text) (read indexed)

/-- A constant that is sound under the type it is held by. -/
theorem Installs.sound (installs : before.Installs own constant name after held)
    (sound : ({ constant with ty := constantType constant.ty } : Constant).Sound) : held.Sound := by
  obtain ⟨isConst, value, interned, aggregate⟩ := sound
  refine ⟨installs.ty ▸ isConst, fun literal isLiteral => ?_, fun index isInterned => ?_,
    fun literals isAggregate => ?_⟩
  · rcases installs.initializer with same | ⟨_, _, _, isIndex, _⟩
    · exact installs.ty ▸ value (same ▸ isLiteral)
    · rw [isIndex] at isLiteral
      cases isLiteral
  · rcases installs.initializer with same | ⟨text, _, isText, _⟩
    · exact installs.ty ▸ interned (same ▸ isInterned)
    · exact installs.ty ▸ (value isText).textual rfl
  · rcases installs.initializer with same | ⟨_, _, _, isIndex, _⟩
    · exact aggregate (same ▸ isAggregate)
    · rw [isIndex] at isAggregate
      cases isAggregate

/-- Texts are held by a const type and admitted by all of them. -/
theorem text_sound (name text : String) (loc : Location) :
    ({ Constant.declare name (Prelude.stringType loc) (.value (.text text)) with
        ty := constantType (Prelude.stringType loc).asConst } : Constant).Sound := by
  refine ⟨rfl, fun literal isLiteral => ?_, fun _ _ => .inr rfl,
    fun literals isAggregate => by cases isAggregate⟩
  cases isLiteral
  exact ⟨trivial, fun notText => absurd rfl notText, fun _ => .inr rfl⟩

end Module

/-! ## Sessions -/

namespace Session

theorem getD_modify {α : Type} [Inhabited α] (items : Array α) (place other : Nat)
    (change : α → α) : ((items.modify place change)[other]?).getD default =
      if place = other ∧ place < items.size then change ((items[other]?).getD default)
      else (items[other]?).getD default := by
  rw [Array.getElem?_modify]
  by_cases same : place = other
  · subst same
    by_cases bound : place < items.size <;> simp [bound]
  · simp [same]

/-- The same change in two arrays, where they agree. -/
theorem getD_modify_congr {α : Type} [Inhabited α] {items others : Array α} {place index : Nat}
    (change : α → α) (held : index < items.size) (size : items.size ≤ others.size)
    (same : (others[index]?).getD default = (items[index]?).getD default) :
    ((others.modify place change)[index]?).getD default =
      ((items.modify place change)[index]?).getD default := by
  rw [getD_modify, getD_modify, same]
  by_cases isPlace : place = index
  · subst isPlace
    rw [if_pos ⟨rfl, Nat.lt_of_lt_of_le held size⟩, if_pos ⟨rfl, held⟩]
  · rw [if_neg fun both => isPlace both.1, if_neg fun both => isPlace both.1]

theorem moduleAt_setModule (session : Session) (id other : ModuleId) (module : Module) :
    (session.setModule id module).moduleAt other =
      if id = other ∧ id.index < session.modules.size then module else session.moduleAt other := by
  cases id
  cases other
  simp only [ModuleId.mk.injEq]
  exact getD_modify session.modules _ _ fun _ => module

theorem moduleAt_push (session : Session) (module : Module) (id : ModuleId) :
    ({ session with modules := session.modules.push module } : Session).moduleAt id =
      if id.index = session.modules.size then module else session.moduleAt id := by
  rw [moduleAt, Array.getElem?_push]
  split <;> rfl

theorem moduleAt_allocModule (session : Session) (name : String) (loc : Location) (id : ModuleId) :
    ((allocModule name loc).run session).2.moduleAt id =
      if id.index = session.modules.size then { own := ⟨session.modules.size⟩, name := name, loc := loc }
      else session.moduleAt id :=
  session.moduleAt_push { own := ⟨session.modules.size⟩, name := name, loc := loc } id

theorem structAt_modifyStruct (session : Session) (id other : StructId) (change : Struct → Struct) :
    (session.modifyStruct id change).structAt other =
      if id = other ∧ id.index < session.structs.size then change (session.structAt other)
      else session.structAt other := by
  cases id
  cases other
  simp only [StructId.mk.injEq]
  exact getD_modify session.structs _ _ change

theorem structAt_setStruct (session : Session) (id other : StructId) (struct : Struct) :
    (session.setStruct id struct).structAt other =
      if id = other ∧ id.index < session.structs.size then struct else session.structAt other :=
  structAt_modifyStruct session id other fun _ => struct

end Session

/-! ## Changes -/

namespace Edit

section

variable {session : Session} {module : ModuleId} {id : StructId} {fault : Fault}

theorem changeModule_ok (change : Module → Except Fault Module) {after : Module}
    (changed : change (session.moduleAt module) = .ok after) :
    (changeModule module change).run.run session = (.ok ⟨⟩, session.setModule module after) := by
  rw [changeModule, run_get_bind, changed]
  rfl

theorem changeModule_error (change : Module → Except Fault Module)
    (refused : change (session.moduleAt module) = .error fault) :
    (changeModule module change).run.run session = (.error fault, session) := by
  rw [changeModule, run_get_bind, refused]
  rfl

theorem changeStruct_ok (change : Struct → Except Fault Struct)
    {struct : Struct} (changed : change (session.structAt id) = .ok struct) :
    (changeStruct id change).run.run session = (.ok ⟨⟩, session.setStruct id struct) := by
  rw [changeStruct, run_get_bind, changed]
  rfl

theorem changeStruct_error (change : Struct → Except Fault Struct)
    (refused : change (session.structAt id) = .error fault) :
    (changeStruct id change).run.run session = (.error fault, session) := by
  rw [changeStruct, run_get_bind, refused]
  rfl

def annotateStruct (module : ModuleId) (struct : Struct) (id : StructId) : Edit Unit := do
  let infoName := struct.name ++ "_type"
  if ((← get).moduleAt module).hasGlobal infoName then
    return
  let typeName := struct.name ++ "_type_name"
  let _ ← addConstant module
    (.declare typeName (Prelude.stringType struct.loc) (.value (.text struct.name)))
  addGlobal module
    { name := infoName
      ty := Prelude.typeInfoType struct.loc
      initializer := .typeInfo typeName (Kind.struct id).typeNumber }

theorem describeStruct_sealed {struct : Struct}
    (done : (session.structAt id).sealWith id
      (session.target.wordType (session.structAt id).loc) = .ok struct) :
    (describeStruct module id).run.run session =
      (annotateStruct module (session.structAt id) id).run.run (session.setStruct id struct) := by
  rw [describeStruct, run_get_bind, run_get_bind, run_bind,
    changeStruct_ok (fun state => state.sealWith id _) done]
  rfl

theorem describeStruct_refused
    (refused : (session.structAt id).sealWith id
      (session.target.wordType (session.structAt id).loc) = .error fault) :
    (describeStruct module id).run.run session = (.error fault, session) := by
  rw [describeStruct, run_get_bind, run_get_bind, run_bind,
    changeStruct_error (fun state => state.sealWith id _) refused]

end

section Keeps

variable {inv : Session → Prop} {module : ModuleId}

theorem changeModule_keeps {change : Module → Except Fault Module}
    (step : ∀ {session after}, inv session → change (session.moduleAt module) = .ok after →
      inv (session.setModule module after)) : Keeps inv (changeModule module change) := by
  refine .get_bind fun session holds => ?_
  cases changed : change (session.moduleAt module) with
  | error fault => exact holds
  | ok after => exact step holds changed

theorem addConstant_keeps {constant : Constant}
    (step : ∀ {session name after}, inv session →
      (session.moduleAt module).addConstant module constant = .ok (name, after) →
        inv (session.setModule module after)) : Keeps inv (addConstant module constant) := by
  refine .get_bind fun session holds => ?_
  cases added : (session.moduleAt module).addConstant module constant with
  | error fault => exact holds
  | ok result => exact step holds added

theorem changeStruct_keeps {id : StructId} {change : Struct → Except Fault Struct}
    (step : ∀ {session struct}, inv session → change (session.structAt id) = .ok struct →
      inv (session.setStruct id struct)) : Keeps inv (changeStruct id change) := by
  refine .get_bind fun session holds => ?_
  cases changed : change (session.structAt id) with
  | error fault => exact holds
  | ok struct => exact step holds changed

section

variable (constant : ∀ name loc text, Keeps inv
    (addConstant module (.declare name (Prelude.stringType loc) (.value (.text text)))))
  (find : ∀ text loc, Computation.Keeps inv (findString module text loc))
  (global : ∀ name loc initializer,
    Keeps inv (addGlobal module { name, ty := Prelude.typeInfoType loc, initializer }))

include global

include constant in
theorem annotateStruct_keeps (struct : Struct) (id : StructId) :
    Keeps inv (annotateStruct module struct id) := by
  refine .get_bind fun session holds => ?_
  split
  · exact holds
  · exact (constant _ _ _).bind (fun _ => global _ _ _) session holds

include find in
theorem describeKind_keeps (kind : Kind) : Keeps inv (describeKind module kind) := by
  refine .get_bind fun session holds => ?_
  split
  · exact holds
  · exact (Keeps.lift (find _ _)).bind (fun _ => global _ _ _) session holds

end

theorem describeStruct_keeps {id : StructId}
    (seals : ∀ {session struct}, inv session → (session.structAt id).sealWith id
      (session.target.wordType (session.structAt id).loc) = .ok struct →
        inv (session.setStruct id struct))
    (annotates : ∀ struct, Keeps inv (annotateStruct module struct id)) :
    Keeps inv (describeStruct module id) := by
  intro session holds
  cases sealing : (session.structAt id).sealWith id
      (session.target.wordType (session.structAt id).loc) with
  | error fault =>
    rw [describeStruct_refused sealing]
    exact holds
  | ok struct =>
    rw [describeStruct_sealed sealing]
    exact annotates _ _ (seals holds sealing)

variable {name : String} {ty : Ty}

theorem addMember_keeps {id : StructId}
    (step : ∀ {session struct}, inv session →
      (session.structAt id).addMember name ty = .ok struct → inv (session.setStruct id struct)) :
    Keeps inv (addMember id name ty) :=
  .get_bind fun session => (changeStruct_keeps step).bind (fun _ => .pure _) session

variable (step : ∀ {session id struct}, inv session →
  (session.structAt id).addMember name ty = .ok struct → inv (session.setStruct id struct))

include step

theorem addParameter_keeps (func : FuncId) (params : StructId) :
    Keeps inv (addParameter func params name ty) := by
  refine .get_bind fun session holds => ?_
  split
  · exact holds
  · exact addMember_keeps step session holds

theorem addInbound_keeps (func : FuncId) : Keeps inv (addInbound func name ty) :=
  .get_bind fun session => addParameter_keeps step func (session.funcAt func).inbound session

theorem addOutbound_keeps (func : FuncId) : Keeps inv (addOutbound func name ty) :=
  .get_bind fun session => addParameter_keeps step func (session.funcAt func).outbound session

theorem addLocal_keeps (block : BlockId) : Keeps inv (addLocal block name ty) :=
  .get_bind fun session => @addMember_keeps _ _ _ (session.blockAt block).vars step session

end Keeps

end Edit

/-! ## Binding -/

namespace Session

variable {session : Session}

/-- A member either keeps its type or gets the type that was found for it. -/
theorem bindMemberTypes_slot (session : Session) (scope : ScopeId) (struct : Struct)
    {members : List Member} {slot : Nat} {member : Member}
    (isMember : members[slot]? = some member) :
    (session.bindMemberTypes scope struct members).1[slot]? = some member ∨
      ∃ ty, session.resolveType scope member.ty (unboundMember struct member) = .ok ty ∧
        (session.bindMemberTypes scope struct members).1[slot]? = some { member with ty := ty } := by
  induction members generalizing slot with
  | nil => cases isMember
  | cons first rest ih =>
    rw [bindMemberTypes]
    split
    · exact .inl isMember
    · next ty resolved =>
      cases slot with
      | zero =>
        cases isMember
        exact .inr ⟨ty, resolved, rfl⟩
      | succ slot => exact ih isMember

theorem bindMemberTypes_definite (session : Session) (scope : ScopeId) (struct : Struct)
    {members : List Member} {slot : Nat} {member : Member} (found : members[slot]? = some member)
    (definite : member.ty.isUnresolved = false) :
    (session.bindMemberTypes scope struct members).1[slot]? = some member := by
  rcases session.bindMemberTypes_slot scope struct found with kept | ⟨ty, resolved, bound⟩
  · exact kept
  · rw [resolveType_definite session scope definite] at resolved
    cases resolved
    exact bound

structure LastsBinding (id : StructId) (inv : Session → Prop) : Prop where
  table : ∀ {session scope module}, inv session → (session.structAt id).owner = some scope →
    session.moduleOf? scope = some module →
      inv ((addAttrTable module (session.structAt id)).run.run session).2
  types : ∀ {session} scope, inv session → inv (session.setStruct id { session.structAt id with
    members := (session.bindMemberTypes scope (session.structAt id)
      (session.structAt id).members).1 })
  mark : ∀ {session}, inv session →
    inv (session.modifyStruct id fun state => { state with isBound := true })

section

variable {inv : Session → Prop} {id : StructId}

theorem attrRows_keeps {module : ModuleId}
    (text : ∀ text loc, Computation.Keeps inv (Edit.findString module text loc))
    (members : List Member) : Computation.Keeps inv (attrRows module members) := by
  induction members with
  | nil => exact .pure _
  | cons member rest ih => exact (text _ _).bind fun _ => ih.bind fun _ => .pure _

theorem addAttrTable_keeps {module : ModuleId}
    (text : ∀ text loc, Computation.Keeps inv (Edit.findString module text loc))
    (global : ∀ global, Keeps inv (Edit.addGlobal module global)) (struct : Struct) :
    Keeps inv (addAttrTable module struct) :=
  (Keeps.lift (attrRows_keeps text struct.members)).bind fun _ => global _

namespace LastsBinding

theorem finishBinding (lasts : LastsBinding id inv) (holds : inv session) {scope : ScopeId}
    (owner : (session.structAt id).owner = some scope) :
    inv (session.finishBinding id scope).session := by
  unfold Session.finishBinding
  dsimp only
  split
  · exact holds
  · next module isModule =>
    have kept := lasts.table holds owner isModule
    split
    · next outcome =>
      rw [outcome] at kept
      exact kept
    · next outcome =>
      rw [outcome] at kept
      exact lasts.mark kept

theorem bindStruct (lasts : LastsBinding id inv) (holds : inv session) :
    inv (session.bindStruct id).session := by
  unfold Session.bindStruct
  dsimp only
  split
  · exact holds
  · split
    · exact holds
    · next scope owner =>
      have typed := lasts.types scope holds
      split
      · refine lasts.finishBinding typed ?_
        rw [structAt_setStruct]
        split <;> exact owner
      · exact typed

theorem bindStructs (lasts : ∀ id, LastsBinding id inv) (holds : inv session) (count : Nat)
    (ids : List StructId) (log : Log) : inv (bindStructs count ids session log).session := by
  induction ids generalizing session log with
  | nil => exact holds
  | cons id ids ih =>
    rw [Session.bindStructs]
    dsimp only
    split
    · exact (lasts id).bindStruct holds
    · exact ih ((lasts id).bindStruct holds) _

end LastsBinding

end

end Session

end Assay
