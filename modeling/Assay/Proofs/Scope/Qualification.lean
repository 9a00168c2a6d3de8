import Assay.Proofs.Scope.Operations

/-!
Contract: type names that go through imports.
-/

namespace Assay

namespace Text

variable {part rest : List Char} {path : List String} {name : String}

/-- The name of a definition behind the modules on the way to it. -/
def qualified (path : List String) (name : String) : String :=
  "::".intercalate (path ++ [name])

theorem segments_cons {c : Char} (plain : c ≠ ':') {head : List Char} {tail : List (List Char)}
    (isRest : segments rest = head :: tail) : segments (c :: rest) = (c :: head) :: tail := by
  rw [segments, isRest]
  intro _ isMark
  exact absurd isMark plain

/-- Marks separate: a text without `:` in front of a mark is a segment. -/
theorem segments_mark (plain : ':' ∉ part) (rest : List Char) :
    segments (part ++ ':' :: ':' :: rest) = part :: segments rest := by
  induction part with
  | nil => rw [List.nil_append, segments]
  | cons c part ih =>
    obtain ⟨first, others⟩ := not_or.mp (mt List.mem_cons.mpr plain)
    exact segments_cons (Ne.symm first) (ih others)

theorem segments_plain (plain : ':' ∉ part) : segments part = [part] := by
  induction part with
  | nil => rfl
  | cons c part ih =>
    obtain ⟨first, others⟩ := not_or.mp (mt List.mem_cons.mpr plain)
    exact segments_cons (Ne.symm first) (ih others)

/-- Taking apart undoes putting together. -/
theorem segments_qualified (plain : ∀ part ∈ path ++ [name], ':' ∉ part.toList) :
    segments (qualified path name).toList = (path ++ [name]).map String.toList := by
  rw [qualified, String.toList_intercalate]
  induction path with
  | nil => simpa using segments_plain (plain name (by simp))
  | cons first path ih =>
    have isFirst := plain first (by simp)
    have others := ih fun part member => plain part (List.mem_cons_of_mem _ member)
    cases isPath : (path ++ [name]).map String.toList with
    | nil => simp at isPath
    | cons second more =>
      rw [isPath] at others
      rw [List.cons_append, List.map_cons, isPath, List.intercalate_cons_cons, List.append_assoc]
      exact (segments_mark isFirst _).trans (congrArg _ others)

theorem qualifiers_qualified (plain : ∀ part ∈ path ++ [name], ':' ∉ part.toList) :
    qualifiers (qualified path name) = path := by
  rw [qualifiers, segments_qualified plain, List.map_append, List.map_singleton,
    List.dropLast_concat, List.map_map]
  exact (List.map_congr_left fun _ _ => String.ofList_toList).trans (List.map_id path)

theorem baseName_qualified (plain : ∀ part ∈ path ++ [name], ':' ∉ part.toList) :
    baseName (qualified path name) = name := by
  rw [baseName, segments_qualified plain, List.map_append, List.map_singleton, List.getLastD_concat,
    String.ofList_toList]

/-! ## The last segment -/

theorem eq_of_segments_eq_singleton {cs : List Char} (isOnly : segments cs = [part]) : cs = part := by
  fun_induction segments cs generalizing part with
  | case1 => simpa using isOnly
  | case2 rest _ => simp at isOnly
  | case3 c rest _ isEmpty _ => exact absurd isEmpty (segments_ne_nil rest)
  | case4 c rest _ head tail isRest ih =>
    obtain ⟨isPart, rfl⟩ := List.cons.inj isOnly
    rw [← isPart, ih isRest]

theorem segments_last (cs : List Char) :
    segments ((segments cs).getLastD []) = [(segments cs).getLastD []] := by
  fun_induction segments cs with
  | case1 => rfl
  | case2 rest ih => rwa [List.getLastD_cons]
  | case3 c rest _ isEmpty _ => exact absurd isEmpty (segments_ne_nil rest)
  | case4 c rest notMark head tail isRest ih =>
    cases tail with
    | nil =>
      obtain rfl := eq_of_segments_eq_singleton isRest
      rw [List.getLastD_cons, List.getLastD_nil, segments, isRest]
      exact notMark
    | cons second more =>
      rw [isRest] at ih
      exact ih

theorem qualifiers_baseName (name : String) : qualifiers (baseName name) = [] := by
  rw [qualifiers, baseName, String.toList_ofList, segments_last]
  rfl

theorem baseName_baseName (name : String) : baseName (baseName name) = baseName name := by
  rw [baseName, baseName, String.toList_ofList, segments_last]
  rfl

end Text

namespace Session

variable {session : Session} {scope : ScopeId} {start owner : ModuleId} {path : List String}
  {ty located : Ty} {name missing : String}

/-- Each name of a path is an import of the module that the names before it lead to. -/
inductive ImportPath (session : Session) : ModuleId → List String → ModuleId → Prop
  | here (start : ModuleId) : ImportPath session start [] start
  | through {start next owner : ModuleId} {name : String} {path : List String}
      (imported : (session.moduleAt start).import? name = some next)
      (onward : ImportPath session next path owner) : ImportPath session start (name :: path) owner

theorem followImports_eq_ok_iff :
    session.followImports start path = .ok owner ↔ session.ImportPath start path owner := by
  constructor
  · intro followed
    induction path generalizing start with
    | nil =>
      cases followed
      exact .here _
    | cons name path ih =>
      rw [followImports] at followed
      split at followed
      · next imported => exact .through imported (ih followed)
      · cases followed
  · intro isPath
    induction isPath with
    | here => rfl
    | through imported _ ih => rwa [followImports, imported]

/-- The walk stops at the first name that is no import of the module reached by then. -/
theorem ImportPath.followImports_missing {later : List String}
    (isPath : session.ImportPath start path owner)
    (absent : (session.moduleAt owner).import? missing = none) :
    session.followImports start (path ++ missing :: later) = .error missing := by
  induction isPath with
  | here => rw [List.nil_append, followImports, absent]
  | through imported _ ih =>
    rw [List.cons_append, followImports, imported]
    exact ih absent

/-! ## Unresolved names -/

theorem locate_missing (unresolved : ty.isUnresolved = true)
    (around : session.moduleOf? scope = some start)
    (followed : session.followImports start (Text.qualifiers ty.name) = .error missing) :
    session.locate scope ty = .error [.error ty.loc (.missingImport ty.name missing)] := by
  simp [locate, unresolved, around, followed]

/-- A second search looks for the bare name in the module around the scope. -/
theorem Located.again (unresolved : ty.isUnresolved = true)
    (found : session.Located scope ty located start owner) :
    session.locate scope located =
      if (session.moduleAt start).defines located.name then
        .ok { located with definedIn := some start }
      else .error [] := by
  have isName : located.name = Text.baseName ty.name := by rw [found.isLocated]
  have still : located.isUnresolved = true := by rw [found.isLocated]; exact unresolved
  have followed : session.followImports start (Text.qualifiers located.name) = .ok start := by
    rw [isName, Text.qualifiers_baseName, followImports]
  rw [locate_followed still found.around followed, isName, Text.baseName_baseName, ← isName]

def neighbours : Session :=
  Operation.runAll (ofTarget {}) [.newModule "a" .builtin, .newModule "b" .builtin,
    .addImport ⟨0⟩ ⟨1⟩, .addImport ⟨1⟩ ⟨0⟩, .newStruct "S" .builtin false, .addStruct ⟨1⟩ ⟨3⟩,
    .newObject "T" .builtin, .addObject ⟨1⟩ ⟨0⟩,
    .addConstant ⟨1⟩ (.declare "T" (.ofKind .uint8 .builtin) .none),
    .addConstant ⟨1⟩ (.declare "SMALL" (.ofKind .uint8 .builtin) .none),
    .addConstant ⟨1⟩ (.declare "ORIGIN" (.ofStruct ⟨3⟩ "S" .builtin) .none),
    .addGlobal ⟨1⟩ { name := "LATER", ty := .ofName "U" .builtin, initializer := .none }]

theorem ok_of_toOption {ε α : Type} {result : Except ε α} {value : α}
    (isValue : result.toOption = some value) : result = .ok value := by
  cases result <;> cases isValue
  rfl

/-! ## Main results -/

/-- The search for a qualified name follows exactly the imports that the name goes through. -/
theorem qualified_name_follows_imports (session : Session) (start : ModuleId) (path : List String)
    (name : String) (ty : Ty) (plain : ∀ part ∈ path ++ [name], ':' ∉ part.toList)
    (unresolved : ty.isUnresolved = true) (written : ty.name = Text.qualified path name) :
    (∀ located, session.locate (.module start) ty = .ok located ↔
      ∃ owner, session.ImportPath start path owner ∧
        (session.moduleAt owner).defines name = true ∧
        located = { ty with definedIn := some owner, name := name }) ∧
    (∀ earlier missing later owner, path = earlier ++ missing :: later →
      session.ImportPath start earlier owner → (session.moduleAt owner).import? missing = none →
      session.locate (.module start) ty =
        .error [.error ty.loc (.missingImport ty.name missing)]) ∧
    ∀ owner, session.ImportPath start path owner → (session.moduleAt owner).defines name = false →
      session.locate (.module start) ty = .error [] := by
  have isPath : Text.qualifiers ty.name = path := written ▸ Text.qualifiers_qualified plain
  have isName : Text.baseName ty.name = name := written ▸ Text.baseName_qualified plain
  have around : session.moduleOf? (.module start) = some start := rfl
  refine ⟨fun located => ?_, fun earlier missing later owner split reached absent => ?_,
    fun owner reached undefined => ?_⟩
  · rw [locate_eq_ok_iff unresolved]
    constructor
    · rintro ⟨other, owner, found⟩
      obtain rfl := Option.some.inj (around.symm.trans found.around)
      exact ⟨owner, followImports_eq_ok_iff.mp (isPath ▸ found.followed), isName ▸ found.defines,
        isName ▸ found.isLocated⟩
    · rintro ⟨owner, reached, defines, isLocated⟩
      exact ⟨start, owner, around, isPath ▸ followImports_eq_ok_iff.mpr reached, isName ▸ defines,
        isName ▸ isLocated⟩
  · apply locate_missing unresolved around
    rw [isPath, split]
    exact reached.followImports_missing absent
  · have followed := followImports_eq_ok_iff.mpr reached
    rw [← isPath] at followed
    rw [locate_followed unresolved around followed, isName, if_neg (Bool.eq_false_iff.mp undefined)]

/-- A path may come back to where it started; the second module imports no `c`. -/
theorem qualified_name_follows_imports_neighbours :
    neighbours.locate (.module ⟨0⟩) (.ofName "b::a::b::S" .builtin) =
        .ok { Ty.ofName "b::a::b::S" .builtin with definedIn := some ⟨1⟩, name := "S" } ∧
      neighbours.locate (.module ⟨0⟩) (.ofName "b::c::S" .builtin) =
        .error [.error .builtin (.missingImport "b::c::S" "c")] := by
  have facts : (neighbours.moduleAt ⟨0⟩).import? "b" = some ⟨1⟩ ∧
      (neighbours.moduleAt ⟨1⟩).import? "a" = some ⟨0⟩ ∧
      (neighbours.moduleAt ⟨1⟩).import? "c" = none ∧
      (neighbours.moduleAt ⟨1⟩).defines "S" = true := by decide +kernel
  obtain ⟨toB, toA, noC, defines⟩ := facts
  obtain ⟨found, _⟩ := qualified_name_follows_imports neighbours ⟨0⟩ ["b", "a", "b"] "S"
    (.ofName "b::a::b::S" .builtin) (by decide) (by decide) (by decide)
  obtain ⟨_, missing, _⟩ := qualified_name_follows_imports neighbours ⟨0⟩ ["b", "c"] "S"
    (.ofName "b::c::S" .builtin) (by decide) (by decide) (by decide)
  exact ⟨(found _).mpr ⟨⟨1⟩, .through toB (.through toA (.through toB (.here _))), defines, rfl⟩,
    missing ["b"] "c" [] ⟨1⟩ rfl (.through toB (.here _)) noC⟩

/-- A second search looks for the bare name in the module around the scope, whatever the first one
found: it leaves the type as it is exactly if the definition is in that module. -/
theorem located_again_iff (unresolved : ty.isUnresolved = true)
    (isLocated : session.locate scope ty = .ok located) :
    ∃ start owner, session.moduleOf? scope = some start ∧ located.definedIn = some owner ∧
      (session.locate scope located = .ok located ↔ owner = start) ∧
      session.locate scope located =
        (if (session.moduleAt start).defines located.name then
          .ok { located with definedIn := some start }
        else .error []) ∧
      (Text.isQualified ty.name = false → owner = start) := by
  obtain ⟨start, owner, found⟩ := (locate_eq_ok_iff unresolved).mp isLocated
  have again := found.again unresolved
  obtain ⟨around, followed, defines, rfl⟩ := found
  refine ⟨start, owner, around, rfl, ?_, again, fun unqualified => ?_⟩
  · rw [again]
    constructor
    · intro same
      split at same <;> cases same
      rfl
    · rintro rfl
      rw [if_pos defines]
  · have isEmpty : Text.qualifiers ty.name = [] := by
      simpa [Text.isQualified] using unqualified
    rw [isEmpty] at followed
    cases followed
    rfl

/-- A definition in the module that asks is found again. -/
theorem located_again_iff_neighbours :
    let located := { Ty.ofName "a::b::S" .builtin with definedIn := some ⟨1⟩, name := "S" }
    neighbours.locate (.module ⟨1⟩) located = .ok located := by
  intro located
  have isLocated : neighbours.locate (.module ⟨1⟩) (.ofName "a::b::S" .builtin) = .ok located :=
    ok_of_toOption (by decide +kernel)
  obtain ⟨start, owner, around, isOwner, again, _⟩ := located_again_iff rfl isLocated
  rw [moduleOf?_module] at around
  cases around
  cases isOwner
  exact again.mpr rfl

/-- A definition behind an import is lost by the second search. -/
theorem located_again_loses :
    let ty := Ty.ofName "b::S" .builtin
    let located := { ty with definedIn := some ⟨1⟩, name := "S" }
    ty.isUnresolved = true ∧ (neighbours.locate (.module ⟨0⟩) ty).toOption = some located ∧
      (neighbours.locate (.module ⟨0⟩) located).toOption = none := by
  decide +kernel

end Session

end Assay
