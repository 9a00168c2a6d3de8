import Assay.Scope.Register

/-!
Contract: giving every member of a struct a definite type.

Owns:
- binding of one struct, which ends with its attribute table;
- binding of all structs of a module and of the variables of its functions, which ends early once the
  log counts one more internal error.

Does not own: the search for a single type name.
-/

namespace Assay.Session

/-- A session after binding, with what binding had to say and whether all went well. -/
structure Bound where
  session : Session
  entries : List Entry
  ok : Bool

/-- What to report for a member whose type has no definition. -/
def unboundMember (struct : Struct) (member : Member) : Entry :=
  if Text.isQualified member.ty.name then
    .error struct.loc (.unresolvedScopedMember struct.name member.name member.ty.name)
  else
    .error struct.loc (.unboundMember struct.name member.name member.ty.name)

/-- Give types to members in order, up to the first that has none. Returns the members and what
was wrong with that one. -/
def bindMemberTypes (session : Session) (scope : ScopeId) (struct : Struct) :
    List Member → List Member × List Entry
  | [] => ([], [])
  | member :: rest =>
      match session.resolveType scope member.ty (unboundMember struct member) with
      | .error entries => (member :: rest, entries)
      | .ok ty =>
          let (bound, entries) := session.bindMemberTypes scope struct rest
          ({ member with ty := ty } :: bound, entries)

/-- The attribute rows of members, whose names become string constants of the module. -/
def attrRows (module : ModuleId) : List Member → StateM Session (List AttrRow)
  | [] => return []
  | member :: rest => do
      let name ← Edit.findString module member.name member.ty.loc
      let row : AttrRow :=
        { member := member.name
          name := name
          typeInfo := member.ty.infoName
          flags := member.ty.flags }
      return row :: (← attrRows module rest)

def attrTableName (struct : String) : String :=
  struct ++ "_attr_table"

/-- Add the attribute table of a struct to a module. -/
def addAttrTable (module : ModuleId) (struct : Struct) : Edit Unit := do
  let rows ← attrRows module struct.members
  Edit.addGlobal module
    { name := attrTableName struct.name
      ty := (Prelude.typeNodeType struct.loc).asArray rows.length
      initializer := .attrTable rows }

/-- The attribute table of a struct in the module that owns the struct. -/
def attrTable? (session : Session) (id : StructId) : Option (List AttrRow) := do
  let struct := session.structAt id
  let module ← session.moduleOf? (← struct.owner)
  let global ← (session.moduleAt module).global? (attrTableName struct.name)
  match global.initializer with
  | .attrTable rows => some rows
  | _ => none

/-- Add the attribute table to the module that owns the struct, and mark the struct as bound. -/
def finishBinding (session : Session) (id : StructId) (scope : ScopeId) : Bound :=
  let struct := session.structAt id
  match session.moduleOf? scope with
  | none => ⟨session, [.internal struct.loc (.noDefinitionScope struct.name)], false⟩
  | some module =>
      match (addAttrTable module struct).run.run session with
      | (.error fault, after) => ⟨after, [.error struct.loc fault], false⟩
      | (.ok (), after) =>
          ⟨after.modifyStruct id fun state => { state with isBound := true }, [], true⟩

/-- Bind one struct, unless it is bound already. -/
def bindStruct (session : Session) (id : StructId) : Bound :=
  let struct := session.structAt id
  let note := Entry.trace struct.loc (.binding struct.name)
  if struct.isBound then
    ⟨session, [note], true⟩
  else
    match struct.owner with
    | none => ⟨session, [note, .internal struct.loc (.noDefinitionScope struct.name)], false⟩
    | some scope =>
        let (members, failures) := session.bindMemberTypes scope struct struct.members
        let typed := session.setStruct id { struct with members := members }
        match failures with
        | [] =>
            let finished := typed.finishBinding id scope
            { finished with entries := note :: finished.entries }
        | _ => ⟨typed, note :: failures, false⟩

/-- A session and its log after the binding of several structs. -/
structure BoundAll where
  session : Session
  log : Log
  ok : Bool

/-- Bind structs in order. One that fails does not stop the others, but an internal error does, by
which the log has more of them than the `before` of the start. -/
def bindStructs (before : Nat) : List StructId → Session → Log → BoundAll
  | [], session, log => ⟨session, log, true⟩
  | id :: rest, session, log =>
      let first := session.bindStruct id
      let recorded := log.recordAll first.entries
      if before < recorded.counts .internal then
        ⟨first.session, recorded, false⟩
      else
        let others := bindStructs before rest first.session recorded
        { others with ok := first.ok && others.ok }

/-- The structs of a module, then the variables of its functions. -/
def pendingStructs (session : Session) (module : ModuleId) : List StructId :=
  let owner := session.moduleAt module
  owner.structs.map Prod.snd ++
    owner.funcs.flatMap fun (_, func) =>
      (session.funcAt func).blocks.map fun block => (session.blockAt block).vars

def bindModule (session : Session) (module : ModuleId) (log : Log) : BoundAll :=
  bindStructs (log.counts .internal) (session.pendingStructs module) session log

end Assay.Session
