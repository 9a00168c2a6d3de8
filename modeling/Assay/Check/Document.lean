import Assay.Check.Report
import Assay.Json.Printer

/-!
Contract: reports as JSON.

Owns: the names and the order of all fields.
-/

namespace Assay

def Literal.toJson : Literal → Json
  | .bool value => .bool value
  | .int value => .ofInt value
  | .real value => .ofFloat value
  | .text value => .ofText value

def AttrRow.toJson (row : AttrRow) : Json :=
  .record
    [("member", .ofText row.member),
     ("name", .ofText row.name),
     ("type_info", .ofText row.typeInfo),
     ("flags", .ofNat row.flags)]

def Initializer.toJson : Initializer → Json
  | .none => .ofText "none"
  | .value literal => .record [("value", literal.toJson)]
  | .aggregate literals => .record [("aggregate", .array (literals.map Literal.toJson))]
  | .stringIndex index => .record [("string_index", .ofNat index)]
  | .typeInfo name number =>
      .record [("type_info", .record [("name", .ofText name), ("type_id", .ofNat number)])]
  | .attrTable rows => .record [("attr_table", .array (rows.map AttrRow.toJson))]

def Location.toJson (loc : Location) : Json :=
  .record
    [("file", .ofText loc.file),
     ("line", .ofNat loc.line),
     ("column", .ofNat loc.column)]

def Diagnostic.toJson (diagnostic : Diagnostic) : Json :=
  let entry := diagnostic.entry
  let origin := if diagnostic.origin then [("origin", Json.bool true)] else []
  .record <|
    [("severity", .ofText entry.severity.name),
     ("location", (entry.location.map Location.toJson).getD .null),
     ("message", .ofText entry.message)] ++ origin

def Report.Struct.toJson (report : Report.Struct) : Json :=
  let member (member : (String × String) × Nat) : Json :=
    .record
      [("index", .ofNat member.2),
       ("name", .ofText member.1.1),
       ("type", .ofText member.1.2)]
  .record
    [("name", .ofText report.name),
     ("packed", .bool report.packed),
     ("bound", .bool report.bound),
     ("members", .array (report.members.zipIdx.map member)),
     ("dependencies", .array (report.dependencies.map .ofText)),
     ("attr_table", .array (report.attrTable.map AttrRow.toJson))]

def Report.Symbol.toJson (report : Report.Symbol) : Json :=
  .record
    [("name", .ofText report.name),
     ("type", .ofText report.type),
     ("initializer", report.initializer.toJson)]

def Report.Variable.toJson (report : Report.Variable) : Json :=
  .record
    [("func", .ofText report.func),
     ("name", .ofText report.name),
     ("type", .ofText report.type),
     ("init", (report.init.map Json.ofText).getD .null)]

def Report.Module.toJson (report : Report.Module) : Json :=
  .record
    [("name", .ofText report.name),
     ("structs", .array (report.structs.map Report.Struct.toJson)),
     ("constants", .array (report.constants.map Report.Symbol.toJson)),
     ("globals", .array (report.globals.map Report.Symbol.toJson)),
     ("string_table", .array (report.strings.map .ofText)),
     ("locals", .array (report.locals.map Report.Variable.toJson))]

def Report.toJson (report : Report) : Json :=
  .record
    [("modules", .array (report.modules.map Report.Module.toJson)),
     ("diagnostics", .record
       [("warnings", .ofNat report.warnings),
        ("errors", .ofNat report.errors),
        ("diagnostics", .array (report.diagnostics.map Diagnostic.toJson))])]

end Assay
