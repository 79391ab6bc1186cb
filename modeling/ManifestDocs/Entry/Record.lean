/-
Entries, failures and reports as data.
-/
import ManifestDocs.Entry
import ManifestDocs.Node.Record

namespace ManifestDocs

/-- A pair of line numbers as data. -/
def linesRecord : Option (Int × Int) → Datum :=
  Datum.ofOption fun (first, last) => .list [.int first, .int last]

/-- The fields that every entry has. -/
def Entry.commonFields (e : Entry) : Table Datum :=
  [("kind", .text e.kind), ("name", .text e.name), ("file", .text e.file), ("line", .int e.line),
   ("source", .text e.source), ("docstring", .text e.comment),
   ("comments_range", linesRecord e.commentLines)]

/-- The fields that a form adds. -/
def Entry.Form.fields : Entry.Form → Table Datum
  | .plain => []
  | .parameterized ps | .definedType ps | .plan ps | .resourceType ps =>
    [("parameters", Parameter.records ps)]
  | .hostClass ps parent =>
    [("parameters", Parameter.records ps), ("parent_class", Datum.ofText? parent)]
  | .function ps returns =>
    [("parameters", Parameter.records ps), ("return_type", Datum.ofText? returns)]
  | .typeAlias aliased => [("alias_of", .text aliased)]

/-- An entry as data, with all its fields and the name of its class. -/
def Entry.record (e : Entry) : Datum :=
  .object (e.commonFields ++ e.form.fields ++ [("model", .text e.form.className)])

/-- An entry as data, with the fields that every entry has. -/
def Entry.commonRecord (e : Entry) : Datum :=
  .object e.commonFields

/-- A failure as data. -/
def Failure.record (f : Failure) : Datum :=
  .object [("message", .text f.message), ("file", .text f.file), ("line", Datum.ofInt? f.line),
    ("column", Datum.ofInt? f.column)]

/-- A failure as data, null if there is none. -/
def Failure.record? : Option Failure → Datum :=
  Datum.ofOption Failure.record

/-- A report as data. -/
def Report.record (r : Report) : Datum :=
  .object [("statements", .list (r.entries.map Entry.record)),
    ("error", Failure.record? r.failure)]

/-- A report as data, its entries with the fields that every entry has. -/
def Report.commonRecord (r : Report) : Datum :=
  .object [("statements", .list (r.entries.map Entry.commonRecord)),
    ("error", Failure.record? r.failure)]

end ManifestDocs
