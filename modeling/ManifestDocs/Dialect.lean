/-
Dialects: what the language of a manifest has beyond what every runtime reads.
-/
import ManifestDocs.Schema

namespace ManifestDocs

/-- Whether plans are definitions. -/
structure Dialect where
  tasks : Bool
deriving DecidableEq, Repr

namespace Dialect

/-- A dialect from data. -/
def check (fields : Table Datum) : Validation Dialect :=
  Dialect.mk <$> Schema.field fields "tasks" Schema.boolean false

/-- A dialect as data. -/
def record (d : Dialect) : Datum :=
  .object [("tasks", .bool d.tasks)]

end Dialect

end ManifestDocs
