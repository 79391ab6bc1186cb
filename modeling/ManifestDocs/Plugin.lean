/-
Plugins: what documents the files of one language. A plugin declares the extensions of its files,
and makes a report of a file from its path and content.
-/
import ManifestDocs.Entry
import ManifestDocs.Fault
import ManifestDocs.Journal

namespace ManifestDocs

/-- A plugin. The label is for whoever registers it; the extensions are whatever its configuration
says they are. -/
structure Plugin where
  label : String
  language : String
  extensions : Datum
  parseFile : String → String → Except Fault Report × List LogRecord

end ManifestDocs
