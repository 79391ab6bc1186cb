/-
Remarks: comments in the form in which they are attached and handed on. The remark on a
declaration without a comment has no text and no lines.
-/
import ManifestDocs.DocComment
import ManifestDocs.Entry.Record
import ManifestDocs.Schema

namespace ManifestDocs

/-- The text of a comment, and the numbers of its first and last line. -/
structure Remark where
  text : String
  lines : Option (Int × Int)
deriving DecidableEq, Repr

namespace Remark

/-- The remark that a comment makes. -/
def ofComment (c : Option DocComment) : Remark :=
  match c with
  | some c => ⟨c.text, some (c.first, c.last)⟩
  | none => ⟨"", none⟩

/-- Whether there is anything to read. -/
def isPresent (a : Remark) : Bool :=
  !a.text.isEmpty

/-- A remark from data. -/
def check (fields : Table Datum) : Validation Remark :=
  Remark.mk <$> Schema.field fields "text" Schema.text ""
    <*> Schema.optionalField fields "comments_range" Schema.pair

/-- The fields of a remark. -/
def fields (a : Remark) : Table Datum :=
  [("text", .text a.text), ("comments_range", linesRecord a.lines)]

end Remark

end ManifestDocs
