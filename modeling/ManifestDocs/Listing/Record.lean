/-
Listings from data and as data.
-/
import ManifestDocs.Listing
import ManifestDocs.Schema

namespace ManifestDocs.Listing

/-- A listing from data. -/
def check (fields : Table Datum) : Validation Listing :=
  Listing.mk <$> Schema.required fields "file" Schema.text
    <*> Schema.required fields "lines" (Schema.tuple Schema.text)

/-- A listing as data. -/
def record (l : Listing) : Datum :=
  .object [("file", .text l.file), ("lines", .list (l.lines.map .text))]

end ManifestDocs.Listing
