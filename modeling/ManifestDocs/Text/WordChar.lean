/-
Word characters: letters, numerals and the underscore. Combining marks are not among them.
-/
import ManifestDocs.Text.Letter
import ManifestDocs.Text.Numeral

namespace ManifestDocs.Text

/-- Whether a character may continue a name. -/
def isWordChar (c : Char) : Bool :=
  c == '_' || isLetter c || isNumeral c

end ManifestDocs.Text
