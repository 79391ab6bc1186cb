/-
The order of versions. A version is cut into segments: a `-` or `.` by itself, a run of decimal
digits, or a run of other characters. Versions compare by their first pair of different segments; if
there is none, by their whole text.
-/
import ManifestDocs.Text.Integer
import ManifestDocs.Text.LetterCase

namespace ManifestDocs.VersionOrder

open ManifestDocs.Text

/-- The order of texts by code points. -/
def compareText : List Char → List Char → Ordering :=
  List.compareLex (compareOn Char.toNat)

/-- Whether a character is a segment by itself. -/
def isMark (c : Char) : Bool :=
  c == '-' || c == '.'

/-- Whether two characters belong to one segment. -/
def sameSegment (c d : Char) : Bool :=
  !isMark c && !isMark d && isDecimal c == isDecimal d

/-- The segments of a version. -/
def segments (version : List Char) : List (List Char) :=
  version.splitBy sameSegment

/-- Whether a segment has nothing but digits, decimal or not. -/
def isDigits (segment : List Char) : Bool :=
  segment.all isDigit

/-- The order of two different segments. A `-` goes before everything, then a `.`; digits compare as
integers unless one of them starts with a zero; all else compares by its upper case. -/
def compareSegments (a b : List Char) : Except IntegerError Ordering :=
  if a = ['-'] then .ok .lt
  else if b = ['-'] then .ok .gt
  else if a = ['.'] then .ok .lt
  else if b = ['.'] then .ok .gt
  else if isDigits a && isDigits b && a.head? != some '0' && b.head? != some '0' then do
    let m ← readInteger a
    let n ← readInteger b
    return compare m n
  else .ok (compareText (upper a) (upper b))

/-- The order of the first pair of different segments, if there is such a pair. -/
def compareFirst : List (List Char) → List (List Char) → Option (Except IntegerError Ordering)
  | a :: as, b :: bs => if a = b then compareFirst as bs else some (compareSegments a b)
  | _, _ => none

/-- The order of two versions. It fails if two segments are digits that no integer is written
with. -/
def compare (a b : String) : Except IntegerError Ordering :=
  match compareFirst (segments a.toList) (segments b.toList) with
  | some order => order
  | none => .ok (compareText a.toList b.toList)

end ManifestDocs.VersionOrder
