/-
Listings: the numbered lines of a source file. Lines break at line feeds only, and carriage returns
at the end of a line are not part of it. The first line is number one.
-/

namespace ManifestDocs

/-- The lines of a file, in order. -/
structure Listing where
  file : String
  lines : List String
deriving DecidableEq, Repr

namespace Listing

/-- The lines of a text: what follows the last line feed is a line only if it is not empty. -/
def splitLines (text : List Char) : List (List Char) :=
  let parts := text.splitOn '\n'
  if parts.getLast? == some [] then parts.dropLast else parts

/-- A line without the carriage returns at its end. -/
def dropReturns (line : List Char) : List Char :=
  (line.reverse.dropWhile (· == '\r')).reverse

/-- The listing of a text. -/
def ofText (file text : String) : Listing :=
  ⟨file, (splitLines text.toList).map fun line => String.ofList (dropReturns line)⟩

/-- How many lines there are. -/
def size (l : Listing) : Nat :=
  l.lines.length

/-- The line with a number. -/
def line? (l : Listing) (number : Int) : Option String :=
  if number < 1 then none else l.lines[(number - 1).toNat]?

theorem line?_of_pos (l : Listing) {n : Nat} (hn : 1 ≤ n) : l.line? n = l.lines[n - 1]? := by
  have hnot : ¬ ((n : Int) < 1) := by omega
  rw [line?, if_neg hnot]
  congr 1
  omega

/-- The lines of a listing have the numbers from one up to its size. -/
theorem le_size_of_line? {l : Listing} {n : Int} {line : String} (h : l.line? n = some line) :
    1 ≤ n ∧ n ≤ l.size := by
  rw [line?] at h
  split at h
  · cases h
  · have hlt := (List.getElem?_eq_some_iff.1 h).1
    rw [size]
    omega

/-- The complaint that a number is outside the listing. -/
def outsideMessage (l : Listing) (number : Int) : String :=
  let file := if l.file.isEmpty then "source" else l.file
  "Line " ++ toString number ++ " is outside " ++ file ++ " (" ++ toString l.size ++ " lines)"

/-- The lines above a number, nearest first, each with its own number. -/
def above (l : Listing) (number : Int) : List (Nat × String) :=
  (l.lines.zipIdx 1 |>.take (number - 1).toNat |>.map fun (line, n) => (n, line)).reverse

end Listing

end ManifestDocs
