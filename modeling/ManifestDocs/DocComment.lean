/-
Documentation comments: the block of `#` lines directly above a declaration. Blank lines may stand
between the block and the declaration, up to a limit; a block further up belongs to something else.
-/
import ManifestDocs.Listing
import ManifestDocs.Text.Blank

namespace ManifestDocs

/-- The text of a comment block, and the numbers of its first and last line. -/
structure DocComment where
  text : String
  first : Nat
  last : Nat
deriving DecidableEq, Repr

namespace DocComment

/-- How many blank lines may stand between a comment and its declaration unless said otherwise. -/
def defaultMaxBlank : Int := 1

/-- Whether nothing but blanks stands on a line. -/
def isBlankLine (line : List Char) : Bool :=
  line.all Text.isBlank

/-- What a comment line says: the line without its indent, its `#` signs and one space after them.
A line without a `#` sign at its start is no comment line. -/
def content? (line : List Char) : Option (List Char) :=
  match Text.trimStart line with
  | '#' :: cs =>
    match cs.dropWhile (· == '#') with
    | ' ' :: cs => some cs
    | cs => some cs
  | _ => none

/-- The comment lines a list of numbered lines starts with, by what they say. -/
def leadingBlock : List (Nat × String) → List (Nat × List Char)
  | [] => []
  | (number, line) :: rest =>
    match content? line.toList with
    | some content => (number, Text.trimEnd content) :: leadingBlock rest
    | none => []

/-- The lines without the empty ones at their end. -/
def dropEmptyEnd (lines : List (List Char)) : List (List Char) :=
  (lines.reverse.dropWhile List.isEmpty).reverse

/-- The comment of a block given from its last line up. A block that says nothing is no comment. -/
def ofBlock (block : List (Nat × List Char)) : Option DocComment :=
  match block with
  | [] => none
  | (last, _) :: _ =>
    match dropEmptyEnd (block.reverse.map (·.2)) with
    | [] => none
    | lines =>
      some ⟨String.ofList (List.intercalate ['\n'] lines), (block.getLast?.map (·.1)).getD last,
        last⟩

/-- The comment above a declaration on the line `number`, with at most `maxBlank` blank lines
between. -/
def above (listing : Listing) (number maxBlank : Int) : Option DocComment :=
  let lines := listing.above number
  let blanks := lines.takeWhile fun l => isBlankLine l.2.toList
  if (blanks.length : Int) > maxBlank then none
  else ofBlock (leadingBlock (lines.drop blanks.length))

end DocComment

end ManifestDocs
