/-
Data as messages show them. Within lists and objects texts are in quotes; a text by itself is shown
as it is.
-/
import ManifestDocs.Datum.Printer
import ManifestDocs.Text.Quoted

namespace ManifestDocs.Datum

mutual

/-- A datum as it is shown within another. -/
def display : Datum → List Char
  | .null => "None".toList
  | .bool true => "True".toList
  | .bool false => "False".toList
  | .int n => (toString n).toList
  | .real written => written.toList
  | .text s => Text.quoted s.toList
  | .list items => '[' :: commaSeparated (displayItems items) ++ [']']
  | .object fields => '\x7b' :: commaSeparated (displayFields fields) ++ ['\x7d']

/-- The items of a list as they are shown. -/
def displayItems : List Datum → List (List Char)
  | [] => []
  | d :: ds => display d :: displayItems ds

/-- The fields of an object as they are shown, each after its name and a colon. -/
def displayFields : List (String × Datum) → List (List Char)
  | [] => []
  | (name, d) :: ds =>
    (Text.quoted name.toList ++ ':' :: ' ' :: display d) :: displayFields ds

end

/-- A datum as a message shows it. -/
def shown (d : Datum) : String :=
  match d with
  | .text s => s
  | d => String.ofList d.display

end ManifestDocs.Datum
