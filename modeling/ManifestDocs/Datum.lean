/-
Data: the values that configuration files, settings and log contexts hold. A datum is what a JSON
text can say; a number with a point or an exponent is kept as it was written.
-/
import ManifestDocs.Table

namespace ManifestDocs

/-- A value of a configuration, a setting or a log context. -/
inductive Datum where
  | null
  | bool (b : Bool)
  | int (n : Int)
  | real (written : String)
  | text (s : String)
  | list (items : List Datum)
  | object (fields : List (String × Datum))
deriving Repr, Inhabited

namespace Datum

/-- The word for the kind of a datum in messages. -/
def kindName : Datum → String
  | .null => "NoneType"
  | .bool _ => "bool"
  | .int _ => "int"
  | .real _ => "float"
  | .text _ => "str"
  | .list _ => "list"
  | .object _ => "dict"

/-- The value of a field of an object. -/
def field? (d : Datum) (name : String) : Option Datum :=
  match d with
  | .object fields => Assoc.get? fields name
  | _ => none

/-- The fields of an object, in order; no other datum has any. -/
def fields : Datum → Table Datum
  | .object fields => fields
  | _ => []

/-- An optional datum, null if there is none. -/
def ofOption (f : α → Datum) : Option α → Datum
  | some a => f a
  | none => .null

/-- An optional text. -/
def ofText? : Option String → Datum :=
  ofOption .text

/-- An optional integer. -/
def ofInt? : Option Int → Datum :=
  ofOption .int

end Datum

end ManifestDocs
