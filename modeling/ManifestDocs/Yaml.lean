/-
Values of configuration files. They are richer than data: there are bytes, dates, moments and sets,
the keys of a mapping may be scalars of any kind, and within a list there may be pairs. A list or a
mapping may even stand within itself; what stands within a value is therefore a `Yaml.Part`, which
can be one of the values around it.
-/
import ManifestDocs.Datum.Display
import ManifestDocs.Datum.Real

namespace ManifestDocs

/-- A value without parts. A number with a point or an exponent is kept as it was written, and so
are a date and a moment, which is a date with a time. -/
inductive Scalar where
  | null
  | bool (b : Bool)
  | int (n : Int)
  | real (written : String)
  | text (s : String)
  | bytes (content : List UInt8)
  | date (written : String)
  | moment (written : String)
deriving DecidableEq, Repr

mutual

/-- A value of a configuration file. The members of a set and the keys of a mapping are scalars. -/
inductive Yaml where
  | scalar (s : Scalar)
  | list (items : List Yaml.Part)
  | set (members : List Scalar)
  | mapping (entries : List (Scalar × Yaml.Part))

/-- What stands in a list or under a key: a value, a pair, or one of the lists and mappings around
it, so many levels further out. -/
inductive Yaml.Part where
  | value (v : Yaml)
  | pair (first second : Yaml.Part)
  | enclosing (levels : Nat)

end

namespace Scalar

/-- The word for the kind of a scalar in messages. -/
def kindName : Scalar → String
  | .null => "NoneType"
  | .bool _ => "bool"
  | .int _ => "int"
  | .real _ => "float"
  | .text _ => "str"
  | .bytes _ => "bytes"
  | .date _ => "datetime.date"
  | .moment _ => "datetime.datetime"

/-- Whether a scalar counts as true: all do but null, false, zero and what is empty. -/
def isTruthy : Scalar → Bool
  | .null => false
  | .bool b => b
  | .int n => n != 0
  | .real written => !(Real.ofWritten written).isZero
  | .text s => s != ""
  | .bytes content => !content.isEmpty
  | .date _ | .moment _ => true

/-- A scalar as a datum. Bytes, dates and moments become texts. -/
def toDatum : Scalar → Datum
  | .null => .null
  | .bool b => .bool b
  | .int n => .int n
  | .real written => .real written
  | .text s | .date s | .moment s => .text s
  | .bytes content => .text (String.ofList (content.map fun b => Char.ofNat b.toNat))

end Scalar

namespace Yaml

/-- The value of an empty file. -/
def null : Yaml :=
  .scalar .null

/-- Whether a value counts as true: all do but null, false, zero and what is empty. -/
def isTruthy : Yaml → Bool
  | .scalar s => s.isTruthy
  | .list items => !items.isEmpty
  | .set members => !members.isEmpty
  | .mapping entries => !entries.isEmpty

/-- Whether a part of a value is a text. -/
def Part.isText (s : String) : Part → Bool
  | .value (.scalar (.text t)) => t == s
  | _ => false

/-! ## Data as values -/

mutual

/-- The value that a datum is. -/
def ofDatum : Datum → Yaml
  | .null => .scalar .null
  | .bool b => .scalar (.bool b)
  | .int n => .scalar (.int n)
  | .real written => .scalar (.real written)
  | .text s => .scalar (.text s)
  | .list items => .list (ofItems items)
  | .object fields => .mapping (ofFields fields)

/-- The parts that the items of a list are. -/
def ofItems : List Datum → List Part
  | [] => []
  | d :: ds => .value (ofDatum d) :: ofItems ds

/-- The entries that the fields of an object are. -/
def ofFields : List (String × Datum) → List (Scalar × Part)
  | [] => []
  | (name, d) :: fields => (.text name, .value (ofDatum d)) :: ofFields fields

end

instance : Coe Datum Yaml := ⟨ofDatum⟩

/-! ## Values as data -/

mutual

/-- A value as a datum. What no datum is becomes what is closest to it: a set a list, a key the text
that shows it, and a value that stands within itself ends there with null. -/
def toDatum : Yaml → Datum
  | .scalar s => s.toDatum
  | .list items => .list (toItems items)
  | .set members => .list (members.map Scalar.toDatum)
  | .mapping entries => .object (toFields entries)

/-- A part of a value as a datum. -/
def Part.toDatum : Part → Datum
  | .value v => v.toDatum
  | .pair first second => .list [first.toDatum, second.toDatum]
  | .enclosing _ => .null

/-- The parts of a list as data. -/
def toItems : List Part → List Datum
  | [] => []
  | p :: ps => p.toDatum :: toItems ps

/-- The entries of a mapping as fields. -/
def toFields : List (Scalar × Part) → List (String × Datum)
  | [] => []
  | (key, p) :: entries => (key.toDatum.shown, p.toDatum) :: toFields entries

end

instance : Coe Yaml Datum := ⟨toDatum⟩

mutual

/-- A datum is got back from the value that it is. -/
theorem toDatum_ofDatum : ∀ d : Datum, (ofDatum d).toDatum = d
  | .null | .bool _ | .int _ | .real _ | .text _ => rfl
  | .list items => by rw [ofDatum, toDatum, toItems_ofItems]
  | .object fields => by rw [ofDatum, toDatum, toFields_ofFields]

theorem toItems_ofItems : ∀ items : List Datum, toItems (ofItems items) = items
  | [] => rfl
  | d :: ds => by rw [ofItems, toItems, Part.toDatum, toDatum_ofDatum, toItems_ofItems]

theorem toFields_ofFields : ∀ fields : List (String × Datum), toFields (ofFields fields) = fields
  | [] => rfl
  | (name, d) :: fields => by
    rw [ofFields, toFields, Part.toDatum, toDatum_ofDatum, toFields_ofFields]
    rfl

end

end Yaml

end ManifestDocs
