/-
Configurations: what configuration files hold, and how it is looked into. A configuration should be
a mapping, but a file may hold any value; looking a name up then fails in its own way.
-/
import ManifestDocs.Fault
import ManifestDocs.Yaml

namespace ManifestDocs

namespace Yaml

/-- What is taken for the configuration if a file holds a value: one that counts as false counts as
an empty mapping. -/
def taken (v : Yaml) : Yaml :=
  if v.isTruthy then v else .mapping []

/-- Whether a text has another as a part. -/
def hasPart (part : List Char) : List Char → Bool
  | [] => part.isEmpty
  | c :: cs => part.isPrefixOf (c :: cs) || hasPart part cs

/-- Whether a name is found in a value: as a key of a mapping, a member of a set, an item of a list
or a part of a text. -/
def mentions (v : Yaml) (name : String) : Except Fault Bool :=
  match v with
  | .mapping entries => .ok (Assoc.has entries (.text name))
  | .set members => .ok (members.contains (.text name))
  | .list items => .ok (items.any (Part.isText name))
  | .scalar (.text s) => .ok (hasPart name.toList s.toList)
  | .scalar s => .error (.noContainer s.kindName)

end Yaml

/-- A configuration file: one that cannot be read, perhaps with a word on what is wrong with it, or
one that holds a value. An empty file holds null. -/
inductive ConfigFile where
  | malformed (problem : Option String := none)
  | holding (v : Yaml)

/-- What is said to be wrong with a file. -/
def ConfigFile.problem? : ConfigFile → Option String
  | .malformed problem => problem
  | .holding _ => none

/-- The configuration in a file. -/
def ConfigFile.read : ConfigFile → Except Fault Yaml
  | .malformed _ => .error .malformedConfiguration
  | .holding v => .ok v.taken

namespace Datum

/-- What a datum has under a name that it mentions; only an object can say. -/
def entry (d : Datum) (name : String) : Except Fault Datum :=
  match d with
  | .object fields => .ok ((Assoc.get? fields name).getD .null)
  | .text _ => .error .textIndex
  | _ => .error .listIndex

/-- What a datum has under a name, if it mentions it. -/
def entry? (d : Datum) (name : String) : Except Fault (Option Datum) := do
  if ← (Yaml.ofDatum d).mentions name then return some (← entry d name) else return none

/-- The section of a configuration with a name, or a datum to take if there is none. -/
def sectionOr (d : Datum) (name : String) (default : Datum) : Except Fault Datum :=
  match d with
  | .object fields => .ok ((Assoc.get? fields name).getD default)
  | d => .error (.noAttribute d.kindName "get")

/-- The integer that a datum says; a fraction is dropped. -/
def toInteger : Datum → Except Fault Int
  | .int n => .ok n
  | .bool b => .ok (if b then 1 else 0)
  | .real written => .ok (Real.ofWritten written).truncated
  | .text s =>
    match Text.readInteger s.toList with
    | .ok n => .ok n
    | .error e => .error (.badInteger e)
  | d => .error (.noInteger d.kindName)

end Datum

end ManifestDocs
