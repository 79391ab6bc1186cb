/-
Faults: everything that can go wrong beside a manifest that does not parse. A fault is a cause; its
wording is in `Fault.message`.
-/
import ManifestDocs.Pattern.Reader
import ManifestDocs.Schema
import ManifestDocs.Text.Integer

namespace ManifestDocs

/-- Why an operation did not succeed. -/
inductive Fault where
  /-- Data do not fit their schema. -/
  | invalid (details : List Detail)
  /-- A path pattern is malformed. -/
  | badPattern (written : String) (e : Pattern.Error)
  /-- A text is not an integer. -/
  | badInteger (e : Text.IntegerError)
  /-- A datum of a kind that no integer can be made of. -/
  | noInteger (kind : String)
  /-- A configuration file is malformed. -/
  | malformedConfiguration
  /-- There is no file with a name. -/
  | noFile (path : String)
  /-- There is no configuration at a path. -/
  | noConfiguration (path : String)
  /-- A configuration lacks a field. -/
  | missingField (field path : String)
  /-- An environment variable does not hold data for a setting. -/
  | unreadableSetting (field : String)
  /-- Something of a kind has no such attribute. -/
  | noAttribute (kind name : String)
  /-- In a value of a kind no text can be looked for. -/
  | noContainer (kind : String)
  /-- A datum of a kind cannot be gone through. -/
  | notIterable (kind : String)
  /-- A datum of a kind cannot be a key. -/
  | notHashable (kind : String)
  /-- A list was asked for a name. -/
  | listIndex
  /-- A text was asked for a name. -/
  | textIndex
  /-- A position is outside a sequence. -/
  | noItem
  /-- There is no level with a name. -/
  | unknownLevel (name : String)
  /-- A field of context has the name of a field of the record itself. -/
  | reservedField (name : String)
  /-- A message and its arguments do not fit. -/
  | badArguments (problem : String)
  /-- The template of a message is malformed. -/
  | badTemplate (problem : String)
  /-- A template asks for a key that no argument has. -/
  | missingKey (name : String)
  /-- A number is out of range. -/
  | outOfRange (problem : String)
deriving Repr

/-- The fault of giving another value to a field of something that does not change. -/
def Fault.frozenField (name : String) : Fault :=
  .invalid [⟨.frozen, [.field name]⟩]

/-- The wording of a fault; some show only what they are. -/
def Fault.message : Fault → Option String
  | .invalid _ => none
  | .badPattern written e => some (e.message written)
  | .badInteger e => some e.message
  | .noInteger kind =>
    some ("int() argument must be a string, a bytes-like object or a real number, not '" ++ kind ++
      "'")
  | .malformedConfiguration => none
  | .noFile path =>
    some ("[Errno 2] No such file or directory: " ++ String.ofList (Text.quoted path.toList))
  | .noConfiguration path => some ("Plugin configuration not found: " ++ path)
  | .missingField field path => some ("Missing required field '" ++ field ++ "' in " ++ path)
  | .unreadableSetting field =>
    some ("error parsing value for field \"" ++ field ++ "\" from source \"EnvSettingsSource\"")
  | .noAttribute kind name => some ("'" ++ kind ++ "' object has no attribute '" ++ name ++ "'")
  | .noContainer "bytes" => some "a bytes-like object is required, not 'str'"
  | .noContainer kind => some ("argument of type '" ++ kind ++ "' is not iterable")
  | .notIterable kind => some ("'" ++ kind ++ "' object is not iterable")
  | .notHashable kind => some ("unhashable type: '" ++ kind ++ "'")
  | .listIndex => some "list indices must be integers or slices, not str"
  | .textIndex => some "string indices must be integers, not 'str'"
  | .noItem => some "tuple index out of range"
  | .unknownLevel name =>
    some ("Unknown level: " ++ String.ofList (Text.quoted name.toList))
  | .reservedField name => some ("Attempt to overwrite '" ++ name ++ "' in LogRecord")
  | .badArguments problem => some problem
  | .badTemplate problem => some problem
  | .missingKey name => some name
  | .outOfRange problem => some problem

end ManifestDocs
