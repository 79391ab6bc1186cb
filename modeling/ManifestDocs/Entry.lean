/-
Entries: the documentation of one declaration each. All have the same common fields; the form of an
entry adds what its sort of declaration has.
-/
import ManifestDocs.Manifest

namespace ManifestDocs

/-- What the sort of an entry adds. -/
inductive Entry.Form where
  | plain
  | parameterized (parameters : List (Parameter String))
  | hostClass (parameters : List (Parameter String)) (parent : Option String)
  | definedType (parameters : List (Parameter String))
  | function (parameters : List (Parameter String)) (returns : Option String)
  | plan (parameters : List (Parameter String))
  | typeAlias (aliased : String)
  | resourceType (parameters : List (Parameter String))
deriving DecidableEq, Repr

/-- The documentation of a declaration: its kind and name, where it stands, its source, and the text
and the lines of its comment. -/
structure Entry where
  kind : String
  name : String
  file : String
  line : Int
  source : String
  comment : String
  commentLines : Option (Int × Int)
  form : Entry.Form
deriving DecidableEq, Repr

/-- The name of the class of an entry. -/
def Entry.Form.className : Entry.Form → String
  | .plain => "Statement"
  | .parameterized _ => "ParameterizedStatement"
  | .hostClass .. => "ClassStatement"
  | .definedType _ => "DefinedTypeStatement"
  | .function .. => "FunctionStatement"
  | .plan _ => "PlanStatement"
  | .typeAlias _ => "DataTypeAliasStatement"
  | .resourceType _ => "ResourceTypeStatement"

/-- Why a file has no entries: what is wrong with it, and where. -/
structure Failure where
  message : String
  file : String
  line : Option Int
  column : Option Int
deriving DecidableEq, Repr

/-- What came of a file: its entries, or the failure that left it without. -/
structure Report where
  entries : List Entry
  failure : Option Failure
deriving DecidableEq, Repr

/-- Whether a file could be read. -/
def Report.succeeded (r : Report) : Bool :=
  r.failure.isNone

end ManifestDocs
