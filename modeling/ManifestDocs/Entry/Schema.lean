/-
Entries, failures, outcomes and reports from data. A report with a failure has no entries, and an
outcome is either a tree or a failure; both rules are looked at only if all fields are right.
-/
import ManifestDocs.Entry
import ManifestDocs.Entry.Record
import ManifestDocs.Node.Schema

namespace ManifestDocs

open Schema

/-- The common fields of an entry with a form from data. -/
def Entry.checkCommon (kind? : Option String) (fields : Table Datum) :
    Validation (Form → Entry) :=
  Entry.mk <$> checkKind kind? fields
    <*> required fields "name" Schema.text
    <*> required fields "file" Schema.text
    <*> required fields "line" integer
    <*> field fields "source" Schema.text ""
    <*> field fields "docstring" Schema.text ""
    <*> optionalField fields "comments_range" pair

/-- The forms of entries by the name of their class, each with its kind and the check of what it
adds. -/
def Entry.Form.checks : List (String × Option String × (Table Datum → Validation Form)) :=
  [("Statement", none, fun _ => .valid .plain),
   ("ParameterizedStatement", none, fun fields => .parameterized <$> Parameter.checkAll fields),
   ("ClassStatement", some "class", fun fields =>
     .hostClass <$> Parameter.checkAll fields <*> optionalField fields "parent_class" Schema.text),
   ("DefinedTypeStatement", some "defined_type", fun fields =>
     .definedType <$> Parameter.checkAll fields),
   ("FunctionStatement", some "function", fun fields =>
     .function <$> Parameter.checkAll fields <*> optionalField fields "return_type" Schema.text),
   ("PlanStatement", some "plan", fun fields => .plan <$> Parameter.checkAll fields),
   ("DataTypeAliasStatement", some "data_type_alias", fun fields =>
     .typeAlias <$> required fields "alias_of" Schema.text),
   ("ResourceTypeStatement", some "resource_type", fun fields =>
     .resourceType <$> Parameter.checkAll fields)]

/-- An entry of a class from data, if there is such a class. -/
def Entry.check? (name : String) (fields : Table Datum) : Option (Validation Entry) :=
  (Form.checks.lookup name).map fun (kind?, form) => checkCommon kind? fields <*> form fields

/-- An entry of no class in particular. -/
def Entry.checkPlain (fields : Table Datum) : Validation Entry :=
  checkCommon none fields <*> .valid .plain

/-- A failure from data. -/
def Failure.check (fields : Table Datum) : Validation Failure :=
  Failure.mk <$> required fields "message" Schema.text
    <*> field fields "file" Schema.text ""
    <*> optionalField fields "line" integer
    <*> optionalField fields "column" integer

/-- The rule that a report breaks. -/
def Report.broken? (r : Report) : Option String :=
  if r.failure.isSome && !r.entries.isEmpty then
    some "Value error, A failed parse cannot carry statements"
  else none

/-- A report from data. -/
def Report.check (fields : Table Datum) : Validation Report :=
  (Report.mk <$> field fields "statements" (tuple (Schema.record Entry.checkPlain)) []
    <*> optionalField fields "error" (Schema.record Failure.check)).obeying Report.broken?

/-- What came of reading a text: the tree it has, or the failure. -/
structure Outcome where
  root : Option Node
  failure : Option Failure

/-- The rule that an outcome breaks. -/
def Outcome.broken? (o : Outcome) : Option String :=
  if o.root.isNone == o.failure.isNone then
    some "Value error, ParseOutcome requires exactly one of root or error"
  else none

/-- An outcome from data. -/
def Outcome.check (fields : Table Datum) : Validation Outcome :=
  let root := Schema.record fun fields => Node.checkWrapper fields (Node.plainCurrent fields)
  (Outcome.mk <$> optionalField fields "root" root
    <*> optionalField fields "error" (Schema.record Failure.check)).obeying Outcome.broken?

/-- An outcome as data. -/
def Outcome.record (o : Outcome) : Datum :=
  .object [("root", Datum.ofOption Node.record o.root), ("error", Failure.record? o.failure)]

end ManifestDocs
