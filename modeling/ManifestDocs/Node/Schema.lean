/-
Nodes from data. A class of nodes has its own fields beside the head; the head comes first. Nodes
below a node are checked by whoever builds it, since data may leave their class open.
-/
import ManifestDocs.Node
import ManifestDocs.Schema

namespace ManifestDocs

open Schema

/-- A parameter from data. -/
def Parameter.check (fields : Table Datum) : Validation (Parameter String) :=
  Parameter.mk <$> required fields "name" Schema.text
    <*> optionalField fields "type_expr" Schema.text
    <*> optionalField fields "value" Schema.text
    <*> field fields "captures_rest" boolean false

/-- The parameters among the fields of something. -/
def Parameter.checkAll (fields : Table Datum) : Validation (List (Parameter String)) :=
  field fields "parameters" (tuple (Schema.record Parameter.check)) []

/-- The kind among the fields of something, which has to be there unless there is a default. -/
def checkKind (kind? : Option String) (fields : Table Datum) : Validation String :=
  match kind? with
  | some kind => field fields "kind" Schema.text kind
  | none => required fields "kind" Schema.text

namespace Node

/-- A head from data. -/
def Head.check (kind? : Option String) (fields : Table Datum) : Validation Head :=
  Head.mk <$> checkKind kind? fields
    <*> required fields "line" integer
    <*> required fields "offset" integer
    <*> required fields "length" integer

/-- The classes of leaves that have a kind of their own, with the check of their content. -/
def Leaf.checks : List (String × (Table Datum → Validation Leaf)) :=
  [("Expression", fun _ => .valid .expression),
   ("HostClassDefinition", fun fields =>
     Leaf.hostClass <$> required fields "name" Schema.text <*> Parameter.checkAll fields
       <*> optionalField fields "parent_class" Schema.text
       <*> optionalField fields "body" Schema.text),
   ("ResourceTypeDefinition", fun fields =>
     Leaf.definedType <$> required fields "name" Schema.text <*> Parameter.checkAll fields
       <*> optionalField fields "body" Schema.text),
   ("FunctionDefinition", fun fields =>
     Leaf.function <$> required fields "name" Schema.text <*> Parameter.checkAll fields
       <*> optionalField fields "return_type" Schema.text
       <*> optionalField fields "body" Schema.text),
   ("PlanDefinition", fun fields =>
     Leaf.plan <$> required fields "name" Schema.text <*> Parameter.checkAll fields
       <*> optionalField fields "body" Schema.text),
   ("TypeAlias", fun fields =>
     Leaf.typeAlias <$> required fields "name" Schema.text
       <*> required fields "type_expr" Schema.text),
   ("NodeDefinition", fun fields =>
     Leaf.host <$> field fields "host_matches" (tuple Schema.text) []
       <*> optionalField fields "parent" Schema.text
       <*> optionalField fields "body" Schema.text)]

/-- A node of no class in particular. -/
def checkPlain (fields : Table Datum) : Validation Node :=
  (Node.leaf · .plain) <$> Head.check none fields

/-- The nodes among the fields of a program, each of no class in particular. -/
def plainDefinitions (fields : Table Datum) : Validation (List Node) :=
  field fields "definitions" (tuple (Schema.record checkPlain)) []

/-- The node among the fields of a wrapper, of no class in particular. -/
def plainCurrent (fields : Table Datum) : Validation Node :=
  required fields "current" (Schema.record checkPlain)

/-- A program around nodes that are already checked. -/
def checkProgram (fields : Table Datum) (definitions : Validation (List Node)) :
    Validation Node :=
  Node.program <$> Head.check (some programClass) fields <*> definitions
    <*> field fields "source_text" Schema.text ""

/-- A wrapper around a node that is already checked. -/
def checkWrapper (fields : Table Datum) (current : Validation Node) : Validation Node :=
  Node.wrapper <$> Head.check (some wrapperClass) fields <*> current

/-- A node of a class, around nodes that are already checked, if there is such a class. -/
def check? (name : String) (fields : Table Datum) (definitions : Validation (List Node))
    (current : Validation Node) : Option (Validation Node) :=
  if name = Leaf.plain.className then some (checkPlain fields)
  else if name = programClass then some (checkProgram fields definitions)
  else if name = wrapperClass then some (checkWrapper fields current)
  else (Leaf.checks.lookup name).map fun content =>
    Node.leaf <$> Head.check (some name) fields <*> content fields

end Node

end ManifestDocs
