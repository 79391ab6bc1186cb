/-
Nodes as data: every field of a node under its name, with the name of its class. The text of a
program is left out.
-/
import ManifestDocs.Datum
import ManifestDocs.Node

namespace ManifestDocs

/-- A parameter as data. -/
def Parameter.record (p : Parameter String) : Datum :=
  .object [("name", .text p.name), ("type_expr", Datum.ofText? p.type),
    ("value", Datum.ofText? p.value), ("captures_rest", .bool p.capturesRest)]

/-- A list of parameters as data. -/
def Parameter.records (ps : List (Parameter String)) : Datum :=
  .list (ps.map Parameter.record)

namespace Node

/-- The fields of a head. -/
def Head.fields (h : Head) : Table Datum :=
  [("kind", .text h.kind), ("line", .int h.line), ("offset", .int h.offset),
   ("length", .int h.length)]

/-- The fields that a leaf adds to its head. -/
def Leaf.fields : Leaf → Table Datum
  | .plain | .expression => []
  | .hostClass name parameters parent body =>
    [("name", .text name), ("parameters", Parameter.records parameters),
     ("parent_class", Datum.ofText? parent), ("body", Datum.ofText? body)]
  | .definedType name parameters body =>
    [("name", .text name), ("parameters", Parameter.records parameters),
     ("body", Datum.ofText? body)]
  | .function name parameters returns body =>
    [("name", .text name), ("parameters", Parameter.records parameters),
     ("return_type", Datum.ofText? returns), ("body", Datum.ofText? body)]
  | .plan name parameters body =>
    [("name", .text name), ("parameters", Parameter.records parameters),
     ("body", Datum.ofText? body)]
  | .typeAlias name type => [("name", .text name), ("type_expr", .text type)]
  | .host matchers parent body =>
    [("host_matches", .list (matchers.map .text)), ("parent", Datum.ofText? parent),
     ("body", Datum.ofText? body)]

mutual

/-- A node as data. -/
def record : Node → Datum
  | .leaf head content =>
    .object (head.fields ++ content.fields ++ [("model", .text content.className)])
  | .program head definitions _ =>
    .object (head.fields ++
      [("definitions", .list (records definitions)), ("model", .text programClass)])
  | .wrapper head current =>
    .object (head.fields ++ [("current", record current), ("model", .text wrapperClass)])

/-- Several nodes as data. -/
def records : List Node → List Datum
  | [] => []
  | n :: ns => record n :: records ns

end

end Node

end ManifestDocs
