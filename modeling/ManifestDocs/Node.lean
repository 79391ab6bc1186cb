/-
Nodes: the tree form of a manifest. Every node has a head, its kind and where it stands, and a
content of its own. A node read from a manifest has the kind of its content; one that is built by
hand may have any kind.
-/
import ManifestDocs.Manifest

namespace ManifestDocs

/-- What every node has: its kind, the line and offset it starts at, and its length. -/
structure Node.Head where
  kind : String
  line : Int
  offset : Int
  length : Int
deriving DecidableEq, Repr

/-- The content of a node without nodes below it. -/
inductive Node.Leaf where
  | plain
  | expression
  | hostClass (name : String) (parameters : List (Parameter String)) (parent : Option String)
      (body : Option String)
  | definedType (name : String) (parameters : List (Parameter String)) (body : Option String)
  | function (name : String) (parameters : List (Parameter String)) (returns : Option String)
      (body : Option String)
  | plan (name : String) (parameters : List (Parameter String)) (body : Option String)
  | typeAlias (name : String) (type : String)
  | host (matchers : List String) (parent : Option String) (body : Option String)
deriving DecidableEq, Repr

/-- A node: a leaf, a program with its definitions and its text, or a wrapper around a node. -/
inductive Node where
  | leaf (head : Node.Head) (content : Node.Leaf)
  | program (head : Node.Head) (definitions : List Node) (text : String)
  | wrapper (head : Node.Head) (current : Node)
deriving Repr

namespace Node

/-- The name of the class of a leaf. -/
def Leaf.className : Leaf → String
  | .plain => "ASTNode"
  | .expression => "Expression"
  | .hostClass .. => "HostClassDefinition"
  | .definedType .. => "ResourceTypeDefinition"
  | .function .. => "FunctionDefinition"
  | .plan .. => "PlanDefinition"
  | .typeAlias .. => "TypeAlias"
  | .host .. => "NodeDefinition"

/-- The name of the class of a program. -/
def programClass : String := "Program"

/-- The name of the class of a wrapper. -/
def wrapperClass : String := "Factory"

/-- The name of the class of a node. -/
def className : Node → String
  | .leaf _ content => content.className
  | .program .. => programClass
  | .wrapper .. => wrapperClass

/-- The head of a node. -/
def head : Node → Head
  | .leaf head _ => head
  | .program head _ _ => head
  | .wrapper head _ => head

/-- The characters of a node in a text. -/
def sourceIn (n : Node) (text : List Char) : String :=
  String.ofList (Text.slice text n.head.offset (n.head.offset + n.head.length))

/-! ## Attributes, which only some nodes have -/

/-- The name of what a node defines. -/
def name? : Node → Option String
  | .leaf _ (.hostClass name _ _ _) => some name
  | .leaf _ (.definedType name _ _) => some name
  | .leaf _ (.function name _ _ _) => some name
  | .leaf _ (.plan name _ _) => some name
  | .leaf _ (.typeAlias name _) => some name
  | _ => none

/-- The parameters of a definition. -/
def parameters? : Node → Option (List (Parameter String))
  | .leaf _ (.hostClass _ parameters _ _) => some parameters
  | .leaf _ (.definedType _ parameters _) => some parameters
  | .leaf _ (.function _ parameters _ _) => some parameters
  | .leaf _ (.plan _ parameters _) => some parameters
  | _ => none

/-- The parent of a class. -/
def parentClass? : Node → Option (Option String)
  | .leaf _ (.hostClass _ _ parent _) => some parent
  | _ => none

/-- The return type of a function. -/
def returnType? : Node → Option (Option String)
  | .leaf _ (.function _ _ returns _) => some returns
  | _ => none

/-- The type that an alias stands for. -/
def aliasedType? : Node → Option String
  | .leaf _ (.typeAlias _ type) => some type
  | _ => none

/-! ## Nodes of a manifest -/

/-- The content of the node for a form. -/
def Leaf.ofForm : Form String → Leaf
  | .expression => .expression
  | .definition (.hostClass name parameters parent body) =>
    .hostClass name parameters parent (some body)
  | .definition (.definedType name parameters body) => .definedType name parameters (some body)
  | .definition (.function name parameters returns body) =>
    .function name parameters returns (some body)
  | .definition (.plan name parameters body) => .plan name parameters (some body)
  | .definition (.typeAlias name type) => .typeAlias name type
  | .definition (.node hosts parent body) => .host hosts parent (some body)

/-- The node for an item. -/
def ofItem (i : Item String) : Node :=
  let content := Leaf.ofForm i.form
  .leaf ⟨content.className, i.line, i.offset, i.length⟩ content

/-- The tree of a manifest: a wrapper around a program with the nodes of the items. -/
def ofManifest (m : Manifest) : Node :=
  let length : Int := m.text.length
  .wrapper ⟨wrapperClass, 1, 0, length⟩
    (.program ⟨programClass, 1, 0, length⟩ (m.items.map ofItem) m.text)

end Node

end ManifestDocs
