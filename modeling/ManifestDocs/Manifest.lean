/-
Manifests: the definitions of a source file in order, with the stretches of other code between them.
The excerpts that definitions carry (types, values, bodies) are of any type: spans while the tokens
are read, and the text itself in the finished manifest.
-/
import ManifestDocs.Text.Slice

namespace ManifestDocs

/-- A stretch of a text, from one offset up to, and without, another. -/
structure Span where
  start : Nat
  stop : Nat
deriving DecidableEq, Repr

/-- The text of a span. -/
def Span.excerpt (text : List Char) (s : Span) : String :=
  String.ofList ((text.drop s.start).take (s.stop - s.start))

/-- A parameter of a class, defined type, function or plan. -/
structure Parameter (ε : Type) where
  name : String
  type : Option ε
  value : Option ε
  capturesRest : Bool
deriving DecidableEq, Repr

/-- A definition, with its excerpts of type `ε`. -/
inductive Definition (ε : Type) where
  | hostClass (name : String) (parameters : List (Parameter ε)) (parent : Option String) (body : ε)
  | definedType (name : String) (parameters : List (Parameter ε)) (body : ε)
  | function (name : String) (parameters : List (Parameter ε)) (returns : Option ε) (body : ε)
  | plan (name : String) (parameters : List (Parameter ε)) (body : ε)
  | typeAlias (name : String) (type : ε)
  | node (hosts : List String) (parent : Option String) (body : ε)
deriving DecidableEq, Repr

/-- What stands at the top level of a manifest: a definition, or a stretch of other code. -/
inductive Form (ε : Type) where
  | definition (d : Definition ε)
  | expression
deriving DecidableEq, Repr

/-- A form with the line and offset it starts at and the number of its characters. -/
structure Item (ε : Type) where
  line : Nat
  offset : Nat
  length : Nat
  form : Form ε
deriving DecidableEq, Repr

/-- A source text with its items in order. -/
structure Manifest where
  text : String
  items : List (Item String)
deriving DecidableEq, Repr

section Map

variable {ε ζ : Type}

/-- Changes the excerpts of a parameter. -/
def Parameter.map (f : ε → ζ) (p : Parameter ε) : Parameter ζ :=
  ⟨p.name, p.type.map f, p.value.map f, p.capturesRest⟩

/-- Changes the excerpts of a definition. -/
def Definition.map (f : ε → ζ) : Definition ε → Definition ζ
  | .hostClass name parameters parent body =>
    .hostClass name (parameters.map (·.map f)) parent (f body)
  | .definedType name parameters body => .definedType name (parameters.map (·.map f)) (f body)
  | .function name parameters returns body =>
    .function name (parameters.map (·.map f)) (returns.map f) (f body)
  | .plan name parameters body => .plan name (parameters.map (·.map f)) (f body)
  | .typeAlias name type => .typeAlias name (f type)
  | .node hosts parent body => .node hosts parent (f body)

/-- Changes the excerpts of a form. -/
def Form.map (f : ε → ζ) : Form ε → Form ζ
  | .definition d => .definition (d.map f)
  | .expression => .expression

/-- Changes the excerpts of an item. -/
def Item.map (f : ε → ζ) (i : Item ε) : Item ζ :=
  ⟨i.line, i.offset, i.length, i.form.map f⟩

/-- The name that a definition gives to what it defines; a node has none. -/
def Definition.name? : Definition ε → Option String
  | .hostClass name _ _ _ => some name
  | .definedType name _ _ => some name
  | .function name _ _ _ => some name
  | .plan name _ _ => some name
  | .typeAlias name _ => some name
  | .node _ _ _ => none

end Map

/-- The characters of an item. -/
def Item.source (text : List Char) (i : Item ε) : String :=
  Span.excerpt text ⟨i.offset, i.offset + i.length⟩

end ManifestDocs
