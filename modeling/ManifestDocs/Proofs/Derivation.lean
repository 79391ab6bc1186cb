/-
The token grammar of definitions, written down apart from the readings of `Grammar`, and the proof
that the readings accept exactly it. Each nonterminal relates the tokens it covers to what they
mean; a reading answers `.ok (a, rest)` just when the tokens before `rest` derive `a`.

Only one production looks at what follows it: a type alias takes every bracket that can belong to
its type, so the token after it must not be one (`AliasEnds`). For all others the token that has to
come next settles which optional parts are there.
-/
import ManifestDocs.Proofs.Balance

namespace ManifestDocs.Grammar

/-! ## The nonterminals -/

section Parts

variable {α : Type}

/-- An optional part. -/
inductive Maybe (R : List Token → α → Prop) : List Token → Option α → Prop
  | none : Maybe R [] none
  | some {ts : List Token} {a : α} (h : R ts a) : Maybe R ts (some a)

/-- One part or more, with commas between them. -/
inductive CommaList (R : List Token → α → Prop) : List Token → List α → Prop
  | one {ts : List Token} {a : α} (h : R ts a) : CommaList R ts [a]
  | cons {ts more : List Token} {c : Token} {a : α} {as : List α} (h : R ts a)
      (comma : c.kind = .operator .comma) (hmore : CommaList R more as) :
      CommaList R (ts ++ c :: more) (a :: as)

end Parts

/-- A token of one of several kinds, by its value. -/
inductive IsOneOf (kinds : List Token.Kind) : List Token → String → Prop
  | mk {t : Token} (h : t.kind ∈ kinds) : IsOneOf kinds [t] t.value

/-- A pair of brackets with balanced tokens between them, by its first and last token. -/
inductive IsBracketed (b : Bracket) : List Token → Token × Token → Prop
  | mk {first last : Token} {inner : List Token} (hfirst : first.kind = opening b)
      (hinner : Balanced inner) (hlast : last.kind = closing b) :
      IsBracketed b (first :: (inner ++ [last])) (first, last)

/-- A body in braces: the stretch between them, and the closing brace. -/
inductive IsBlock : List Token → Span × Token → Prop
  | mk {ts : List Token} {first last : Token} (h : IsBracketed .curly ts (first, last)) :
      IsBlock ts (⟨first.stop, last.start.offset⟩, last)

/-- A type: its name, and perhaps arguments in square brackets that follow the name directly. -/
inductive IsType : List Token → Span → Prop
  | bare {head : Token} (hhead : head.kind = .typeName) : IsType [head] (spanOf head head)
  | applied {head first last : Token} {ts : List Token} (hhead : head.kind = .typeName)
      (arguments : IsBracketed .square ts (first, last))
      (adjacent : first.start.offset = head.stop) : IsType (head :: ts) (spanOf head last)

/-- What an alias stands for: a type, perhaps with a part in braces, or brackets or braces alone. -/
inductive IsAliased : List Token → Span → Prop
  | type {ts : List Token} {s : Span} (h : IsType ts s) : IsAliased ts s
  | braced {ts us : List Token} {s : Span} {first last : Token} (h : IsType ts s)
      (hbraces : IsBracketed .curly us (first, last)) : IsAliased (ts ++ us) ⟨s.start, last.stop⟩
  | alone {b : Bracket} {ts : List Token} {first last : Token} (hb : b = .curly ∨ b = .square)
      (h : IsBracketed b ts (first, last)) : IsAliased ts (spanOf first last)

/-- Whether `rest` starts with a square bracket that follows `head` directly. -/
def ArgumentsFollow (head : Token) (rest : List Token) : Prop :=
  ∃ t more, rest = t :: more ∧ t.kind = opening .square ∧ t.start.offset = head.stop

/-- The type `ts` of an alias ends before `rest`: no bracket follows that would belong to it. -/
structure AliasEnds (ts rest : List Token) : Prop where
  noArguments : ∀ head, ts = [head] → ¬ ArgumentsFollow head rest
  noBraces : (∃ s, IsType ts s) → startsWith (opening .curly) rest = false

/-- A default value: balanced tokens, at least one, with no comma outside brackets. -/
inductive IsValue : List Token → Span → Prop
  | mk {first : Token} {ts : List Token} (balanced : Balanced (first :: ts))
      (noComma : ∀ before t after, first :: ts = before ++ t :: after → Balanced before →
        t.kind ≠ .operator .comma) :
      IsValue (first :: ts) (spanOf first (ts.getLast?.getD first))

/-- The default value of a parameter, after an equals sign. -/
inductive IsAssigned : List Token → Span → Prop
  | mk {t : Token} {ts : List Token} {s : Span} (assign : t.kind = .operator .assign)
      (h : IsValue ts s) : IsAssigned (t :: ts) s

/-- The star of a parameter that takes all remaining arguments, if there is one. -/
inductive IsStar : List Token → Bool → Prop
  | none : IsStar [] false
  | some {t : Token} (star : t.kind = .operator .star) : IsStar [t] true

/-- A parameter: perhaps a type, perhaps a star, a variable, perhaps a default value. -/
inductive IsParameter : List Token → Parameter Span → Prop
  | mk {ts us vs : List Token} {name : Token} {type value : Option Span} {star : Bool}
      (htype : Maybe IsType ts type) (hstar : IsStar us star) (hname : name.kind = .variable)
      (hvalue : Maybe IsAssigned vs value) :
      IsParameter (ts ++ (us ++ name :: vs))
        ⟨String.ofList name.value.toList.tail, type, value, star⟩

/-- The parameters between the parentheses, if any. A comma may stand after the last one. -/
inductive IsParameterList : List Token → List (Parameter Span) → Prop
  | empty : IsParameterList [] []
  | listed {ts : List Token} {ps : List (Parameter Span)} (h : CommaList IsParameter ts ps) :
      IsParameterList ts ps
  | trailing {ts : List Token} {c : Token} {ps : List (Parameter Span)}
      (h : CommaList IsParameter ts ps) (comma : c.kind = .operator .comma) :
      IsParameterList (ts ++ [c]) ps

/-- The parameters of a definition in parentheses, if it has any. -/
inductive IsParameters : List Token → List (Parameter Span) → Prop
  | absent : IsParameters [] []
  | present {first last : Token} {ts : List Token} {ps : List (Parameter Span)}
      (hfirst : first.kind = opening .round) (h : IsParameterList ts ps)
      (hlast : last.kind = closing .round) : IsParameters (first :: (ts ++ [last])) ps

/-- The parent after `inherits`, a token of one of `kinds`. -/
inductive IsParent (kinds : List Token.Kind) : List Token → String → Prop
  | mk {t : Token} {ts : List Token} {parent : String} (inherits : t.isName "inherits" = true)
      (h : IsOneOf kinds ts parent) : IsParent kinds (t :: ts) parent

/-- The return type of a function after `>>`. -/
inductive IsReturn : List Token → Span → Prop
  | mk {t : Token} {ts : List Token} {s : Span} (arrow : t.kind = .operator .shiftRight)
      (h : IsType ts s) : IsReturn (t :: ts) s

/-- The hosts of a node, and its parent: a list of hosts that may end with a comma, or one that is
followed by the parent. -/
inductive IsHosts : List Token → List String → Option String → Prop
  | listed {ts us : List Token} {hosts : List String} {parent : Option String}
      (h : CommaList (IsOneOf hostKinds) ts hosts) (hparent : Maybe (IsParent hostKinds) us parent) :
      IsHosts (ts ++ us) hosts parent
  | trailing {ts : List Token} {c : Token} {hosts : List String}
      (h : CommaList (IsOneOf hostKinds) ts hosts) (comma : c.kind = .operator .comma) :
      IsHosts (ts ++ [c]) hosts none

/-- **The six productions.** `IsDefinition tasks ts rest r`: the tokens `ts`, where `rest` follows,
are the definition `r.1`, which ends at offset `r.2`. Plans are definitions only with `tasks`. -/
inductive IsDefinition (tasks : Bool) :
    List Token → List Token → Definition Span × Nat → Prop
  | hostClass {k name last : Token} {ps us bs rest : List Token} {parameters : List (Parameter Span)}
      {parent : Option String} {body : Span} (keyword : k.isName "class" = true)
      (hname : name.kind = .name) (hparameters : IsParameters ps parameters)
      (hparent : Maybe (IsParent [.name, .string]) us parent) (hbody : IsBlock bs (body, last)) :
      IsDefinition tasks (k :: name :: (ps ++ (us ++ bs))) rest
        (.hostClass name.value parameters parent body, last.stop)
  | definedType {k name last : Token} {ps bs rest : List Token} {parameters : List (Parameter Span)}
      {body : Span} (keyword : k.isName "define" = true) (hname : name.kind = .name)
      (hparameters : IsParameters ps parameters) (hbody : IsBlock bs (body, last)) :
      IsDefinition tasks (k :: name :: (ps ++ bs)) rest
        (.definedType name.value parameters body, last.stop)
  | function {k name last : Token} {ps us bs rest : List Token} {parameters : List (Parameter Span)}
      {returns : Option Span} {body : Span} (keyword : k.isName "function" = true)
      (hname : name.kind = .name) (hparameters : IsParameters ps parameters)
      (hreturns : Maybe IsReturn us returns) (hbody : IsBlock bs (body, last)) :
      IsDefinition tasks (k :: name :: (ps ++ (us ++ bs))) rest
        (.function name.value parameters returns body, last.stop)
  | plan {k name last : Token} {ps bs rest : List Token} {parameters : List (Parameter Span)}
      {body : Span} (allowed : tasks = true) (keyword : k.isName "plan" = true)
      (hname : name.kind = .name) (hparameters : IsParameters ps parameters)
      (hbody : IsBlock bs (body, last)) :
      IsDefinition tasks (k :: name :: (ps ++ bs)) rest
        (.plan name.value parameters body, last.stop)
  | typeAlias {k name assign : Token} {ts rest : List Token} {type : Span}
      (keyword : k.isName "type" = true) (hname : name.kind = .typeName)
      (hassign : assign.kind = .operator .assign) (htype : IsAliased ts type)
      (ends : AliasEnds ts rest) :
      IsDefinition tasks (k :: name :: assign :: ts) rest
        (.typeAlias name.value type, type.stop)
  | node {k last : Token} {hs bs rest : List Token} {hosts : List String} {parent : Option String}
      {body : Span} (keyword : k.isName "node" = true) (hhosts : IsHosts hs hosts parent)
      (hbody : IsBlock bs (body, last)) :
      IsDefinition tasks (k :: (hs ++ bs)) rest (.node hosts parent body, last.stop)

end ManifestDocs.Grammar
