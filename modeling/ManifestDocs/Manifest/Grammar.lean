/-
The grammar of manifests. Definitions are read token by token; their bodies, default values and type
arguments, and all other code, only have to balance their brackets. A reading takes the tokens from
some point on and gives what it read with the tokens after it; one that fails gives the tokens from
the first that does not fit, none if the text ended too early.
-/
import ManifestDocs.Diagnostic
import ManifestDocs.Manifest
import ManifestDocs.Token.Scanning

namespace ManifestDocs

namespace Grammar

/-- The tokens from the first that does not fit; none if the text ended too early. -/
abbrev Rejected := List Token

/-! ## Single tokens -/

/-- Whether the next token is of a kind. -/
def startsWith (kind : Token.Kind) : List Token → Bool
  | t :: _ => t.kind == kind
  | [] => false

/-- A token of a kind. -/
def expect (kind : Token.Kind) : List Token → Except Rejected (Token × List Token)
  | t :: ts => if t.kind = kind then .ok (t, ts) else .error (t :: ts)
  | [] => .error []

/-- A token of one of several kinds, by its value. -/
def expectValue (kinds : List Token.Kind) : List Token → Except Rejected (String × List Token)
  | t :: ts => if kinds.contains t.kind then .ok (t.value, ts) else .error (t :: ts)
  | [] => .error []

/-- A part behind a token that announces it, if there is such a token. -/
def optionalAfter {α : Type} (announces : Token → Bool)
    (part : List Token → Except Rejected (α × List Token)) :
    List Token → Except Rejected (Option α × List Token)
  | t :: ts =>
    if announces t then do
      let (a, ts) ← part ts
      return (some a, ts)
    else .ok (none, t :: ts)
  | [] => .ok (none, [])

/-- The kind of an opening bracket. -/
def opening (b : Bracket) : Token.Kind :=
  .operator (.opening b)

/-- The kind of a closing bracket. -/
def closing (b : Bracket) : Token.Kind :=
  .operator (.closing b)

/-- The stretch from the start of one token to the end of another. -/
def spanOf (first last : Token) : Span :=
  ⟨first.start.offset, last.stop⟩

/-! ## Balanced stretches -/

/-- The brackets that are open after a token, innermost first, if those of `inside` are open before
it. A closing bracket has to close the innermost one. -/
def nest? (inside : List Bracket) : Token.Kind → Option (List Bracket)
  | .operator (.opening b) => some (b :: inside)
  | .operator (.closing b) =>
    match inside with
    | b' :: outer => if b = b' then some outer else none
    | [] => none
  | _ => some inside

/-- Passes tokens up to the first point outside all brackets where `stop` holds of the tokens from
there on, or to the end. Gives the tokens passed and those left. -/
def passBalanced (stop : List Token → Bool) (inside : List Bracket) :
    List Token → Except Rejected (List Token × List Token)
  | [] => if inside.isEmpty then .ok ([], []) else .error []
  | t :: ts =>
    if inside.isEmpty && stop (t :: ts) then .ok ([], t :: ts)
    else
      match nest? inside t.kind with
      | none => .error (t :: ts)
      | some inside =>
        match passBalanced stop inside ts with
        | .error e => .error e
        | .ok (passed, rest) => .ok (t :: passed, rest)

/-- Passes a pair of brackets with what is between them, and gives its first and last token. -/
def bracketed (b : Bracket) (ts : List Token) :
    Except Rejected ((Token × Token) × List Token) := do
  let (first, ts) ← expect (opening b) ts
  let (_, ts) ← passBalanced (startsWith (closing b)) [] ts
  let (last, ts) ← expect (closing b) ts
  return ((first, last), ts)

/-- A body in braces: the stretch between them, and the closing brace. -/
def block (ts : List Token) : Except Rejected ((Span × Token) × List Token) := do
  let ((first, last), ts) ← bracketed .curly ts
  return ((⟨first.stop, last.start.offset⟩, last), ts)

/-! ## Types -/

/-- The arguments of a type, which have to follow its name `head` directly, and the last token of
the type. -/
def typeArguments (head : Token) : List Token → Except Rejected (Token × List Token)
  | t :: ts =>
    if t.kind = opening .square ∧ t.start.offset = head.stop then do
      let ((_, last), ts) ← bracketed .square (t :: ts)
      return (last, ts)
    else .ok (head, t :: ts)
  | [] => .ok (head, [])

/-- A type: its name and perhaps arguments. -/
def typeExpression (ts : List Token) : Except Rejected (Span × List Token) := do
  let (head, ts) ← expect .typeName ts
  let (last, ts) ← typeArguments head ts
  return (spanOf head last, ts)

/-- A type before a parameter, if there is one. -/
def optionalType (ts : List Token) : Except Rejected (Option Span × List Token) :=
  if startsWith .typeName ts then do
    let (type, ts) ← typeExpression ts
    return (some type, ts)
  else .ok (none, ts)

/-- What an alias stands for: a type, perhaps with a part in braces, or brackets or braces alone. -/
def aliasedType (ts : List Token) : Except Rejected (Span × List Token) :=
  if startsWith (opening .curly) ts then do
    let ((first, last), ts) ← bracketed .curly ts
    return (spanOf first last, ts)
  else if startsWith (opening .square) ts then do
    let ((first, last), ts) ← bracketed .square ts
    return (spanOf first last, ts)
  else do
    let (head, ts) ← expect .typeName ts
    let (last, ts) ← typeArguments head ts
    if startsWith (opening .curly) ts then do
      let ((_, last), ts) ← bracketed .curly ts
      return (spanOf head last, ts)
    else return (spanOf head last, ts)

/-! ## Parameters -/

/-- Whether the next token ends the default value of a parameter. -/
def endsValue (ts : List Token) : Bool :=
  startsWith (.operator .comma) ts || startsWith (closing .round) ts

/-- A default value: at least one token, up to a comma or the end of the parameters. -/
def defaultValue (ts : List Token) : Except Rejected (Span × List Token) :=
  match passBalanced endsValue [] ts with
  | .error e => .error e
  | .ok ([], rest) => .error rest
  | .ok (first :: passed, rest) => .ok (spanOf first (passed.getLast?.getD first), rest)

/-- The default value after an equals sign, if there is one. -/
def optionalValue : List Token → Except Rejected (Option Span × List Token) :=
  optionalAfter (·.kind == .operator .assign) defaultValue

/-- The star of a parameter that takes all remaining arguments, if there is one. -/
def optionalStar : List Token → Bool × List Token
  | t :: ts => if t.kind = .operator .star then (true, ts) else (false, t :: ts)
  | [] => (false, [])

/-- A parameter. Its name is that of the variable, without the dollar sign. -/
def parameter (ts : List Token) : Except Rejected (Parameter Span × List Token) := do
  let (type, ts) ← optionalType ts
  let star := optionalStar ts
  let (name, ts) ← expect .variable star.2
  let (value, ts) ← optionalValue ts
  return (⟨String.ofList name.value.toList.tail, type, value, star.1⟩, ts)

/-! ## Readings go on -/

theorem bind_eq_ok {ε α β : Type} {x : Except ε α} {f : α → Except ε β} {b : β}
    (h : (x >>= f) = .ok b) : ∃ a, x = .ok a ∧ f a = .ok b := by
  cases x with
  | error e => cases h
  | ok a => exact ⟨a, rfl, h⟩

/-- An optional part leaves no more than there was if the part does. -/
theorem optionalAfter_length {α : Type} {announces : Token → Bool}
    {part : List Token → Except Rejected (α × List Token)}
    (hpart : ∀ {ts rest : List Token} {a : α}, part ts = .ok (a, rest) → rest.length ≤ ts.length)
    {ts rest : List Token} {o : Option α} (h : optionalAfter announces part ts = .ok (o, rest)) :
    rest.length ≤ ts.length := by
  cases ts with
  | nil => cases h; exact Nat.le_refl _
  | cons t ts =>
    rw [optionalAfter] at h
    split at h
    · obtain ⟨⟨_, ts₁⟩, ha, h⟩ := bind_eq_ok h
      cases h
      exact Nat.le_succ_of_le (hpart ha)
    · cases h; exact Nat.le_refl _

theorem expect_suffix {kind : Token.Kind} {ts rest : List Token} {t : Token}
    (h : expect kind ts = .ok (t, rest)) : ts = t :: rest := by
  cases ts with
  | nil => cases h
  | cons t' ts =>
    rw [expect] at h
    split at h
    · cases h; rfl
    · cases h

theorem passBalanced_append {stop : List Token → Bool} {inside : List Bracket}
    {ts passed rest : List Token} (h : passBalanced stop inside ts = .ok (passed, rest)) :
    passed ++ rest = ts := by
  induction ts generalizing inside passed rest with
  | nil =>
    rw [passBalanced] at h
    split at h <;> cases h
    rfl
  | cons t ts ih =>
    rw [passBalanced] at h
    split at h
    · cases h; rfl
    · split at h
      · cases h
      · split at h
        · cases h
        · rename_i hpass
          cases h
          simp [ih hpass]

theorem bracketed_length {b : Bracket} {ts rest : List Token} {r : Token × Token}
    (h : bracketed b ts = .ok (r, rest)) : rest.length < ts.length := by
  obtain ⟨⟨first, ts₁⟩, hfirst, h⟩ := bind_eq_ok h
  obtain ⟨⟨passed, ts₂⟩, hpassed, h⟩ := bind_eq_ok h
  obtain ⟨⟨last, ts₃⟩, hlast, h⟩ := bind_eq_ok h
  cases h
  rw [expect_suffix hfirst, ← passBalanced_append hpassed, expect_suffix hlast]
  simp
  omega

theorem block_length {ts rest : List Token} {r : Span × Token} (h : block ts = .ok (r, rest)) :
    rest.length < ts.length := by
  obtain ⟨⟨_, ts₁⟩, hb, h⟩ := bind_eq_ok h
  cases h
  exact bracketed_length hb

theorem typeArguments_length {head last : Token} {ts rest : List Token}
    (h : typeArguments head ts = .ok (last, rest)) : rest.length ≤ ts.length := by
  cases ts with
  | nil => cases h; exact Nat.le_refl _
  | cons t ts =>
    rw [typeArguments] at h
    split at h
    · obtain ⟨⟨_, ts₁⟩, hb, h⟩ := bind_eq_ok h
      cases h
      exact Nat.le_of_lt (bracketed_length hb)
    · cases h; exact Nat.le_refl _

theorem typeExpression_length {ts rest : List Token} {s : Span}
    (h : typeExpression ts = .ok (s, rest)) : rest.length < ts.length := by
  obtain ⟨⟨head, ts₁⟩, hhead, h⟩ := bind_eq_ok h
  obtain ⟨⟨last, ts₂⟩, hlast, h⟩ := bind_eq_ok h
  cases h
  rw [expect_suffix hhead]
  exact Nat.lt_succ_of_le (typeArguments_length hlast)

theorem optionalType_length {ts rest : List Token} {s : Option Span}
    (h : optionalType ts = .ok (s, rest)) : rest.length ≤ ts.length := by
  unfold optionalType at h
  split at h
  · obtain ⟨⟨_, ts₁⟩, ht, h⟩ := bind_eq_ok h
    cases h
    exact Nat.le_of_lt (typeExpression_length ht)
  · cases h; exact Nat.le_refl _

theorem aliasedType_length {ts rest : List Token} {s : Span}
    (h : aliasedType ts = .ok (s, rest)) : rest.length < ts.length := by
  unfold aliasedType at h
  split at h
  · obtain ⟨⟨_, ts₁⟩, hb, h⟩ := bind_eq_ok h
    cases h
    exact bracketed_length hb
  · split at h
    · obtain ⟨⟨_, ts₁⟩, hb, h⟩ := bind_eq_ok h
      cases h
      exact bracketed_length hb
    · obtain ⟨⟨head, ts₁⟩, hhead, h⟩ := bind_eq_ok h
      obtain ⟨⟨last, ts₂⟩, hlast, h⟩ := bind_eq_ok h
      rw [expect_suffix hhead]
      have hle := typeArguments_length hlast
      dsimp only at h
      split at h
      · obtain ⟨⟨_, ts₃⟩, hb, h⟩ := bind_eq_ok h
        cases h
        have := bracketed_length hb
        simp only [List.length_cons]
        omega
      · cases h
        exact Nat.lt_succ_of_le hle

theorem defaultValue_length {ts rest : List Token} {s : Span}
    (h : defaultValue ts = .ok (s, rest)) : rest.length ≤ ts.length := by
  unfold defaultValue at h
  split at h
  · cases h
  · cases h
  · rename_i hpassed
    cases h
    rw [← passBalanced_append hpassed]
    simp only [List.length_append]
    omega

theorem optionalStar_length (ts : List Token) : (optionalStar ts).2.length ≤ ts.length := by
  cases ts with
  | nil => exact Nat.le_refl _
  | cons t ts =>
    rw [optionalStar]
    split
    · exact Nat.le_succ _
    · exact Nat.le_refl _

theorem parameter_length {ts rest : List Token} {p : Parameter Span}
    (h : parameter ts = .ok (p, rest)) : rest.length < ts.length := by
  obtain ⟨⟨type, ts₁⟩, htype, h⟩ := bind_eq_ok h
  obtain ⟨⟨name, ts₂⟩, hname, h⟩ := bind_eq_ok h
  obtain ⟨⟨value, ts₃⟩, hvalue, h⟩ := bind_eq_ok h
  cases h
  have h₁ := optionalType_length htype
  have h₂ := optionalStar_length ts₁
  have h₃ := congrArg List.length (expect_suffix hname)
  have h₄ := optionalAfter_length defaultValue_length hvalue
  simp only [List.length_cons] at h₁ h₂ h₃ h₄
  omega

/-! ## Lists of parameters and hosts -/

/-- Parameters up to the closing parenthesis, each but the last with a comma after it; a comma
before the parenthesis is allowed. -/
def parameters (ts : List Token) : Except Rejected (List (Parameter Span) × List Token) :=
  if startsWith (closing .round) ts then .ok ([], ts.tail)
  else
    match _h : parameter ts with
    | .error e => .error e
    | .ok (p, rest) =>
      if startsWith (closing .round) rest then .ok ([p], rest.tail)
      else if startsWith (.operator .comma) rest then
        match parameters rest.tail with
        | .error e => .error e
        | .ok (ps, rest) => .ok (p :: ps, rest)
      else .error rest
termination_by ts.length
decreasing_by
  have hlt := parameter_length _h
  rw [List.length_tail]
  omega

/-- The parameters of a definition, none if there is no opening parenthesis. -/
def optionalParameters : List Token → Except Rejected (List (Parameter Span) × List Token)
  | t :: ts => if t.kind = opening .round then parameters ts else .ok ([], t :: ts)
  | [] => .ok ([], [])

/-- The kinds of token that can name a host. -/
def hostKinds : List Token.Kind :=
  [.string, .name, .regex]

/-- Hosts with commas between them; a comma before the body is allowed. -/
def hosts : List Token → Except Rejected (List String × List Token)
  | t :: ts =>
    if hostKinds.contains t.kind then
      match ts with
      | c :: rest =>
        if c.kind = .operator .comma then
          if startsWith (opening .curly) rest then .ok ([t.value], rest)
          else
            match hosts rest with
            | .error e => .error e
            | .ok (more, rest) => .ok (t.value :: more, rest)
        else .ok ([t.value], c :: rest)
      | [] => .ok ([t.value], [])
    else .error (t :: ts)
  | [] => .error []

/-- The parent after `inherits`, a token of one of `kinds`, if there is one. -/
def optionalParent (kinds : List Token.Kind) :
    List Token → Except Rejected (Option String × List Token) :=
  optionalAfter (·.isName "inherits") (expectValue kinds)

/-- The return type of a function after `>>`, if there is one. -/
def optionalReturn : List Token → Except Rejected (Option Span × List Token) :=
  optionalAfter (·.kind == .operator .shiftRight) typeExpression

/-! ## Definitions -/

/-- The six sorts of definition. -/
inductive Keyword where
  | hostClass | definedType | function | plan | typeAlias | node
deriving DecidableEq, Repr

/-- The definition that starts with the next token, if one does: a keyword with the tokens after it
that tell it from an ordinary name. Plans are definitions only with `tasks`. -/
def leading? (tasks : Bool) : List Token → Option Keyword
  | t :: ts =>
    if t.isName "class" && startsWith .name ts then some .hostClass
    else if t.isName "define" && startsWith .name ts then some .definedType
    else if t.isName "function" && startsWith .name ts then some .function
    else if tasks && t.isName "plan" && startsWith .name ts then some .plan
    else if t.isName "type" && startsWith .typeName ts && startsWith (.operator .assign) ts.tail
    then some .typeAlias
    else if t.isName "node" && hostKinds.any (startsWith · ts) then some .node
    else none
  | [] => none

/-- The rest of a definition after its keyword, with the offset after its last character. -/
def definition (keyword : Keyword) (ts : List Token) :
    Except Rejected ((Definition Span × Nat) × List Token) :=
  match keyword with
  | .hostClass => do
    let (name, ts) ← expect .name ts
    let (parameters, ts) ← optionalParameters ts
    let (parent, ts) ← optionalParent [.name, .string] ts
    let ((body, last), ts) ← block ts
    return ((.hostClass name.value parameters parent body, last.stop), ts)
  | .definedType => do
    let (name, ts) ← expect .name ts
    let (parameters, ts) ← optionalParameters ts
    let ((body, last), ts) ← block ts
    return ((.definedType name.value parameters body, last.stop), ts)
  | .function => do
    let (name, ts) ← expect .name ts
    let (parameters, ts) ← optionalParameters ts
    let (returns, ts) ← optionalReturn ts
    let ((body, last), ts) ← block ts
    return ((.function name.value parameters returns body, last.stop), ts)
  | .plan => do
    let (name, ts) ← expect .name ts
    let (parameters, ts) ← optionalParameters ts
    let ((body, last), ts) ← block ts
    return ((.plan name.value parameters body, last.stop), ts)
  | .typeAlias => do
    let (name, ts) ← expect .typeName ts
    let (_, ts) ← expect (.operator .assign) ts
    let (type, ts) ← aliasedType ts
    return ((.typeAlias name.value type, type.stop), ts)
  | .node => do
    let (hosts, ts) ← hosts ts
    let (parent, ts) ← optionalParent hostKinds ts
    let ((body, last), ts) ← block ts
    return ((.node hosts parent body, last.stop), ts)

/-- The item that starts with token `first` and ends at offset `stop`. -/
def itemAt (first : Token) (stop : Nat) (form : Form Span) : Item Span :=
  ⟨first.start.line, first.start.offset, stop - first.start.offset, form⟩

/-- The next item, whose first token is `t`: a definition, or code up to the next definition. -/
def item (tasks : Bool) (t : Token) (ts : List Token) : Except Rejected (Item Span × List Token) :=
  match leading? tasks (t :: ts) with
  | some keyword => do
    let ((d, stop), ts) ← definition keyword ts
    return (itemAt t stop (.definition d), ts)
  | none => do
    let (passed, ts) ← passBalanced (fun ts => (leading? tasks ts).isSome) [] (t :: ts)
    return (itemAt t (passed.getLast?.getD t).stop .expression, ts)

/-! ## Every item takes a token -/

theorem parameters_length {ts rest : List Token} {ps : List (Parameter Span)}
    (h : parameters ts = .ok (ps, rest)) : rest.length ≤ ts.length := by
  fun_induction parameters ts generalizing ps rest with
  | case1 ts _ => cases h; simp
  | case2 => cases h
  | case3 ts _ p rest₁ hp _ =>
    cases h
    have := parameter_length hp
    rw [List.length_tail]
    omega
  | case4 => cases h
  | case5 ts _ p rest₁ hp _ _ ps₁ rest₂ hmore ih =>
    cases h
    have := parameter_length hp
    have hle := ih hmore
    rw [List.length_tail] at hle
    omega
  | case6 => cases h

theorem optionalParameters_length {ts rest : List Token} {ps : List (Parameter Span)}
    (h : optionalParameters ts = .ok (ps, rest)) : rest.length ≤ ts.length := by
  cases ts with
  | nil => cases h; exact Nat.le_refl _
  | cons t ts =>
    rw [optionalParameters] at h
    split at h
    · exact Nat.le_succ_of_le (parameters_length h)
    · cases h; exact Nat.le_refl _

theorem hosts_length {ts rest : List Token} {hs : List String} (h : hosts ts = .ok (hs, rest)) :
    rest.length ≤ ts.length := by
  fun_induction hosts ts generalizing hs rest with
  | case1 =>
    cases h
    simp only [List.length_cons]
    omega
  | case2 => cases h
  | case3 t _ c rest₁ _ _ more rest₂ hmore ih =>
    cases h
    have := ih hmore
    simp only [List.length_cons]
    omega
  | case4 => cases h; simp
  | case5 => cases h; simp
  | case6 => cases h
  | case7 => cases h

theorem expectValue_length {kinds : List Token.Kind} {ts rest : List Token} {v : String}
    (h : expectValue kinds ts = .ok (v, rest)) : rest.length ≤ ts.length := by
  cases ts with
  | nil => cases h
  | cons t ts =>
    rw [expectValue] at h
    split at h
    · cases h; exact Nat.le_succ _
    · cases h

theorem definition_length {keyword : Keyword} {ts rest : List Token} {d : Definition Span × Nat}
    (h : definition keyword ts = .ok (d, rest)) : rest.length ≤ ts.length := by
  cases keyword with
  | hostClass =>
    obtain ⟨⟨name, ts₁⟩, hname, h⟩ := bind_eq_ok h
    obtain ⟨⟨_, ts₂⟩, hparameters, h⟩ := bind_eq_ok h
    obtain ⟨⟨_, ts₃⟩, hparent, h⟩ := bind_eq_ok h
    obtain ⟨⟨_, ts₄⟩, hblock, h⟩ := bind_eq_ok h
    cases h
    have h₁ := congrArg List.length (expect_suffix hname)
    have h₂ := optionalParameters_length hparameters
    have h₃ := optionalAfter_length expectValue_length hparent
    have h₄ := block_length hblock
    simp only [List.length_cons] at h₁
    omega
  | definedType | plan =>
    obtain ⟨⟨name, ts₁⟩, hname, h⟩ := bind_eq_ok h
    obtain ⟨⟨_, ts₂⟩, hparameters, h⟩ := bind_eq_ok h
    obtain ⟨⟨_, ts₃⟩, hblock, h⟩ := bind_eq_ok h
    cases h
    have h₁ := congrArg List.length (expect_suffix hname)
    have h₂ := optionalParameters_length hparameters
    have h₃ := block_length hblock
    simp only [List.length_cons] at h₁
    omega
  | function =>
    obtain ⟨⟨name, ts₁⟩, hname, h⟩ := bind_eq_ok h
    obtain ⟨⟨_, ts₂⟩, hparameters, h⟩ := bind_eq_ok h
    obtain ⟨⟨_, ts₃⟩, hreturns, h⟩ := bind_eq_ok h
    obtain ⟨⟨_, ts₄⟩, hblock, h⟩ := bind_eq_ok h
    cases h
    have h₁ := congrArg List.length (expect_suffix hname)
    have h₂ := optionalParameters_length hparameters
    have h₃ := optionalAfter_length (fun h => Nat.le_of_lt (typeExpression_length h)) hreturns
    have h₄ := block_length hblock
    simp only [List.length_cons] at h₁
    omega
  | typeAlias =>
    obtain ⟨⟨name, ts₁⟩, hname, h⟩ := bind_eq_ok h
    obtain ⟨⟨_, ts₂⟩, hassign, h⟩ := bind_eq_ok h
    obtain ⟨⟨_, ts₃⟩, htype, h⟩ := bind_eq_ok h
    cases h
    have h₁ := congrArg List.length (expect_suffix hname)
    have h₂ := congrArg List.length (expect_suffix hassign)
    have h₃ := aliasedType_length htype
    simp only [List.length_cons] at h₁ h₂
    omega
  | node =>
    obtain ⟨⟨_, ts₁⟩, hhosts, h⟩ := bind_eq_ok h
    obtain ⟨⟨_, ts₂⟩, hparent, h⟩ := bind_eq_ok h
    obtain ⟨⟨_, ts₃⟩, hblock, h⟩ := bind_eq_ok h
    cases h
    have h₁ := hosts_length hhosts
    have h₂ := optionalAfter_length expectValue_length hparent
    have h₃ := block_length hblock
    omega

/-- Code that starts with no definition takes at least its first token. -/
theorem passBalanced_length {stop : List Token → Bool} {t : Token} {ts passed rest : List Token}
    (hstop : stop (t :: ts) = false) (h : passBalanced stop [] (t :: ts) = .ok (passed, rest)) :
    rest.length ≤ ts.length := by
  rw [passBalanced] at h
  simp only [hstop, Bool.and_false, Bool.false_eq_true, if_false] at h
  split at h
  · cases h
  · split at h
    · cases h
    · rename_i hpass
      cases h
      rw [← passBalanced_append hpass]
      simp

theorem item_length {tasks : Bool} {t : Token} {ts rest : List Token} {i : Item Span}
    (h : item tasks t ts = .ok (i, rest)) : rest.length ≤ ts.length := by
  unfold item at h
  split at h
  · obtain ⟨⟨_, ts₁⟩, hd, h⟩ := bind_eq_ok h
    cases h
    exact definition_length hd
  · rename_i hnone
    obtain ⟨⟨_, ts₁⟩, hp, h⟩ := bind_eq_ok h
    cases h
    exact passBalanced_length (by simp [hnone]) hp

/-- All items of a manifest. -/
def items (tasks : Bool) (ts : List Token) : Except Rejected (List (Item Span)) :=
  match ts with
  | [] => .ok []
  | t :: ts =>
    match _h : item tasks t ts with
    | .error e => .error e
    | .ok (i, rest) =>
      match items tasks rest with
      | .error e => .error e
      | .ok more => .ok (i :: more)
termination_by ts.length
decreasing_by
  exact Nat.lt_succ_of_le (item_length _h)

/-- The error at the first of the tokens that do not fit, or at the end of the text. -/
def errorAt (stop : Place) : Rejected → SyntaxError
  | t :: _ => ⟨.unexpected t.value, t.start.line, t.start.column⟩
  | [] => ⟨.unexpectedEnd, stop.line, stop.column⟩

end Grammar

/-- Reads a manifest. Plans are definitions only with `tasks`. -/
def Manifest.parse (tasks : Bool) (text : String) : Except SyntaxError Manifest :=
  match Scan.ofText text with
  | .error e => .error e
  | .ok scan =>
    match Grammar.items tasks scan.tokens with
    | .error rejected => .error (Grammar.errorAt scan.stop rejected)
    | .ok items =>
      let chars := text.toList
      .ok ⟨text, items.map (·.map (Span.excerpt chars))⟩

end ManifestDocs
