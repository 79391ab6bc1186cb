/-
Definitions printed: each as its pieces with line breaks between them. This module says how a
definition is printed, which definitions can be (`WellFormed`), and that what is printed scans; what
the tokens then mean is the matter of the round trip.
-/
import ManifestDocs.Proofs.Items
import ManifestDocs.Proofs.Joining

namespace ManifestDocs.Printing

open ManifestDocs.Grammar ManifestDocs.Scanner ManifestDocs.Heredoc

/-! ## Pieces -/

/-- The pieces of a parameter: perhaps its type, perhaps a star, its name, perhaps its value. -/
def parameterPieces (p : Parameter String) : List String :=
  p.type.toList ++ ((if p.capturesRest then ["*"] else []) ++
    (("$" ++ p.name) :: (p.value.toList.flatMap fun v => ["=", v])))

/-- The pieces of all parameters in parentheses, none if there are none. -/
def parametersPieces (ps : List (Parameter String)) : List String :=
  if ps.isEmpty then [] else "(" :: ([","].intercalate (ps.map parameterPieces) ++ [")"])

/-- The pieces of a parent, if there is one. -/
def parentPieces (parent : Option String) : List String :=
  parent.toList.flatMap fun p => ["inherits", p]

/-- The pieces of a return type, if there is one. -/
def returnPieces (returns : Option String) : List String :=
  returns.toList.flatMap fun t => [">>", t]

/-- The pieces of a body in braces. -/
def bodyPieces (body : String) : List String :=
  ["\x7b", body, "\x7d"]

/-- The pieces of a definition. -/
def pieces : Definition String → List String
  | .hostClass name parameters parent body =>
    "class" :: name :: (parametersPieces parameters ++ (parentPieces parent ++ bodyPieces body))
  | .definedType name parameters body =>
    "define" :: name :: (parametersPieces parameters ++ bodyPieces body)
  | .function name parameters returns body =>
    "function" :: name :: (parametersPieces parameters ++ (returnPieces returns ++ bodyPieces body))
  | .plan name parameters body =>
    "plan" :: name :: (parametersPieces parameters ++ bodyPieces body)
  | .typeAlias name type => ["type", name, "=", type]
  | .node hosts parent body =>
    "node" :: ([","].intercalate (hosts.map ([·])) ++ (parentPieces parent ++ bodyPieces body))

/-- A definition printed: its pieces with line breaks between them. -/
def print (d : Definition String) : String :=
  "\n".intercalate (pieces d)

/-- Definitions printed one after the other, with line breaks between them. -/
def printAll (ds : List (Definition String)) : String :=
  "\n".intercalate (ds.map print)

/-! ## What can be printed -/

/-- The text is one token of one of these kinds, from its first character to its last. -/
def IsToken (kinds : List Token.Kind) (text : String) : Prop :=
  ∃ t stop, Scan.ofText text = .ok ⟨[t], stop⟩ ∧ t.kind ∈ kinds ∧ t.value = text

/-- The text scans alone, to these tokens. -/
def HasTokens (text : String) (ts : List Token) : Prop :=
  ∃ stop, Scan.ofText text = .ok ⟨ts, stop⟩

/-- The text scans alone to tokens that derive it from its first character to its last. -/
def IsTight (R : List Token → Span → Prop) (text : String) : Prop :=
  ∃ ts, HasTokens text ts ∧ R ts ⟨0, text.toList.length⟩

/-- The text scans alone to balanced tokens, and a comment on the next line changes nothing about
them: no heredoc of the text is closed only because the text ends. -/
def IsBody (text : String) : Prop :=
  ∃ ts, HasTokens text ts ∧ HasTokens (text ++ "\n#") ts ∧ Balanced ts

/-- The parts of a parameter are what they are printed as. -/
structure WellFormedParameter (p : Parameter String) : Prop where
  type : ∀ t ∈ p.type, IsTight IsType t
  name : IsToken [.variable] ("$" ++ p.name)
  value : ∀ v ∈ p.value, IsTight IsValue v

/-- The parts of a definition are what they are printed as. Plans need `tasks`. -/
def WellFormed (tasks : Bool) : Definition String → Prop
  | .hostClass name parameters parent body =>
    IsToken [.name] name ∧ (∀ p ∈ parameters, WellFormedParameter p) ∧
      (∀ p ∈ parent, IsToken [.name, .string] p) ∧ IsBody body
  | .definedType name parameters body =>
    IsToken [.name] name ∧ (∀ p ∈ parameters, WellFormedParameter p) ∧ IsBody body
  | .function name parameters returns body =>
    IsToken [.name] name ∧ (∀ p ∈ parameters, WellFormedParameter p) ∧
      (∀ t ∈ returns, IsTight IsType t) ∧ IsBody body
  | .plan name parameters body =>
    tasks = true ∧ IsToken [.name] name ∧ (∀ p ∈ parameters, WellFormedParameter p) ∧ IsBody body
  | .typeAlias name type => IsToken [.typeName] name ∧ IsTight IsAliased type
  | .node hosts parent body =>
    hosts ≠ [] ∧ (∀ h ∈ hosts, IsToken hostKinds h) ∧ (∀ p ∈ parent, IsToken [.name, .string] p) ∧
      IsBody body

theorem HasTokens.scansTo {text : String} {ts : List Token} (h : HasTokens text ts) :
    ScansTo text.toList ts := by
  obtain ⟨stop, hscan⟩ := h
  exact scansTo_of_scan hscan

/-! ## Single tokens -/

/-- A text that is one lexeme is one token. -/
theorem isToken_of_first {kind : Token.Kind} {c : Char} {cs : List Char} {text : String}
    (htext : text.toList = c :: cs) (h : Piece.first true c cs = .ok (.lexeme kind text.toList, [])) :
    IsToken [kind] text := by
  have hfirst : Piece.First (start text.toList).wantsOperand (start text.toList).rest
      (.lexeme kind text.toList) [] := by
    show Piece.First true text.toList _ _
    rw [htext] at h ⊢
    exact Piece.first_eq_ok.1 h
  have hruns := Runs.step hfirst rfl (.stop rfl rfl)
  exact ⟨_, _, run_eq_ok.2 hruns, by simp [Scanner.token], by simp [Scanner.token]⟩

theorem isToken_keyword (k : Keyword) : IsToken [.name] k.word := by
  cases k with
  | hostClass => exact isToken_of_first (c := 'c') rfl (by decide +kernel)
  | definedType => exact isToken_of_first (c := 'd') rfl (by decide +kernel)
  | function => exact isToken_of_first (c := 'f') rfl (by decide +kernel)
  | plan => exact isToken_of_first (c := 'p') rfl (by decide +kernel)
  | typeAlias => exact isToken_of_first (c := 't') rfl (by decide +kernel)
  | node => exact isToken_of_first (c := 'n') rfl (by decide +kernel)

theorem isToken_inherits : IsToken [.name] "inherits" :=
  isToken_of_first (c := 'i') rfl (by decide +kernel)

/-- The operators that definitions are printed with. -/
def marks : List Operator :=
  [.opening .round, .closing .round, .opening .curly, .closing .curly, .comma, .assign, .star,
   .shiftRight]

theorem isToken_mark {o : Operator} (h : o ∈ marks) : IsToken [.operator o] o.text := by
  simp only [marks, List.mem_cons, List.not_mem_nil, or_false] at h
  rcases h with rfl | rfl | rfl | rfl | rfl | rfl | rfl | rfl
  · exact isToken_of_first (c := '(') rfl (by rfl)
  · exact isToken_of_first (c := ')') rfl (by rfl)
  · exact isToken_of_first (c := '\x7b') rfl (by rfl)
  · exact isToken_of_first (c := '\x7d') rfl (by rfl)
  · exact isToken_of_first (c := ',') rfl (by rfl)
  · exact isToken_of_first (c := '=') rfl (by rfl)
  · exact isToken_of_first (c := '*') rfl (by rfl)
  · exact isToken_of_first (c := '>') rfl (by rfl)

/-- One token alone starts and ends with its text. -/
theorem IsToken.hasTokens {kinds : List Token.Kind} {text : String} (h : IsToken kinds text) :
    ∃ t, HasTokens text [t] ∧ t.kind ∈ kinds ∧ t.value = text ∧ t.start.offset = 0 ∧
      t.stop = text.toList.length := by
  obtain ⟨t, stop, hscan, hkind, hvalue⟩ := h
  have hruns : Runs (start text.toList) ⟨[t], stop⟩ := run_eq_ok.1 hscan
  obtain ⟨before, after, hwhole, hstart, hstop, -⟩ := hruns.stands t (by simp)
  have hlength := congrArg List.length hwhole
  rw [hvalue] at hlength hstop
  simp only [start, Cursor.start, List.length_append] at hlength hstart
  exact ⟨t, ⟨stop, hscan⟩, hkind, hvalue, by omega, by omega⟩

/-- A text that starts with its first token: the first step makes it. -/
theorem first_of_scansTo {x : List Char} {t : Token} {ts : List Token} (h : ScansTo x (t :: ts))
    (first : t.start.offset = 0) :
    ∃ p rest s, Piece.First true x p rest ∧ (start x).pass rest p = .ok (some t, s) := by
  obtain ⟨stop, hruns⟩ := h
  generalize hscan : (⟨t :: ts, stop⟩ : Scan) = scan at hruns
  cases hruns with
  | stop => cases hscan
  | @step _ s p rest t' scan hfirst hpass more =>
    cases t' with
    | none =>
      -- the first piece is passed without a token, and then the token starts after it
      obtain ⟨passed, hpasses⟩ := passes_of_step hfirst hpass
      have htokens : t :: ts = scan.tokens := congrArg Scan.tokens hscan
      have hle := (more.stands t (by simp [← htokens])).lt.1
      have hoffset := hpasses.offset
      have hpos := List.length_pos_iff.2 hpasses.ne_nil
      omega
    | some t' =>
      have htokens : t :: ts = t' :: scan.tokens := congrArg Scan.tokens hscan
      cases htokens
      exact ⟨p, rest, s, hfirst, hpass⟩

theorem startsPlain_of_kind {x : List Char} {t : Token} {ts : List Token} (h : ScansTo x (t :: ts))
    (first : t.start.offset = 0) (notRegex : t.kind ≠ .regex)
    (notSlash : t.kind ≠ .operator .slash) : StartsPlain x (t :: ts) := by
  refine ⟨fun hslash => ?_, t, ts, rfl, first⟩
  obtain ⟨cs, rfl⟩ := List.head?_eq_some_iff.1 hslash
  obtain ⟨p, rest, s, hfirst, hpass⟩ := first_of_scansTo h first
  rcases hfirst.of_slash with ⟨text, rfl⟩ | ⟨text, rfl⟩ | ⟨text, rfl⟩
  · cases hpass
  · cases hpass
    exact notRegex rfl
  · cases hpass
    exact notSlash rfl

/-- A text that is one name starts with it as a piece. -/
theorem first_of_name {x : String} (h : IsToken [.name] x) :
    Piece.First true x.toList (.lexeme .name x.toList) [] := by
  obtain ⟨t, ht, hkind, hvalue, hfirst, -⟩ := h.hasTokens
  obtain ⟨p, rest, s, hpiece, hpass⟩ := first_of_scansTo ht.scansTo hfirst
  have hname : t.kind = .name := List.mem_singleton.1 hkind
  cases p with
  | newline =>
    obtain ⟨-, -, -, he, -⟩ := pass_newline_eq_ok.1 hpass
    cases he
  | gap | comment => cases hpass
  | header => cases hpass; cases hname
  | lexeme kind text =>
    cases hpass
    have htext : x.toList = text := by rw [← hvalue]; exact String.toList_ofList
    have hrest : rest = [] := by
      have hwhole := (append_of_first hpiece).1
      rw [htext] at hwhole
      exact List.self_eq_append_right.1 hwhole
    have hkind' : kind = .name := hname
    rwa [← htext, hkind', hrest] at hpiece

/-! ## What is printed scans -/

/-- Kinds of token that do not start with a slash. -/
def Plain (kinds : List Token.Kind) : Prop :=
  ∀ kind ∈ kinds, kind ≠ .regex ∧ kind ≠ .operator .slash

/-- A text that is one token can come first, and what comes next may count on it. -/
theorem fits_token {op : Bool} {kinds : List Token.Kind} {x : String} {xs : List String}
    (h : IsToken kinds x) (plain : Plain kinds)
    (more : ∀ t : Token, t.kind ∈ kinds → t.value = x → Fits (opens [t]) (xs.map String.toList)) :
    Fits op ((x :: xs).map String.toList) := by
  obtain ⟨t, ht, hkind, hvalue, hfirst, hstop⟩ := h.hasTokens
  obtain ⟨notRegex, notSlash⟩ := plain t.kind hkind
  exact .cons ht.scansTo (closed_of_last rfl hstop)
    (.inr (startsPlain_of_kind ht.scansTo hfirst notRegex notSlash)) (more t hkind hvalue)

theorem fits_cons {op : Bool} {kinds : List Token.Kind} {x : String} {xs : List String}
    (h : IsToken kinds x) (plain : Plain kinds) (more : Fits false (xs.map String.toList)) :
    Fits op ((x :: xs).map String.toList) :=
  fits_token h plain fun _ _ _ => more.weaken

theorem plain_mark {o : Operator} (h : o ∈ marks) : Plain [.operator o] := by
  intro kind hkind
  rw [List.mem_singleton.1 hkind]
  refine ⟨by simp, fun he => ?_⟩
  cases he
  exact absurd h (by decide)

theorem fits_mark {op : Bool} {o : Operator} {xs : List String} (h : o ∈ marks)
    (more : Fits false (xs.map String.toList)) : Fits op ((o.text :: xs).map String.toList) :=
  fits_cons (isToken_mark h) (plain_mark h) more

/-- After these operators an operand can follow, so that any text can. -/
theorem fits_opener {op : Bool} {o : Operator} {xs : List String} (h : o ∈ marks)
    (opener : ∀ t : Token, t.kind = .operator o → t.endsOperand = false)
    (more : Fits true (xs.map String.toList)) : Fits op ((o.text :: xs).map String.toList) := by
  refine fits_token (isToken_mark h) (plain_mark h) fun t hkind _ => ?_
  have hopens : opens [t] = true := by
    simp [opens, opener t (List.mem_singleton.1 hkind)]
  rw [hopens]
  exact more

/-- Where an operand can follow, any text can. -/
theorem fits_text {x : String} {ts : List Token} {xs : List String} (h : HasTokens x ts)
    (closed : Closed (start x.toList) ts) (more : Fits false (xs.map String.toList)) :
    Fits true ((x :: xs).map String.toList) :=
  .cons h.scansTo closed (.inl rfl) more.weaken

/-- A text whose tokens start with the name of a type or a bracket can come first. -/
theorem fits_tight {op : Bool} {R : List Token → Span → Prop} {x : String} {xs : List String}
    (h : IsTight R x)
    (starts : ∀ {ts s}, R ts s → ∃ t more, ts = t :: more ∧ t.start.offset = s.start ∧
      t.kind ≠ .regex ∧ t.kind ≠ .operator .slash)
    (ends : ∀ {ts s}, R ts s → ∃ last, ts.getLast? = some last ∧ last.stop = s.stop)
    (more : Fits false (xs.map String.toList)) : Fits op ((x :: xs).map String.toList) := by
  obtain ⟨ts, hts, hR⟩ := h
  obtain ⟨last, hlast, hstop⟩ := ends hR
  obtain ⟨t, ts, rfl, hfirst, notRegex, notSlash⟩ := starts hR
  exact .cons hts.scansTo (closed_of_last hlast hstop)
    (.inr (startsPlain_of_kind hts.scansTo hfirst notRegex notSlash)) more.weaken

theorem starts_of_isType {ts : List Token} {s : Span} (h : IsType ts s) :
    ∃ t more, ts = t :: more ∧ t.start.offset = s.start ∧ t.kind ≠ .regex ∧
      t.kind ≠ .operator .slash := by
  cases h with
  | bare hhead => exact ⟨_, _, rfl, rfl, by simp [hhead], by simp [hhead]⟩
  | applied hhead _ _ => exact ⟨_, _, rfl, rfl, by simp [hhead], by simp [hhead]⟩

theorem last_of_isValue {ts : List Token} {s : Span} (h : IsValue ts s) :
    ∃ last, ts.getLast? = some last ∧ last.stop = s.stop := by
  obtain ⟨-, -⟩ := h
  exact ⟨_, List.getLast?_cons, rfl⟩

theorem starts_of_isAliased {ts : List Token} {s : Span} (h : IsAliased ts s) :
    ∃ t more, ts = t :: more ∧ t.start.offset = s.start ∧ t.kind ≠ .regex ∧
      t.kind ≠ .operator .slash := by
  cases h with
  | type h => exact starts_of_isType h
  | braced h _ =>
    obtain ⟨t, more, rfl, hfirst, hkind⟩ := starts_of_isType h
    exact ⟨t, _, rfl, hfirst, hkind⟩
  | alone _ h =>
    obtain ⟨hfirst, -, -⟩ := h
    exact ⟨_, _, rfl, rfl, by simp [hfirst, opening], by simp [hfirst, opening]⟩

theorem fits_parameter {p : Parameter String} (h : WellFormedParameter p) {op : Bool} :
    Fits op ((parameterPieces p).map String.toList) := by
  obtain ⟨htype, hname, hvalue⟩ := h
  rw [parameterPieces]
  refine Fits.join ?_ (Fits.join ?_ ?_)
  · cases ht : p.type with
    | none => exact .nil
    | some t => exact fits_tight (htype t ht) starts_of_isType (fun h => (IsAliased.type h).getLast?) .nil
  · cases p.capturesRest with
    | false => exact .nil
    | true => exact fits_mark (o := .star) (by decide) .nil
  · refine fits_cons hname (by simp [Plain]) ?_
    cases hv : p.value with
    | none => exact .nil
    | some v =>
      obtain ⟨ts, htext, hderives⟩ := hvalue v hv
      obtain ⟨last, hlast, hstop⟩ := last_of_isValue hderives
      refine fits_opener (o := .assign) (by decide) (fun t ht => ?_)
        (fits_text htext (closed_of_last hlast hstop) .nil)
      simp [Token.endsOperand, ht]

theorem fits_commaList {α : Type} {f : α → List String} {as : List α}
    (h : ∀ a ∈ as, Fits true ((f a).map String.toList)) :
    Fits true (([","].intercalate (as.map f)).map String.toList) := by
  induction as with
  | nil => exact .nil
  | cons a as ih =>
    have ha := h a (by simp)
    have hmore := ih fun b hb => h b (by simp [hb])
    cases as with
    | nil => simpa using ha
    | cons b bs =>
      rw [List.map_cons, List.map_cons, List.intercalate_cons_cons, List.append_assoc]
      refine ha.join ?_
      refine fits_opener (o := .comma) (by decide) (fun t ht => ?_) hmore
      simp [Token.endsOperand, ht]

theorem fits_parameters {ps : List (Parameter String)} (h : ∀ p ∈ ps, WellFormedParameter p) :
    Fits false ((parametersPieces ps).map String.toList) := by
  rw [parametersPieces]
  split
  · exact .nil
  · refine fits_opener (o := .opening .round) (by decide) (fun t ht => ?_) ?_
    · simp [Token.endsOperand, ht]
    · refine (fits_commaList fun p hp => fits_parameter (h p hp)).join ?_
      exact fits_mark (o := .closing .round) (by decide) .nil

theorem fits_body {body : String} (h : IsBody body) :
    Fits false ((bodyPieces body).map String.toList) := by
  obtain ⟨ts, htext, hcomment, -⟩ := h
  have hclosed : Closed (start body.toList) ts := by
    refine closed_of_comment ?_
    have hscans := hcomment.scansTo
    rwa [String.toList_append] at hscans
  refine fits_opener (o := .opening .curly) (by decide) (fun t ht => ?_) ?_
  · simp [Token.endsOperand, ht]
  · exact fits_text htext hclosed (fits_mark (o := .closing .curly) (by decide) .nil)

theorem fits_parent {parent : Option String} (h : ∀ p ∈ parent, IsToken [.name, .string] p) :
    Fits false ((parentPieces parent).map String.toList) := by
  cases parent with
  | none => exact .nil
  | some p =>
    refine fits_cons isToken_inherits (by simp [Plain]) ?_
    exact fits_cons (h p rfl) (by simp [Plain]) .nil

theorem fits_return {returns : Option String} (h : ∀ t ∈ returns, IsTight IsType t) :
    Fits false ((returnPieces returns).map String.toList) := by
  cases returns with
  | none => exact .nil
  | some t =>
    refine fits_mark (o := .shiftRight) (by decide) ?_
    exact fits_tight (h t rfl) starts_of_isType (fun h => (IsAliased.type h).getLast?) .nil

theorem fits_host {host : String} (h : IsToken hostKinds host) :
    Fits true ([host].map String.toList) := by
  obtain ⟨t, ht, -, -, -, hstop⟩ := h.hasTokens
  exact .cons ht.scansTo (closed_of_last rfl hstop) (.inl rfl) .nil

/-- The keyword and the name of a definition, and what comes after them. -/
theorem fits_named {k : Keyword} {kind : Token.Kind} {name : String} {xs : List String}
    (h : IsToken [kind] name) (plain : Plain [kind]) (more : Fits false (xs.map String.toList)) :
    Fits false ((k.word :: name :: xs).map String.toList) :=
  fits_cons (isToken_keyword k) (by simp [Plain]) (fits_cons h plain more)

/-- **What is printed of a definition scans.** -/
theorem fits_definition {tasks : Bool} {d : Definition String} (h : WellFormed tasks d) :
    Fits false ((pieces d).map String.toList) := by
  cases d with
  | hostClass name parameters parent body =>
    obtain ⟨hname, hparameters, hparent, hbody⟩ := h
    refine fits_named (k := .hostClass) hname (by simp [Plain]) ?_
    exact (fits_parameters hparameters).join ((fits_parent hparent).join (fits_body hbody))
  | definedType name parameters body =>
    obtain ⟨hname, hparameters, hbody⟩ := h
    refine fits_named (k := .definedType) hname (by simp [Plain]) ?_
    exact (fits_parameters hparameters).join (fits_body hbody)
  | function name parameters returns body =>
    obtain ⟨hname, hparameters, hreturns, hbody⟩ := h
    refine fits_named (k := .function) hname (by simp [Plain]) ?_
    exact (fits_parameters hparameters).join ((fits_return hreturns).join (fits_body hbody))
  | plan name parameters body =>
    obtain ⟨-, hname, hparameters, hbody⟩ := h
    refine fits_named (k := .plan) hname (by simp [Plain]) ?_
    exact (fits_parameters hparameters).join (fits_body hbody)
  | typeAlias name type =>
    obtain ⟨hname, htype⟩ := h
    refine fits_named (k := .typeAlias) hname (by simp [Plain]) ?_
    refine fits_mark (o := .assign) (by decide) ?_
    exact fits_tight htype starts_of_isAliased IsAliased.getLast? .nil
  | node hosts parent body =>
    obtain ⟨-, hhosts, hparent, hbody⟩ := h
    refine fits_token (isToken_keyword .node) (by simp [Plain]) fun t hkind hvalue => ?_
    have hopens : opens [t] = true := by
      simp [opens, Token.endsOperand, List.mem_singleton.1 hkind, hvalue,
        Token.operandNames]
    rw [hopens]
    refine (fits_commaList fun host hhost => fits_host (hhosts host hhost)).join ?_
    exact (fits_parent hparent).join (fits_body hbody)

theorem fits_all {tasks : Bool} {ds : List (Definition String)} (h : ∀ d ∈ ds, WellFormed tasks d) :
    Fits false ((ds.flatMap pieces).map String.toList) := by
  induction ds with
  | nil => exact .nil
  | cons d ds ih =>
    rw [List.flatMap_cons]
    exact (fits_definition (h d (by simp))).join (ih fun e he => h e (by simp [he]))

/-! ## The text that is printed -/

theorem pieces_ne_nil (d : Definition String) : pieces d ≠ [] := by
  cases d <;> exact List.cons_ne_nil _ _

theorem toList_print (d : Definition String) :
    (print d).toList = joined ((pieces d).map String.toList) := by
  rw [print, String.toList_intercalate]
  rfl

theorem toList_printAll (ds : List (Definition String)) :
    (printAll ds).toList = joined ((ds.flatMap pieces).map String.toList) := by
  have hall : printAll ds = "\n".intercalate (ds.flatMap pieces) := by
    induction ds with
    | nil => rfl
    | cons d ds ih =>
      rw [printAll, List.map_cons, List.flatMap_cons]
      cases ds with
      | nil => simp [print]
      | cons e es =>
        have hne : (e :: es).flatMap pieces ≠ [] := by simp [pieces_ne_nil]
        rw [String.intercalate_append_of_ne_nil (pieces_ne_nil d) hne, ← ih]
        simp [printAll, print]
  rw [hall, String.toList_intercalate]
  rfl

end ManifestDocs.Printing
