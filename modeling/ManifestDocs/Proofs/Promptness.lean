/-
Readings fail at the right token. A reading is prompt if the tokens before the one it fails at could
go on to be what it reads, and if neither its results nor its failures depend on what comes after
the next token. Every reading of the grammar is prompt: `PromptAt` is closed under doing one reading
after the other (`PromptAt.bind`), so that only the single steps have to be looked at. At each of
them something is named that the tokens could go on with.
-/
import ManifestDocs.Proofs.Fusion

namespace ManifestDocs.Grammar

section PromptAt

variable {α β : Type}

/-- The reading `f` of what `R` describes is prompt at the tokens `ts`. -/
structure PromptAt (R : List Token → α → Prop)
    (f : List Token → Except Rejected (α × List Token)) (ts : List Token) : Prop where
  /-- What is read does not depend on what comes after the next token. -/
  ok : ∀ {a rest}, f ts = .ok (a, rest) → ∃ passed, ts = passed ++ rest ∧ R passed a ∧
    ∀ rest', rest'.head? = rest.head? → f (passed ++ rest') = .ok (a, rest')
  /-- The tokens before the one that does not fit could go on, and it does not fit whatever comes
  after it. -/
  error : ∀ {rejected}, f ts = .error rejected → ∃ before, ts = before ++ rejected ∧
    (∃ more a, R (before ++ more) a) ∧
    ∀ rejected', rejected'.head? = rejected.head? → f (before ++ rejected') = .error rejected'

theorem head?_append_congr {ts us us' : List Token} (h : us'.head? = us.head?) :
    (ts ++ us').head? = (ts ++ us).head? := by
  rw [List.head?_append, List.head?_append, h]

theorem forall_head?_cons {p : List Token → Prop} {t : Token} {ts : List Token}
    (h : ∀ us, p (t :: us)) (us : List Token) (hus : us.head? = (t :: ts).head?) : p us := by
  cases us with
  | nil => cases hus
  | cons u us =>
    cases hus
    exact h us

theorem forall_head?_nil {p : List Token → Prop} (h : p []) (us : List Token)
    (hus : us.head? = ([] : List Token).head?) : p us := by
  rw [List.head?_eq_none_iff.1 hus]
  exact h

variable {R : List Token → α → Prop} {T : List Token → β → Prop}
  {f g : List Token → Except Rejected (α × List Token)} {ts : List Token}

/-- Nothing is passed. -/
theorem PromptAt.done {a : α} (hR : R [] a) (h : ∀ us, us.head? = ts.head? → f us = .ok (a, us)) :
    PromptAt R f ts where
  ok he := by
    rw [h ts rfl] at he
    cases he
    exact ⟨[], rfl, hR, h⟩
  error he := by
    rw [h ts rfl] at he
    cases he

/-- The first token does not fit. -/
theorem PromptAt.fail (hR : ∃ more a, R more a)
    (h : ∀ us, us.head? = ts.head? → f us = .error us) : PromptAt R f ts where
  ok he := by
    rw [h ts rfl] at he
    cases he
  error he := by
    rw [h ts rfl] at he
    cases he
    exact ⟨[], rfl, hR, h⟩

/-- The first token is passed. -/
theorem PromptAt.cons {t : Token}
    (h : PromptAt (fun us => R (t :: us)) (fun us => f (t :: us)) ts) : PromptAt R f (t :: ts) where
  ok he := by
    obtain ⟨passed, rfl, hR, hsame⟩ := h.ok he
    exact ⟨t :: passed, rfl, hR, hsame⟩
  error he := by
    obtain ⟨before, rfl, hmore, hsame⟩ := h.error he
    exact ⟨t :: before, rfl, hmore, hsame⟩

/-- Only tokens with the same first one are looked at. -/
theorem PromptAt.congr (h : PromptAt R g ts) (hfg : ∀ us, us.head? = ts.head? → f us = g us) :
    PromptAt R f ts where
  ok he := by
    rw [hfg ts rfl] at he
    obtain ⟨passed, rfl, hR, hsame⟩ := h.ok he
    refine ⟨passed, rfl, hR, fun rest' hrest => ?_⟩
    rw [hfg _ (head?_append_congr hrest), hsame rest' hrest]
  error he := by
    rw [hfg ts rfl] at he
    obtain ⟨before, rfl, hmore, hsame⟩ := h.error he
    refine ⟨before, rfl, hmore, fun rejected' hrejected => ?_⟩
    rw [hfg _ (head?_append_congr hrejected), hsame rejected' hrejected]

/-- **One reading after the other** is prompt, if what the first has read can always go on. -/
theorem PromptAt.bind {k : α × List Token → Except Rejected (β × List Token)}
    (hf : PromptAt R f ts) (hfirst : ∀ us a, R us a → ∃ more b, T (us ++ more) b)
    (hk : ∀ a passed rest, ts = passed ++ rest → f ts = .ok (a, rest) → R passed a →
      PromptAt (fun us => T (passed ++ us)) (fun us => k (a, us)) rest) :
    PromptAt T (fun us => f us >>= k) ts where
  ok := by
    intro b rest he
    obtain ⟨⟨a, rest₁⟩, hread, he⟩ := bind_eq_ok he
    obtain ⟨passed, hts, hR, hsame⟩ := hf.ok hread
    obtain ⟨passed', rfl, hT, hsame'⟩ := (hk a passed rest₁ hts hread hR).ok he
    refine ⟨passed ++ passed', by rw [hts, List.append_assoc], hT, fun rest' hrest => ?_⟩
    show f (passed ++ passed' ++ rest') >>= k = _
    rw [List.append_assoc, hsame _ (head?_append_congr hrest)]
    exact hsame' rest' hrest
  error := by
    intro rejected he
    rcases bind_eq_error he with hread | ⟨⟨a, rest₁⟩, hread, he⟩
    · obtain ⟨before, hts, ⟨more, a, hR⟩, hsame⟩ := hf.error hread
      obtain ⟨more', b, hT⟩ := hfirst _ a hR
      refine ⟨before, hts, ⟨more ++ more', b, by rwa [← List.append_assoc]⟩, fun rejected' h => ?_⟩
      show f (before ++ rejected') >>= k = _
      rw [hsame _ h]
      rfl
    · obtain ⟨passed, hts, hR, hsame⟩ := hf.ok hread
      obtain ⟨before, rfl, ⟨more, b, hT⟩, hsame'⟩ := (hk a passed rest₁ hts hread hR).error he
      refine ⟨passed ++ before, by rw [hts, List.append_assoc],
        ⟨more, b, by rwa [List.append_assoc]⟩, fun rejected' h => ?_⟩
      show f (passed ++ before ++ rejected') >>= k = _
      rw [List.append_assoc, hsame _ (head?_append_congr h)]
      exact hsame' rejected' h

/-- A reading whose result is put into another form. -/
theorem PromptAt.map (hf : PromptAt R f ts) (h : α → β) (hT : ∀ us a, R us a → T us (h a)) :
    PromptAt T (fun us => f us >>= fun r => .ok (h r.1, r.2)) ts := by
  refine hf.bind (fun us a ha => ⟨[], h a, by simpa using hT us a ha⟩) ?_
  intro a passed rest _ _ ha
  exact .done (by simpa using hT passed a ha) fun us _ => rfl

end PromptAt

/-! ## What tokens can go on with -/

/-- A token of a kind. -/
def mark (kind : Token.Kind) : Token :=
  ⟨kind, "", ⟨0, 0, 0⟩, 0⟩

/-- The brackets that close those that are open. -/
def closers (opened : List Bracket) : List Token :=
  opened.map fun b => mark (closing b)

theorem nestAll?_closers (opened : List Bracket) : nestAll? opened (closers opened) = some [] := by
  induction opened with
  | nil => rfl
  | cons b outer ih => simpa [closers, mark] using ih

theorem balanced_closers {ts : List Token} {opened : List Bracket}
    (h : nestAll? [] ts = some opened) : Balanced (ts ++ closers opened) := by
  rw [balanced_iff_nestAll?, nestAll?_append, h, Option.bind_some, nestAll?_closers]

/-- No point before a closing bracket is outside brackets. -/
theorem NoStop.closers {stop : List Token → Bool} {ts : List Token} {opened : List Bracket}
    (h : nestAll? [] ts = some opened) (hno : NoStop stop ts (closers opened)) :
    NoStop stop (ts ++ closers opened) [] := by
  intro before t after he hbefore
  have hbalanced := he ▸ balanced_closers h
  rw [List.append_nil]
  rcases append_eq_append_cons he with ⟨back, rfl, rfl⟩ | ⟨front, rfl, hfront⟩
  · exact hno before t back rfl hbefore
  · have hmem : t ∈ Grammar.closers opened := by simp [hfront]
    obtain ⟨b, -, rfl⟩ := List.mem_map.1 hmem
    exact absurd rfl (hbefore.kind_ne_closing hbalanced b)

/-- An empty body. -/
def braces : List Token :=
  [mark (opening .curly), mark (closing .curly)]

theorem isBlock_braces : ∃ r, IsBlock braces r :=
  ⟨_, .mk (@IsBracketed.mk .curly (mark (opening .curly)) (mark (closing .curly)) [] rfl .nil rfl)⟩

/-! ## Single tokens and balanced stretches -/

theorem expect_prompt (kind : Token.Kind) (ts : List Token) :
    PromptAt (fun us (t : Token) => us = [t] ∧ t.kind = kind) (expect kind) ts := by
  have hmark : ∃ more, ∃ t : Token, more = [t] ∧ t.kind = kind := ⟨_, mark kind, rfl, rfl⟩
  cases ts with
  | nil => exact .fail hmark (forall_head?_nil rfl)
  | cons t ts =>
    by_cases hkind : t.kind = kind
    · exact .cons (.done ⟨rfl, hkind⟩ fun us _ => expect_cons hkind us)
    · exact .fail hmark (forall_head?_cons fun us => if_neg hkind)

theorem expectValue_prompt {kinds : List Token.Kind} {kind : Token.Kind} (hkind : kind ∈ kinds)
    (ts : List Token) : PromptAt (IsOneOf kinds) (expectValue kinds) ts := by
  have hmark : ∃ more v, IsOneOf kinds more v := ⟨_, _, .mk (t := mark kind) hkind⟩
  cases ts with
  | nil => exact .fail hmark (forall_head?_nil rfl)
  | cons t ts =>
    by_cases ht : t.kind ∈ kinds
    · exact .cons (.done (.mk ht) fun us _ => if_pos (by simpa using ht))
    · exact .fail hmark (forall_head?_cons fun us => if_neg (by simpa using ht))

/-- An optional part is prompt if the part is: the next token tells whether there is one. -/
theorem optionalAfter_prompt {α : Type} {announces : Token → Bool}
    {part : List Token → Except Rejected (α × List Token)} {Q R : List Token → α → Prop}
    (hpart : ∀ ts, PromptAt Q part ts)
    (hR : ∀ {t : Token} {us : List Token} {a : α}, announces t = true → Q us a → R (t :: us) a)
    (ts : List Token) : PromptAt (Maybe R) (optionalAfter announces part) ts := by
  cases ts with
  | nil => exact .done .none (forall_head?_nil rfl)
  | cons t ts =>
    by_cases ht : announces t = true
    · have hread := (hpart ts).map (T := fun us => Maybe R (t :: us)) some fun us a h =>
        .some (hR ht h)
      exact .cons (hread.congr fun us _ => if_pos ht)
    · exact .done .none (forall_head?_cons fun us => if_neg ht)

theorem NoStop.of_head? {stop : List Token → Bool} {passed rest : List Token}
    (h : NoStop stop passed rest)
    (hstop : ∀ {us vs : List Token}, us.head? = vs.head? → stop us = stop vs) (rest' : List Token) :
    NoStop stop passed rest' := by
  intro before t after he hbefore
  rw [← h before t after he hbefore]
  exact hstop rfl

/-- A stretch that goes up to a token of some kinds is prompt, since one look at the next token tells
whether it ends there. -/
theorem passBalanced_prompt {stop : List Token → Bool}
    (hstop : ∀ {us vs : List Token}, us.head? = vs.head? → stop us = stop vs) (ts : List Token) :
    PromptAt (fun us passed => us = passed ∧ Balanced passed ∧ NoStop stop passed [])
      (passBalanced stop []) ts where
  ok := by
    intro passed rest h
    obtain ⟨hts, hbalanced, hno, hends⟩ := passBalanced_eq_ok.1 h
    refine ⟨passed, hts, ⟨rfl, hbalanced, hno.of_head? hstop []⟩, fun rest' hrest => ?_⟩
    refine passBalanced_eq_ok.2 ⟨rfl, hbalanced, hno.of_head? hstop rest', ?_⟩
    refine hends.imp (fun hnil => ?_) fun hends => (hstop hrest).trans hends
    rwa [hnil, List.head?_nil, List.head?_eq_none_iff] at hrest
  error := by
    intro rejected h
    obtain ⟨before, opened, hts, hnest, hno, hstuck⟩ := passBalanced_eq_error.1 h
    have hno : NoStop stop before rejected := fun before' t after he hbefore =>
      hno before' t after he (balanced_iff_nestAll?.1 hbefore)
    refine ⟨before, hts, ⟨closers opened, _, rfl, balanced_closers hnest,
      (hno.of_head? hstop _).closers hnest⟩, fun rejected' hrejected => ?_⟩
    refine passBalanced_eq_error.2 ⟨before, opened, rfl, hnest, ?_, ?_⟩
    · intro before' t after he hbefore
      exact hno.of_head? hstop rejected' before' t after he (balanced_iff_nestAll?.2 hbefore)
    · cases hstuck with
      | ended hopened =>
        rw [List.head?_eq_none_iff.1 hrejected]
        exact .ended hopened
      | @unclosed t ts hnone hnot =>
        refine forall_head?_cons (fun us => .unclosed hnone fun hnil => ?_) rejected' hrejected
        rw [← hnot hnil]
        exact hstop rfl

/-! ## Brackets -/

/-- A pair of brackets, from its first token on. -/
theorem bracketed_prompt {b : Bracket} {first : Token} (hfirst : first.kind = opening b)
    (ts : List Token) :
    PromptAt (fun us r => IsBracketed b (first :: us) r ∧ r.1 = first)
      (fun us => bracketed b (first :: us)) ts := by
  have hclosed : ∀ {inner}, Balanced inner →
      IsBracketed b (first :: (inner ++ [mark (closing b)])) (first, mark (closing b)) :=
    fun hinner => .mk hfirst hinner rfl
  have hread : PromptAt (fun us r => IsBracketed b (first :: us) r ∧ r.1 = first)
      (fun us => passBalanced (startsWith (closing b)) [] us >>= fun r =>
        expect (closing b) r.2 >>= fun q => .ok ((first, q.1), q.2)) ts := by
    refine (passBalanced_prompt startsWith_head? ts).bind ?_ ?_
    · rintro inner _ ⟨rfl, hinner, -⟩
      exact ⟨_, _, hclosed hinner, rfl⟩
    · rintro inner _ rest - - ⟨rfl, hinner, -⟩
      refine (expect_prompt (closing b) rest).map (fun last => (first, last)) ?_
      rintro _ last ⟨rfl, hlast⟩
      exact ⟨.mk hfirst hinner hlast, rfl⟩
  refine hread.congr fun us _ => ?_
  rw [bracketed, expect_cons hfirst]
  rfl

theorem block_prompt (ts : List Token) : PromptAt IsBlock block ts := by
  cases ts with
  | nil => exact .fail ⟨_, isBlock_braces⟩ (forall_head?_nil rfl)
  | cons t ts =>
    by_cases hkind : t.kind = opening .curly
    · refine .cons ((bracketed_prompt hkind ts).map
        (fun r => (Span.mk r.1.stop r.2.start.offset, r.2)) ?_)
      rintro us ⟨first, last⟩ ⟨h, -⟩
      exact .mk h
    · refine .fail ⟨_, isBlock_braces⟩ (forall_head?_cons fun us => ?_)
      rw [block, bracketed, expect, if_neg hkind]
      rfl

/-! ## Types -/

theorem typeArguments_prompt {head : Token} (hhead : head.kind = .typeName) (ts : List Token) :
    PromptAt (fun us last => IsType (head :: us) (spanOf head last)) (typeArguments head) ts := by
  cases ts with
  | nil => exact .done (.bare hhead) (forall_head?_nil rfl)
  | cons t ts =>
    by_cases hfollow : t.kind = opening .square ∧ t.start.offset = head.stop
    · have htype : ∀ us (r : Token × Token), IsBracketed .square (t :: us) r ∧ r.1 = t →
          IsType (head :: t :: us) (spanOf head r.2) := by
        rintro us ⟨first, last⟩ ⟨h, rfl⟩
        exact .applied hhead h hfollow.2
      exact .cons (((bracketed_prompt hfollow.1 ts).map Prod.snd htype).congr fun us _ =>
        if_pos hfollow)
    · exact .done (.bare hhead) (forall_head?_cons fun us => if_neg hfollow)

theorem typeExpression_prompt (ts : List Token) : PromptAt IsType typeExpression ts := by
  refine (expect_prompt .typeName ts).bind ?_ ?_
  · rintro _ head ⟨rfl, hhead⟩
    exact ⟨[], _, .bare hhead⟩
  · rintro head _ rest - - ⟨rfl, hhead⟩
    exact (typeArguments_prompt hhead rest).map (spanOf head) fun us last h => h

theorem optionalType_prompt (ts : List Token) : PromptAt (Maybe IsType) optionalType ts := by
  cases hstarts : startsWith .typeName ts with
  | true =>
    refine ((typeExpression_prompt ts).map some fun us s h => Maybe.some h).congr fun us hus => ?_
    exact if_pos ((startsWith_head? hus).trans hstarts)
  | false =>
    refine .done .none fun us hus => ?_
    rw [optionalType, startsWith_head? hus, hstarts]
    rfl

/-- Brackets or braces alone are an alias. -/
theorem aliasedType_prompt_alone {b : Bracket} (hb : b = .curly ∨ b = .square)
    (ts : List Token) (hstarts : startsWith (opening b) ts = true) :
    PromptAt IsAliased (fun us => bracketed b us >>= fun r => .ok (spanOf r.1.1 r.1.2, r.2)) ts := by
  obtain ⟨first, ts, rfl, hfirst⟩ := startsWith_iff.1 hstarts
  refine .cons ((bracketed_prompt hfirst ts).map (fun r => spanOf r.1 r.2) ?_)
  rintro us ⟨first, last⟩ ⟨h, -⟩
  exact .alone hb h

/-- A type, and what may follow it in braces. -/
theorem aliasedType_prompt_type (ts : List Token) :
    PromptAt IsAliased (fun us => expect .typeName us >>= fun r => typeArguments r.1 r.2 >>= fun q =>
      if startsWith (opening .curly) q.2 then
        bracketed .curly q.2 >>= fun p => .ok (spanOf r.1 p.1.2, p.2)
      else .ok (spanOf r.1 q.1, q.2)) ts := by
  refine (expect_prompt .typeName ts).bind ?_ ?_
  · rintro _ head ⟨rfl, hhead⟩
    exact ⟨[], _, .type (.bare hhead)⟩
  rintro head _ rest - - ⟨rfl, hhead⟩
  dsimp only
  refine (typeArguments_prompt hhead rest).bind ?_ ?_
  · intro args last htype
    exact ⟨[], _, .type (by simpa using htype)⟩
  rintro last args rest - - htype
  cases hcurly : startsWith (opening .curly) rest with
  | true =>
    obtain ⟨first, rest, rfl, hfirst⟩ := startsWith_iff.1 hcurly
    have hread : PromptAt (fun us s => IsAliased ([head] ++ (args ++ first :: us)) s)
        (fun us => bracketed .curly (first :: us) >>= fun p => .ok (spanOf head p.1.2, p.2)) rest := by
      refine (bracketed_prompt hfirst rest).map (fun p => spanOf head p.2) ?_
      rintro us ⟨first, last'⟩ ⟨h, -⟩
      exact .braced htype h
    exact .cons (hread.congr fun us _ => if_pos (by simp [hfirst]))
  | false =>
    refine .done (.type (by simpa using htype)) fun us hus => ?_
    rw [startsWith_head? hus, hcurly]
    rfl

theorem aliasedType_prompt (ts : List Token) : PromptAt IsAliased aliasedType ts := by
  cases hcurly : startsWith (opening .curly) ts with
  | true =>
    refine (aliasedType_prompt_alone (.inl rfl) ts hcurly).congr fun us hus => ?_
    exact if_pos ((startsWith_head? hus).trans hcurly)
  | false =>
    cases hsquare : startsWith (opening .square) ts with
    | true =>
      refine (aliasedType_prompt_alone (.inr rfl) ts hsquare).congr fun us hus => ?_
      rw [aliasedType, startsWith_head? hus, hcurly, startsWith_head? hus, hsquare]
      rfl
    | false =>
      refine (aliasedType_prompt_type ts).congr fun us hus => ?_
      rw [aliasedType, startsWith_head? hus, hcurly, startsWith_head? hus, hsquare]
      rfl

/-! ## Parameters -/

theorem endsValue_head? {ts us : List Token} (h : us.head? = ts.head?) :
    endsValue us = endsValue ts := by
  rw [endsValue, endsValue, startsWith_head? h, startsWith_head? h]

theorem defaultValue_prompt (ts : List Token) : PromptAt IsValue defaultValue ts := by
  have hvariable : IsValue [mark .variable] (spanOf (mark .variable) (mark .variable)) := by
    refine .mk (Balanced.nil.plain (by simp [mark, opening]) (by simp [mark, closing])) ?_
    intro before t after he _
    have hmem : t ∈ [mark .variable] := by rw [he]; simp
    simp [List.mem_singleton.1 hmem, mark]
  have hpassed : ∀ {first passed}, Balanced (first :: passed) →
      NoStop endsValue (first :: passed) [] →
      IsValue (first :: passed) (spanOf first (passed.getLast?.getD first)) := by
    refine fun hbalanced hno => .mk hbalanced fun before t after he hbefore hcomma => ?_
    have hnot := hno before t after he hbefore
    rw [endsValue_iff.2 (.inl hcomma)] at hnot
    cases hnot
  have hread : PromptAt IsValue (fun us => passBalanced endsValue [] us >>= fun r =>
      r.1.head?.elim (.error r.2) fun first =>
        .ok (spanOf first (r.1.tail.getLast?.getD first), r.2)) ts := by
    refine (passBalanced_prompt endsValue_head? ts).bind ?_ ?_
    · rintro passed _ ⟨rfl, hbalanced, hno⟩
      cases passed with
      | nil => exact ⟨_, _, hvariable⟩
      | cons first passed => exact ⟨[], _, by simpa using hpassed hbalanced hno⟩
    · rintro _ passed rest - - ⟨rfl, hbalanced, hno⟩
      cases passed with
      | nil => exact .fail ⟨_, _, hvariable⟩ fun us _ => rfl
      | cons first passed => exact .done (by simpa using hpassed hbalanced hno) fun us _ => rfl
  refine hread.congr fun us _ => ?_
  rw [defaultValue]
  cases passBalanced endsValue [] us with
  | error rejected => rfl
  | ok r =>
    obtain ⟨passed, rest⟩ := r
    cases passed <;> rfl

theorem optionalValue_prompt (ts : List Token) : PromptAt (Maybe IsAssigned) optionalValue ts :=
  optionalAfter_prompt defaultValue_prompt (fun h => .mk (beq_iff_eq.1 h)) ts

theorem optionalStar_prompt (ts : List Token) :
    PromptAt IsStar (fun us => .ok (optionalStar us)) ts := by
  cases ts with
  | nil => exact .done .none (forall_head?_nil rfl)
  | cons t ts =>
    by_cases hstar : t.kind = .operator .star
    · exact .cons (.done (.some hstar) fun us _ => congrArg Except.ok (if_pos hstar))
    · exact .done .none (forall_head?_cons fun us => congrArg Except.ok (if_neg hstar))

theorem parameter_prompt (ts : List Token) : PromptAt IsParameter parameter ts := by
  refine (optionalType_prompt ts).bind ?_ ?_
  · intro types type htype
    exact ⟨_, _, .mk htype .none (show (mark .variable).kind = _ from rfl) .none⟩
  rintro type types rest - - htype
  refine (optionalStar_prompt rest).bind (k := fun r => expect .variable r.2 >>= fun q =>
    optionalValue q.2 >>= fun p =>
      .ok (Parameter.mk (String.ofList q.1.value.toList.tail) type p.1 r.1, p.2)) ?_ ?_
  · intro stars star hstar
    exact ⟨_, _, .mk htype hstar (show (mark .variable).kind = _ from rfl) .none⟩
  rintro star stars rest - - hstar
  dsimp only
  refine (expect_prompt .variable rest).bind ?_ ?_
  · rintro _ name ⟨rfl, hname⟩
    exact ⟨[], _, .mk htype hstar hname .none⟩
  rintro name _ rest - - ⟨rfl, hname⟩
  exact (optionalValue_prompt rest).map
    (Parameter.mk (String.ofList name.value.toList.tail) type · star) fun us value hvalue =>
      .mk htype hstar hname hvalue

/-- The parameters up to and with the closing parenthesis. -/
def IsParameterRest (ts : List Token) (ps : List (Parameter Span)) : Prop :=
  ∃ inner last, ts = inner ++ [last] ∧ IsParameterList inner ps ∧ last.kind = closing .round

theorem IsParameterList.rest {ts : List Token} {ps : List (Parameter Span)}
    (h : IsParameterList ts ps) : IsParameterRest (ts ++ [mark (closing .round)]) ps :=
  ⟨ts, _, rfl, h, rfl⟩

theorem parameters_prompt (ts : List Token) : PromptAt IsParameterRest parameters ts := by
  cases hstarts : startsWith (closing .round) ts with
  | true =>
    obtain ⟨last, ts, rfl, hlast⟩ := startsWith_iff.1 hstarts
    refine .cons (.done ⟨[], last, rfl, .empty, hlast⟩ fun us _ => ?_)
    rw [parameters_eq, if_pos (by simp [hlast])]
    rfl
  | false =>
    refine PromptAt.congr ?_ fun us hus => by
      rw [parameters_eq, if_neg (by rw [startsWith_head? hus, hstarts]; decide)]
    refine (parameter_prompt ts).bind ?_ ?_
    · intro passed p hp
      exact ⟨_, _, (IsParameterList.listed (.one hp)).rest⟩
    rintro p passed rest - hread hp
    have hlength := parameter_length hread
    cases hclosing : startsWith (closing .round) rest with
    | true =>
      obtain ⟨last, rest, rfl, hlast⟩ := startsWith_iff.1 hclosing
      refine .cons (.done ⟨passed, last, rfl, .listed (.one hp), hlast⟩ fun us _ => ?_)
      exact if_pos (by simp [hlast])
    | false =>
      cases hcomma : startsWith (.operator .comma) rest with
      | true =>
        obtain ⟨c, rest, rfl, hc⟩ := startsWith_iff.1 hcomma
        have hmore : PromptAt (fun us => IsParameterRest (passed ++ c :: us))
            (fun us => parameters us >>= fun q => .ok (p :: q.1, q.2)) rest := by
          refine (parameters_prompt rest).map (fun ps => p :: ps) ?_
          rintro _ ps ⟨inner, last, rfl, hinner, hlast⟩
          exact ⟨passed ++ c :: inner, last, by simp, .cons hp hc hinner, hlast⟩
        refine .cons (hmore.congr fun us _ => ?_)
        simp [hc, closing]
      | false =>
        refine .fail ⟨_, _, (IsParameterList.listed (.one hp)).rest⟩ fun us hus => ?_
        simp only [startsWith_head? hus, hclosing, hcomma]
        rfl
termination_by ts.length
decreasing_by
  simp only [List.length_cons] at hlength
  omega

theorem optionalParameters_prompt (ts : List Token) :
    PromptAt IsParameters optionalParameters ts := by
  cases ts with
  | nil => exact .done .absent (forall_head?_nil rfl)
  | cons t ts =>
    by_cases hround : t.kind = opening .round
    · have hread := (parameters_prompt ts).map (T := fun us => IsParameters (t :: us)) id fun us ps => by
        rintro ⟨inner, last, rfl, hinner, hlast⟩
        exact .present hround hinner hlast
      refine .cons (hread.congr fun us _ => ?_)
      rw [optionalParameters, if_pos hround]
      cases parameters us <;> rfl
    · exact .done .absent (forall_head?_cons fun us => if_neg hround)

/-! ## Hosts, parents and return types -/

/-- Hosts with commas between them, and perhaps one after them. -/
inductive IsHostList : List Token → List String → Prop
  | listed {ts : List Token} {hs : List String} (h : CommaList (IsOneOf hostKinds) ts hs) :
      IsHostList ts hs
  | trailing {ts : List Token} {c : Token} {hs : List String}
      (h : CommaList (IsOneOf hostKinds) ts hs) (comma : c.kind = .operator .comma) :
      IsHostList (ts ++ [c]) hs

theorem IsHostList.cons {host c : Token} {ts : List Token} {hs : List String}
    (hhost : host.kind ∈ hostKinds) (comma : c.kind = .operator .comma) (h : IsHostList ts hs) :
    IsHostList (host :: c :: ts) (host.value :: hs) := by
  cases h with
  | listed h => exact .listed (.cons (.mk hhost) comma h)
  | @trailing ts c' hs h comma' => exact .trailing (.cons (.mk hhost) comma h) comma'

theorem IsHostList.isHosts {ts : List Token} {hs : List String} (h : IsHostList ts hs) :
    IsHosts ts hs none := by
  cases h with
  | listed h =>
    have hhosts := IsHosts.listed h .none
    rwa [List.append_nil] at hhosts
  | trailing h comma => exact .trailing h comma

/-- The hosts of a node, from the first on. -/
theorem hosts_prompt {host : Token} (hhost : host.kind ∈ hostKinds) (ts : List Token) :
    PromptAt (fun us => IsHostList (host :: us)) (fun us => hosts (host :: us)) ts := by
  have hone : IsHostList [host] [host.value] := .listed (.one (.mk hhost))
  have hcons : ∀ us, hosts (host :: us) =
      if startsWith (.operator .comma) us then
        if startsWith (opening .curly) us.tail then .ok ([host.value], us.tail)
        else hosts us.tail >>= fun q => .ok (host.value :: q.1, q.2)
      else .ok ([host.value], us) := by
    intro us
    rw [hosts_eq, expectValue, if_pos (by simpa using hhost)]
    rfl
  cases hcomma : startsWith (.operator .comma) ts with
  | false =>
    refine .done hone fun us hus => ?_
    rw [hcons, startsWith_head? hus, hcomma]
    rfl
  | true =>
    obtain ⟨c, ts, rfl, hc⟩ := startsWith_iff.1 hcomma
    refine .cons (PromptAt.congr ?_ fun us _ => (hcons (c :: us)).trans (if_pos (by simp [hc])))
    cases hcurly : startsWith (opening .curly) ts with
    | true =>
      refine .done (.trailing (.one (.mk hhost)) hc) fun us hus => ?_
      exact if_pos ((startsWith_head? hus).trans hcurly)
    | false =>
      refine PromptAt.congr ?_ fun us hus =>
        if_neg (by rw [List.tail_cons, startsWith_head? hus, hcurly]; decide)
      have hmore : ∃ more hs, IsHostList (host :: c :: more) hs :=
        ⟨_, _, .trailing (.one (.mk hhost)) hc⟩
      cases ts with
      | nil => exact .fail hmore (forall_head?_nil rfl)
      | cons t ts =>
        by_cases hkind : t.kind ∈ hostKinds
        · exact .cons ((hosts_prompt hkind ts).map (host.value :: ·) fun us hs h => .cons hhost hc h)
        · refine .fail hmore (forall_head?_cons fun us => ?_)
          rw [List.tail_cons, hosts_eq, expectValue, if_neg (by simpa using hkind)]
          rfl
termination_by ts.length

theorem optionalParent_prompt {kinds : List Token.Kind} {kind : Token.Kind} (hkind : kind ∈ kinds)
    (ts : List Token) : PromptAt (Maybe (IsParent kinds)) (optionalParent kinds) ts :=
  optionalAfter_prompt (expectValue_prompt hkind) .mk ts

theorem optionalReturn_prompt (ts : List Token) : PromptAt (Maybe IsReturn) optionalReturn ts :=
  optionalAfter_prompt typeExpression_prompt (fun h => .mk (beq_iff_eq.1 h)) ts

/-! ## Definitions -/

variable {tasks : Bool} {k : Token}

section Named

variable {name : Token} (hname : name.kind = .name) (ts : List Token)

include hname

omit hname in
/-- Parameters, one more part and a body. -/
theorem parameters_part_block_prompt {γ : Type} {Q : List Token → Option γ → Prop}
    {part : List Token → Except Rejected (Option γ × List Token)}
    (hpart : ∀ us, PromptAt Q part us) (hnone : Q [] none)
    {d : List (Parameter Span) → Option γ → Span → Definition Span}
    (hd : ∀ {ps us bs parameters a body last}, IsParameters ps parameters → Q us a →
      IsBlock bs (body, last) →
      IsDefinition tasks (k :: name :: (ps ++ (us ++ bs))) [] (d parameters a body, last.stop)) :
    PromptAt (fun us => IsDefinition tasks (k :: name :: us) [])
      (fun us => optionalParameters us >>= fun r => part r.2 >>= fun q => block q.2 >>= fun p =>
        .ok ((d r.1 q.1 p.1.1, p.1.2.stop), p.2)) ts := by
  obtain ⟨⟨body, last⟩, hbraces⟩ := isBlock_braces
  refine (optionalParameters_prompt ts).bind ?_ ?_
  · intro ps parameters hps
    exact ⟨_, _, hd hps hnone hbraces⟩
  rintro parameters ps rest - - hps
  dsimp only
  refine (hpart rest).bind ?_ ?_
  · intro us a ha
    exact ⟨_, _, hd hps ha hbraces⟩
  rintro a us rest - - ha
  exact (block_prompt rest).map (fun r => (d parameters a r.1, r.2.stop)) fun bs r hbody =>
    hd hps ha hbody

theorem hostClass_prompt (hk : k.isName "class" = true) :
    PromptAt (fun us => IsDefinition tasks (k :: name :: us) [])
      (fun us => definition .hostClass (name :: us)) ts := by
  refine (parameters_part_block_prompt ts (optionalParent_prompt (List.mem_cons_self ..)) .none
    (.hostClass hk hname)).congr fun us _ => ?_
  rw [definition, expect_cons hname]
  rfl

theorem function_prompt (hk : k.isName "function" = true) :
    PromptAt (fun us => IsDefinition tasks (k :: name :: us) [])
      (fun us => definition .function (name :: us)) ts := by
  refine (parameters_part_block_prompt ts optionalReturn_prompt .none
    (.function hk hname)).congr fun us _ => ?_
  rw [definition, expect_cons hname]
  rfl

omit hname in
/-- Defined types and plans: parameters and a body. -/
theorem parameters_block_prompt {d : List (Parameter Span) → Span → Definition Span}
    (hd : ∀ {ps bs parameters body last}, IsParameters ps parameters → IsBlock bs (body, last) →
      IsDefinition tasks (k :: name :: (ps ++ bs)) [] (d parameters body, last.stop)) :
    PromptAt (fun us => IsDefinition tasks (k :: name :: us) [])
      (fun us => optionalParameters us >>= fun r => block r.2 >>= fun q =>
        .ok ((d r.1 q.1.1, q.1.2.stop), q.2)) ts := by
  obtain ⟨⟨body, last⟩, hbraces⟩ := isBlock_braces
  refine (optionalParameters_prompt ts).bind ?_ ?_
  · intro ps parameters hps
    exact ⟨_, _, hd hps hbraces⟩
  rintro parameters ps rest - - hps
  exact (block_prompt rest).map (fun r => (d parameters r.1, r.2.stop)) fun bs r hbody =>
    hd hps hbody

theorem definedType_prompt (hk : k.isName "define" = true) :
    PromptAt (fun us => IsDefinition tasks (k :: name :: us) [])
      (fun us => definition .definedType (name :: us)) ts := by
  refine (parameters_block_prompt ts (.definedType hk hname)).congr fun us _ => ?_
  rw [definition, expect_cons hname]
  rfl

theorem plan_prompt (hk : k.isName "plan" = true) (htasks : tasks = true) :
    PromptAt (fun us => IsDefinition tasks (k :: name :: us) [])
      (fun us => definition .plan (name :: us)) ts := by
  refine (parameters_block_prompt ts (.plan htasks hk hname)).congr fun us _ => ?_
  rw [definition, expect_cons hname]
  rfl

end Named

theorem typeAlias_prompt {name assign : Token} (hk : k.isName "type" = true)
    (hname : name.kind = .typeName) (hassign : assign.kind = .operator .assign) (ts : List Token) :
    PromptAt (fun us => IsDefinition tasks (k :: name :: assign :: us) [])
      (fun us => definition .typeAlias (name :: assign :: us)) ts := by
  have hread : PromptAt (fun us => IsDefinition tasks (k :: name :: assign :: us) [])
      (fun us => aliasedType us >>= fun r => .ok ((.typeAlias name.value r.1, r.1.stop), r.2)) ts :=
    (aliasedType_prompt ts).map (fun s => (Definition.typeAlias name.value s, s.stop))
      fun us s h => .typeAlias hk hname hassign h (aliasEnds_nil us)
  refine hread.congr fun us _ => ?_
  simp only [definition, expect_cons hname, bind_ok, expect_cons hassign]
  rfl

theorem node_prompt {host : Token} (hk : k.isName "node" = true) (hhost : host.kind ∈ hostKinds)
    (ts : List Token) :
    PromptAt (fun us => IsDefinition tasks (k :: host :: us) [])
      (fun us => definition .node (host :: us)) ts := by
  obtain ⟨⟨body, last⟩, hbraces⟩ := isBlock_braces
  refine (hosts_prompt hhost ts).bind ?_ ?_
  · intro us hs hlist
    exact ⟨_, _, .node hk hlist.isHosts hbraces⟩
  rintro hs passed rest hts hread hhosts
  -- whether a comma was passed after the last host is told by the brace that follows it
  obtain ⟨list, us, he, hlist, hus⟩ := hosts_sound hread
  have hpassed : list ++ us = host :: passed := by
    refine (List.append_left_inj rest).1 ?_
    rw [List.append_assoc, ← he, hts, List.cons_append]
  rcases hus with rfl | ⟨c, rfl, -, hcurly⟩
  · have hnode : ∀ {us bs parent body last}, Maybe (IsParent hostKinds) us parent →
        IsBlock bs (body, last) → IsDefinition tasks (k :: host :: (passed ++ (us ++ bs))) []
          (.node hs parent body, last.stop) := by
      intro us bs parent body last hparent hbody
      have hhosts := IsHosts.listed hlist hparent
      rw [← List.append_nil list, hpassed] at hhosts
      rw [← List.append_assoc]
      exact .node hk hhosts hbody
    refine (optionalParent_prompt (List.mem_cons_self ..) rest).bind ?_ ?_
    · intro us parent hparent
      exact ⟨_, _, hnode hparent hbraces⟩
    rintro parent us rest - - hparent
    exact (block_prompt rest).map (fun r => (Definition.node hs parent r.1, r.2.stop))
      fun bs r hbody => hnode hparent hbody
  · have hbody := (block_prompt rest).map
      (T := fun us => IsDefinition tasks (k :: host :: (passed ++ us)) [])
      (fun r => (Definition.node hs none r.1, r.2.stop)) fun bs r hbody => .node hk hhosts.isHosts hbody
    refine hbody.congr fun us hus => ?_
    have hname : startsWith .name us = false := by
      rw [startsWith_head? hus]
      obtain ⟨t, more, rfl, hkind⟩ := startsWith_iff.1 hcurly
      simp [hkind, opening]
    dsimp only
    rw [← List.nil_append us, optionalParent_complete .none hname]
    rfl

/-! ## Told by the first tokens -/

/-- **A definition is read promptly** from the tokens on that tell it. -/
theorem definition_prompt {t : Token} {ts : List Token} {keyword : Keyword}
    (h : leading? tasks (t :: ts) = some keyword) :
    ∃ told rest, ts = told ++ rest ∧ leading? tasks (t :: told) = some keyword ∧
      PromptAt (fun us => IsDefinition tasks (t :: (told ++ us)) [])
        (fun us => definition keyword (told ++ us)) rest := by
  obtain ⟨hword, htasks⟩ := leading?_isName h
  have htokens := leading?_tokens h
  cases keyword with
  | hostClass =>
    obtain ⟨name, rest, rfl, hname⟩ := htokens
    exact ⟨[name], rest, rfl, leading?_named hword hname (.inl rfl),
      hostClass_prompt hname rest hword⟩
  | definedType =>
    obtain ⟨name, rest, rfl, hname⟩ := htokens
    exact ⟨[name], rest, rfl, leading?_named hword hname (.inr (.inl rfl)),
      definedType_prompt hname rest hword⟩
  | function =>
    obtain ⟨name, rest, rfl, hname⟩ := htokens
    exact ⟨[name], rest, rfl, leading?_named hword hname (.inr (.inr (.inl rfl))),
      function_prompt hname rest hword⟩
  | plan =>
    obtain ⟨name, rest, rfl, hname⟩ := htokens
    exact ⟨[name], rest, rfl,
      leading?_named hword hname (.inr (.inr (.inr ⟨rfl, htasks rfl⟩))),
      plan_prompt hname rest hword (htasks rfl)⟩
  | typeAlias =>
    obtain ⟨name, assign, rest, rfl, hname, hassign⟩ := htokens
    exact ⟨[name, assign], rest, rfl, leading?_typeAlias hword hname hassign,
      typeAlias_prompt hword hname hassign rest⟩
  | node =>
    obtain ⟨host, rest, rfl, hhost⟩ := htokens
    exact ⟨[host], rest, rfl, leading?_node hword hhost, node_prompt hword hhost rest⟩

end ManifestDocs.Grammar
