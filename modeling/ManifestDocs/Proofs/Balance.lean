/-
Balanced token lists, and what a balanced stretch of tokens is. A point of a token list is outside
all brackets if the tokens before it are balanced; `passBalanced` goes to the first such point where
its test holds, and `passBalanced_eq_ok` says so without the stack of open brackets it keeps.
-/
import ManifestDocs.Manifest.Grammar

namespace ManifestDocs.Grammar

/-- Token lists in which every bracket is closed by its own kind, in the right order. -/
inductive Balanced : List Token → Prop
  | nil : Balanced []
  | plain {t : Token} {ts : List Token} (notOpening : ∀ b, t.kind ≠ opening b)
      (notClosing : ∀ b, t.kind ≠ closing b) (more : Balanced ts) : Balanced (t :: ts)
  | group {b : Bracket} {first last : Token} {inner ts : List Token}
      (hfirst : first.kind = opening b) (hinner : Balanced inner) (hlast : last.kind = closing b)
      (more : Balanced ts) : Balanced (first :: (inner ++ last :: ts))

/-- The brackets open after all of `ts`, innermost first, if those of `inside` are open before. -/
def nestAll? (inside : List Bracket) (ts : List Token) : Option (List Bracket) :=
  ts.foldlM (fun inside t => nest? inside t.kind) inside

@[simp] theorem nestAll?_nil (inside : List Bracket) : nestAll? inside [] = some inside := rfl

@[simp] theorem nestAll?_cons (inside : List Bracket) (t : Token) (ts : List Token) :
    nestAll? inside (t :: ts) = (nest? inside t.kind).bind (nestAll? · ts) := by
  simp only [nestAll?, List.foldlM_cons]
  rfl

theorem nestAll?_append (inside : List Bracket) (ts us : List Token) :
    nestAll? inside (ts ++ us) = (nestAll? inside ts).bind (nestAll? · us) := by
  simp only [nestAll?, List.foldlM_append]
  rfl

/-! ## One token -/

@[simp] theorem nest?_opening (inside : List Bracket) (b : Bracket) :
    nest? inside (opening b) = some (b :: inside) := rfl

@[simp] theorem nest?_closing_cons (b : Bracket) (outer : List Bracket) :
    nest? (b :: outer) (closing b) = some outer := by
  simp [nest?, closing]

@[simp] theorem nest?_closing_nil (b : Bracket) : nest? [] (closing b) = none := rfl

theorem nest?_plain {kind : Token.Kind} (notOpening : ∀ b, kind ≠ opening b)
    (notClosing : ∀ b, kind ≠ closing b) (inside : List Bracket) :
    nest? inside kind = some inside := by
  cases kind with
  | operator o =>
    cases o with
    | opening b => exact absurd rfl (notOpening b)
    | closing b => exact absurd rfl (notClosing b)
    | _ => rfl
  | _ => rfl

/-- What one token does to the open brackets. -/
theorem nest?_cases {inside after : List Bracket} {kind : Token.Kind}
    (h : nest? inside kind = some after) :
    (∃ b, kind = opening b ∧ after = b :: inside) ∨ (∃ b, kind = closing b ∧ inside = b :: after) ∨
      ((∀ b, kind ≠ opening b) ∧ (∀ b, kind ≠ closing b) ∧ after = inside) := by
  unfold nest? at h
  split at h
  · next b => cases h; exact .inl ⟨b, rfl, rfl⟩
  · next b =>
    split at h
    · next b' outer =>
      split at h
      · next hb => cases h; cases hb; exact .inr (.inl ⟨b, rfl, rfl⟩)
      · cases h
    · cases h
  · next hopening hclosing =>
    cases h
    exact .inr (.inr ⟨fun b hb => hopening b hb, fun b hb => hclosing b hb, rfl⟩)

/-! ## Balanced lists leave no bracket open -/

theorem Balanced.nestAll? {ts : List Token} (h : Balanced ts) (inside : List Bracket) :
    nestAll? inside ts = some inside := by
  induction h generalizing inside with
  | nil => rfl
  | plain hopening hclosing _ ih =>
    rw [nestAll?_cons, nest?_plain hopening hclosing, Option.bind_some]
    exact ih inside
  | group hfirst _ hlast _ ihinner ih =>
    rw [nestAll?_cons, hfirst, nest?_opening, Option.bind_some, nestAll?_append, ihinner,
      Option.bind_some, nestAll?_cons, hlast, nest?_closing_cons, Option.bind_some]
    exact ih inside

/-- The tokens `ts` close the brackets `inside` one after the other, innermost first, with balanced
stretches before, between and after them. -/
def Closes : List Bracket → List Token → Prop
  | [], ts => Balanced ts
  | b :: outer, ts => ∃ inner last more,
      ts = inner ++ last :: more ∧ Balanced inner ∧ last.kind = closing b ∧ Closes outer more

theorem Closes.plain {inside : List Bracket} {t : Token} {ts : List Token}
    (notOpening : ∀ b, t.kind ≠ opening b) (notClosing : ∀ b, t.kind ≠ closing b)
    (h : Closes inside ts) : Closes inside (t :: ts) := by
  cases inside with
  | nil => exact Balanced.plain notOpening notClosing h
  | cons b outer =>
    obtain ⟨inner, last, more, rfl, hinner, hlast, hmore⟩ := h
    exact ⟨t :: inner, last, more, rfl, hinner.plain notOpening notClosing, hlast, hmore⟩

theorem Closes.group {inside : List Bracket} {b : Bracket} {first last : Token}
    {inner ts : List Token} (hfirst : first.kind = opening b) (hinner : Balanced inner)
    (hlast : last.kind = closing b) (h : Closes inside ts) :
    Closes inside (first :: (inner ++ last :: ts)) := by
  cases inside with
  | nil => exact Balanced.group hfirst hinner hlast h
  | cons b' outer =>
    obtain ⟨inner', last', more, rfl, hinner', hlast', hmore⟩ := h
    refine ⟨first :: (inner ++ last :: inner'), last', more, by simp, ?_, hlast', hmore⟩
    exact Balanced.group hfirst hinner hlast hinner'

/-- Tokens that leave no bracket open close those that were open before. -/
theorem closes_of_nestAll? {inside : List Bracket} {ts : List Token}
    (h : nestAll? inside ts = some []) : Closes inside ts := by
  induction ts generalizing inside with
  | nil => cases h; exact Balanced.nil
  | cons t ts ih =>
    rw [nestAll?_cons] at h
    obtain ⟨next, hnext, h⟩ := Option.bind_eq_some_iff.1 h
    have hcloses := ih h
    rcases nest?_cases hnext with ⟨b, hkind, rfl⟩ | ⟨b, hkind, rfl⟩ | ⟨hopening, hclosing, rfl⟩
    · obtain ⟨inner, last, more, rfl, hinner, hlast, hmore⟩ := hcloses
      exact hmore.group hkind hinner hlast
    · exact ⟨[], t, ts, rfl, .nil, hkind, hcloses⟩
    · exact hcloses.plain hopening hclosing

/-- The two ways to say that brackets balance: by the shape of the list, and by the brackets that
are open at its end. -/
theorem balanced_iff_nestAll? {ts : List Token} : Balanced ts ↔ nestAll? [] ts = some [] :=
  ⟨fun h => h.nestAll? [], fun h => closes_of_nestAll? h⟩

/-! ## Joining and cutting balanced lists -/

theorem Balanced.append {ts us : List Token} (ht : Balanced ts) (hu : Balanced us) :
    Balanced (ts ++ us) := by
  rw [balanced_iff_nestAll?, nestAll?_append, ht.nestAll?, Option.bind_some, hu.nestAll?]

theorem Balanced.of_append {ts us : List Token} (ht : Balanced ts) (h : Balanced (ts ++ us)) :
    Balanced us := by
  rw [balanced_iff_nestAll?, nestAll?_append, ht.nestAll?, Option.bind_some] at h
  exact balanced_iff_nestAll?.2 h

/-- Outside all brackets of a balanced list no bracket is closed. -/
theorem Balanced.kind_ne_closing {ts us : List Token} {t : Token} (ht : Balanced ts)
    (h : Balanced (ts ++ t :: us)) (b : Bracket) : t.kind ≠ closing b := by
  intro hkind
  have hrest := balanced_iff_nestAll?.1 (ht.of_append h)
  rw [nestAll?_cons, hkind, nest?_closing_nil] at hrest
  cases hrest

/-! ## Balanced stretches -/

/-- `stop` holds at no point of `passed` that is outside all brackets, where `rest` follows. -/
def NoStop (stop : List Token → Bool) (passed rest : List Token) : Prop :=
  ∀ before t after, passed = before ++ t :: after → Balanced before →
    stop (t :: (after ++ rest)) = false

theorem passBalanced_sound {stop : List Token → Bool} {inside : List Bracket}
    {ts passed rest : List Token} (h : passBalanced stop inside ts = .ok (passed, rest)) :
    nestAll? inside passed = some [] ∧
      (∀ before t after, passed = before ++ t :: after → nestAll? inside before = some [] →
        stop (t :: (after ++ rest)) = false) ∧ (rest = [] ∨ stop rest = true) := by
  induction ts generalizing inside passed with
  | nil =>
    rw [passBalanced] at h
    split at h
    · next hinside =>
      cases h
      rw [List.isEmpty_iff] at hinside
      subst hinside
      exact ⟨rfl, fun before t after he => by simp at he, .inl rfl⟩
    · cases h
  | cons t ts ih =>
    rw [passBalanced] at h
    split at h
    · next hstop =>
      cases h
      rw [Bool.and_eq_true, List.isEmpty_iff] at hstop
      obtain ⟨rfl, hstop⟩ := hstop
      exact ⟨rfl, fun before t after he => by simp at he, .inr hstop⟩
    · next hstop =>
      split at h
      · cases h
      · next next hnext =>
        split at h
        · cases h
        · next passed' rest' hpass =>
          cases h
          obtain ⟨hnest, hnone, hend⟩ := ih hpass
          refine ⟨by rw [nestAll?_cons, hnext, Option.bind_some, hnest], ?_, hend⟩
          intro before u after he hbefore
          cases before with
          | nil =>
            -- the point is the first one, and it is outside only if no bracket was open
            cases he
            cases hbefore
            rw [passBalanced_append hpass]
            simpa using hstop
          | cons u' before =>
            cases he
            rw [nestAll?_cons, hnext, Option.bind_some] at hbefore
            exact hnone before u after rfl hbefore

/-- Tokens in front with no point outside brackets where `stop` holds are passed, and the brackets
they leave open are open from there on. -/
theorem passBalanced_through {stop : List Token → Bool} {inside opened : List Bracket}
    {passed us : List Token} (hnest : nestAll? inside passed = some opened)
    (hnone : ∀ before t after, passed = before ++ t :: after → nestAll? inside before = some [] →
      stop (t :: (after ++ us)) = false) :
    passBalanced stop inside (passed ++ us) =
      (passBalanced stop opened us).map fun r => (passed ++ r.1, r.2) := by
  induction passed generalizing inside with
  | nil =>
    cases hnest
    rw [List.nil_append]
    cases passBalanced stop opened us <;> rfl
  | cons t passed ih =>
    rw [nestAll?_cons] at hnest
    obtain ⟨next, hnext, hnest⟩ := Option.bind_eq_some_iff.1 hnest
    have hgo : (inside.isEmpty && stop (t :: (passed ++ us))) = false := by
      cases inside with
      | nil => simpa using hnone [] t passed rfl rfl
      | cons b outer => rfl
    have hmore := ih hnest fun before u after he hbefore =>
      hnone (t :: before) u after (by rw [he, List.cons_append])
        (by rw [nestAll?_cons, hnext, Option.bind_some, hbefore])
    rw [List.cons_append, passBalanced, hgo]
    simp only [Bool.false_eq_true, if_false, hnext, hmore]
    cases passBalanced stop opened us <;> rfl

theorem passBalanced_complete {stop : List Token → Bool} {inside : List Bracket}
    {passed rest : List Token} (hnest : nestAll? inside passed = some [])
    (hnone : ∀ before t after, passed = before ++ t :: after → nestAll? inside before = some [] →
      stop (t :: (after ++ rest)) = false)
    (hend : rest = [] ∨ stop rest = true) :
    passBalanced stop inside (passed ++ rest) = .ok (passed, rest) := by
  have hrest : passBalanced stop [] rest = .ok ([], rest) := by
    cases rest with
    | nil => rfl
    | cons t ts =>
      have hstop : stop (t :: ts) = true := by simpa using hend
      rw [passBalanced, hstop]
      rfl
  rw [passBalanced_through hnest hnone, hrest]
  simp [Except.map]

/-- **A balanced stretch**: balanced tokens with no point outside brackets where `stop` holds, up to
such a point or to the end. -/
theorem passBalanced_eq_ok {stop : List Token → Bool} {ts passed rest : List Token} :
    passBalanced stop [] ts = .ok (passed, rest) ↔
      ts = passed ++ rest ∧ Balanced passed ∧ NoStop stop passed rest ∧
        (rest = [] ∨ stop rest = true) := by
  simp only [NoStop, balanced_iff_nestAll?]
  constructor
  · intro h
    obtain ⟨hnest, hnone, hend⟩ := passBalanced_sound h
    exact ⟨(passBalanced_append h).symm, hnest, hnone, hend⟩
  · rintro ⟨rfl, hnest, hnone, hend⟩
    exact passBalanced_complete hnest hnone hend

/-- No balanced stretch goes on with these tokens where the brackets `opened` are open: the tokens
end too early, or the first closes none of the brackets. -/
inductive Stuck (stop : List Token → Bool) (opened : List Bracket) : List Token → Prop
  | ended (h : opened ≠ []) : Stuck stop opened []
  | unclosed {t : Token} {ts : List Token} (h : nest? opened t.kind = none)
      (noStop : opened = [] → stop (t :: ts) = false) : Stuck stop opened (t :: ts)

theorem Stuck.passBalanced {stop : List Token → Bool} {opened : List Bracket} {ts : List Token}
    (h : Stuck stop opened ts) : passBalanced stop opened ts = .error ts := by
  cases h with
  | ended h => rw [Grammar.passBalanced, if_neg (by simpa using h)]
  | @unclosed t ts h hstop =>
    have hgo : (opened.isEmpty && stop (t :: ts)) = false := by
      cases opened with
      | nil => simpa using hstop rfl
      | cons => rfl
    rw [Grammar.passBalanced, hgo]
    simp only [Bool.false_eq_true, if_false, h]

/-- **A stretch that does not balance**: the tokens passed leave brackets open with which the others
do not go on. -/
theorem passBalanced_eq_error {stop : List Token → Bool} {inside : List Bracket}
    {ts rejected : List Token} :
    passBalanced stop inside ts = .error rejected ↔
      ∃ passed opened, ts = passed ++ rejected ∧ nestAll? inside passed = some opened ∧
        (∀ before t after, passed = before ++ t :: after → nestAll? inside before = some [] →
          stop (t :: (after ++ rejected)) = false) ∧ Stuck stop opened rejected := by
  constructor
  · intro h
    induction ts generalizing inside with
    | nil =>
      rw [passBalanced] at h
      split at h
      · cases h
      · next hinside =>
        cases h
        exact ⟨[], inside, rfl, rfl, fun before t after he => by simp at he,
          .ended (by simpa using hinside)⟩
    | cons t ts ih =>
      rw [passBalanced] at h
      split at h
      · cases h
      · next hgo =>
        split at h
        · next hnone =>
          cases h
          refine ⟨[], inside, rfl, rfl, fun before t after he => by simp at he,
            .unclosed hnone ?_⟩
          rintro rfl
          simpa using hgo
        · next next hnext =>
          split at h
          · next hpass =>
            cases h
            obtain ⟨passed, opened, rfl, hnest, hno, hstuck⟩ := ih hpass
            refine ⟨t :: passed, opened, rfl, ?_, ?_, hstuck⟩
            · rw [nestAll?_cons, hnext, Option.bind_some, hnest]
            intro before u after he hbefore
            cases before with
            | nil =>
              cases he
              cases hbefore
              simpa using hgo
            | cons u' before =>
              cases he
              rw [nestAll?_cons, hnext, Option.bind_some] at hbefore
              exact hno before u after rfl hbefore
          · cases h
  · rintro ⟨passed, opened, rfl, hnest, hno, hstuck⟩
    rw [passBalanced_through hnest hno, hstuck.passBalanced]
    rfl

end ManifestDocs.Grammar
