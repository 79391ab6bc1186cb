/-
A manifest is rejected at the first token that cannot be right. The tokens before it could go on to
be a manifest, and with it they cannot, whatever comes after it. Within a definition this is what it
is to read promptly; code between definitions fails at a bracket that does not fit, and no tokens
across the bracket tell a definition. `Earliest.behind` carries both over the items before, which are
the same whatever the tokens go on with.
-/
import ManifestDocs.Proofs.Promptness

namespace ManifestDocs.Grammar

variable {tasks : Bool} {ts before rejected : List Token}

/-! ## What follows an item -/

/-- A closing bracket does not tell a definition before it. -/
theorem noStop_closing_iff {b : Bracket} {c : Token} (hc : c.kind = closing b) (us : List Token) :
    NoStop (startsDefinition tasks) ts (c :: us) ↔ NoStop (startsDefinition tasks) ts [] := by
  have hsame : ∀ (t : Token) after, startsDefinition tasks (t :: (after ++ c :: us)) =
      startsDefinition tasks (t :: (after ++ [])) := by
    intro t after
    rw [startsDefinition, ← List.cons_append, leading?_closing tasks hc, List.append_nil]
    rfl
  simp only [NoStop, hsame]

/-- A definition is told by its own tokens. -/
theorem IsItem.told {rest : List Token} {i : Item Span} (h : IsItem tasks ts rest i)
    (hstarts : startsDefinition tasks (ts ++ rest) = true) : startsDefinition tasks ts = true := by
  cases h with
  | definition h =>
    have hend : IsDefinition tasks _ [] _ := h.of_rest fun _ us _ _ _ _ => aliasEnds_nil us
    obtain ⟨keyword, t, more, he, hk, -⟩ := definition_complete hend
    rw [List.append_nil] at hk
    rw [he, startsDefinition, hk]
    rfl
  | expression _ hno _ _ =>
    rw [List.cons_append, hno [] _ _ rfl .nil] at hstarts
    cases hstarts

/-! ## The earliest error -/

/-- The tokens `before` could go on to be a manifest, but not with the first of `rejected`, or not
with the end. -/
structure Earliest (tasks : Bool) (before rejected : List Token) : Prop where
  viable : ∃ more is, AreItems tasks (before ++ more) is ∧ (before = [] → more = [])
  told : startsDefinition tasks (before ++ rejected) = true → startsDefinition tasks before = true
  prompt : ∀ rejected', rejected'.head? = rejected.head? →
    items tasks (before ++ rejected') = .error rejected'

theorem earliest_definition {t : Token} {keyword : Keyword}
    (hk : leading? tasks (t :: ts) = some keyword) (h : definition keyword ts = .error rejected) :
    ∃ before, t :: ts = before ++ rejected ∧ Earliest tasks before rejected := by
  obtain ⟨told, rest, rfl, htold, hprompt⟩ := definition_prompt hk
  obtain ⟨before, rfl, ⟨more, ⟨d, stop⟩, hmore⟩, hsame⟩ := hprompt.error h
  have hitems := AreItems.cons (.definition hmore) .nil
  rw [List.append_nil, ← List.append_assoc] at hitems
  refine ⟨t :: (told ++ before), by simp, ⟨more, _, hitems, by simp⟩, fun _ => ?_,
    fun rejected' hrejected => ?_⟩
  · rw [startsDefinition, ← List.cons_append, leading?_append_of_some htold]
    rfl
  · have hread := leading?_append_of_some htold (before ++ rejected')
    rw [List.cons_append, List.append_assoc, items_cons, item, ← List.cons_append, hread]
    simp only [hsame rejected' hrejected]
    rfl

theorem nest?_eq_none {inside : List Bracket} {kind : Token.Kind} (h : nest? inside kind = none) :
    ∃ b, kind = closing b := by
  unfold nest? at h
  split at h
  · cases h
  · next b => exact ⟨b, rfl⟩
  · cases h

theorem earliest_code (hnone : startsDefinition tasks ts = false)
    (h : passBalanced (startsDefinition tasks) [] ts = .error rejected) :
    ∃ before, ts = before ++ rejected ∧ Earliest tasks before rejected := by
  obtain ⟨before, opened, hts, hnest, hnot, hstuck⟩ := passBalanced_eq_error.1 h
  simp only [← balanced_iff_nestAll?] at hnot
  have hno : NoStop (startsDefinition tasks) before [] := by
    cases hstuck with
    | ended => exact hnot
    | unclosed hkind _ =>
      obtain ⟨b, hc⟩ := nest?_eq_none hkind
      exact (noStop_closing_iff hc _).1 hnot
  refine ⟨before, hts, ⟨closers opened, ?_⟩, fun hstarts => ?_, fun rejected' hrejected => ?_⟩
  · have hclosed : NoStop (startsDefinition tasks) before (closers opened) := by
      cases opened with
      | nil => exact hno
      | cons b outer => exact (noStop_closing_iff rfl _).2 hno
    obtain ⟨is, his⟩ := areItems_of_balanced (balanced_closers hnest) fun front t after he hfront =>
      leading?_eq_none_iff.2 (by simpa using hclosed.closers hnest front t after he hfront)
    refine ⟨is, his, ?_⟩
    rintro rfl
    cases hnest
    rfl
  · rw [← hts, hnone] at hstarts
    cases hstarts
  · refine items_of_pass_error (passBalanced_eq_error.2 ⟨before, opened, rfl, hnest, ?_⟩)
    simp only [← balanced_iff_nestAll?]
    cases hstuck with
    | ended hopened =>
      rw [List.head?_eq_none_iff.1 hrejected]
      exact ⟨hno, .ended hopened⟩
    | @unclosed c _ hkind _ =>
      obtain ⟨b, hc⟩ := nest?_eq_none hkind
      obtain ⟨more, rfl⟩ := List.head?_eq_some_iff.1 hrejected
      refine ⟨(noStop_closing_iff hc more).2 hno, .unclosed hkind fun _ => ?_⟩
      exact leading?_eq_none_iff.1 (leading?_closing tasks hc [] more)

/-- The items before are the same whatever the tokens go on with. -/
theorem Earliest.behind (h : Earliest tasks before rejected) {i : Item Span}
    (hi : IsItem tasks ts (before ++ rejected) i) : Earliest tasks (ts ++ before) rejected := by
  have hne : before ++ rejected ≠ [] := by
    intro hnil
    have herror := h.prompt rejected rfl
    rw [hnil, items] at herror
    cases herror
  have hrest : ∀ us, before ++ us = [] ∨ (before ++ us).head? = (before ++ rejected).head? →
      IsItem tasks ts (before ++ us) i := fun us hhead =>
    hi.of_rest hne hhead fun hstarts => startsDefinition_append (h.told hstarts) us
  refine ⟨?_, fun hstarts => ?_, fun rejected' hrejected => ?_⟩
  · obtain ⟨more, is, his, hnil⟩ := h.viable
    have hhead : before ++ more = [] ∨ (before ++ more).head? = (before ++ rejected).head? := by
      cases before with
      | nil => exact .inl (hnil rfl)
      | cons => exact .inr rfl
    refine ⟨more, i :: is, ?_, fun he => hnil (List.append_eq_nil_iff.1 he).2⟩
    rw [List.append_assoc]
    exact .cons (hrest more hhead) his
  · rw [List.append_assoc] at hstarts
    exact startsDefinition_append (hi.told hstarts) before
  · rw [List.append_assoc, (hrest rejected' (.inr (head?_append_congr hrejected))).items_append,
      h.prompt rejected' hrejected]
    rfl

theorem items_earliest (h : items tasks ts = .error rejected) :
    ∃ before, ts = before ++ rejected ∧ Earliest tasks before rejected := by
  fun_induction items tasks ts with
  | case1 => cases h
  | case2 t ts _ hitem =>
    cases h
    unfold item at hitem
    split at hitem
    · next keyword hk =>
      rcases bind_eq_error hitem with hd | ⟨_, _, hitem⟩
      · exact earliest_definition hk hd
      · cases hitem
    · next hnone =>
      rcases bind_eq_error hitem with hpass | ⟨_, _, hitem⟩
      · exact earliest_code (leading?_eq_none_iff.1 hnone) hpass
      · cases hitem
  | case3 t ts i rest hitem _ hmore ih =>
    cases h
    obtain ⟨passed, rfl, hi⟩ := item_sound hitem
    obtain ⟨before, rfl, hbefore⟩ := ih hmore
    exact ⟨t :: passed ++ before, by simp, hbefore.behind hi⟩
  | case4 => cases h

/-- **Syntax errors are reported at the earliest token.** If a list of tokens is rejected at index
`k`, the tokens before `k` can go on to be accepted; and unless `k` is the end, every list with the
same tokens up to and with the one at `k` has the same error, whatever follows. -/
theorem items_error_earliest {tokens : List Token} (h : items tasks tokens = .error rejected) :
    ∃ k ≤ tokens.length, rejected = tokens.drop k ∧
      (∃ more is, items tasks (tokens.take k ++ more) = .ok is) ∧
      (k < tokens.length → ∀ tokens', tokens'.take (k + 1) = tokens.take (k + 1) →
        ∀ stop stop', (items tasks tokens').mapError (errorAt stop') =
          .error (errorAt stop rejected)) := by
  obtain ⟨before, rfl, hearliest⟩ := items_earliest h
  have hdrop : (before ++ rejected).drop before.length = rejected := List.drop_left
  refine ⟨before.length, by simp, hdrop.symm, ?_, fun hlt tokens' htokens stop stop' => ?_⟩
  · obtain ⟨more, is, his, -⟩ := hearliest.viable
    rw [List.take_left]
    exact ⟨more, is, items_eq_ok.2 his⟩
  · obtain ⟨t, after, rfl⟩ : ∃ t after, rejected = t :: after := by
      cases rejected with
      | nil => simp at hlt
      | cons t after => exact ⟨t, after, rfl⟩
    rw [List.take_length_add_append, List.take_succ_cons, List.take_zero] at htokens
    have hsame : tokens' = before ++ [t] ++ tokens'.drop (before.length + 1) := by
      rw [← htokens, List.take_append_drop]
    rw [hsame, List.append_assoc, hearliest.prompt ([t] ++ tokens'.drop (before.length + 1)) rfl]
    rfl

/-- The tokens of `class a { ( ] }`. -/
def mismatchInBody : List Token :=
  [⟨.name, "class", ⟨0, 1, 1⟩, 5⟩, ⟨.name, "a", ⟨6, 1, 7⟩, 7⟩,
   ⟨opening .curly, "\x7b", ⟨8, 1, 9⟩, 9⟩, ⟨opening .round, "(", ⟨10, 1, 11⟩, 11⟩,
   ⟨closing .square, "]", ⟨12, 1, 13⟩, 13⟩, ⟨closing .curly, "\x7d", ⟨14, 1, 15⟩, 15⟩]

/-- The class could still be closed before the bracket that does not fit, which is the error whatever
comes after it. -/
theorem mismatchInBody_earliest :
    items false mismatchInBody = .error (mismatchInBody.drop 4) ∧
      (∃ more is, items false (mismatchInBody.take 4 ++ more) = .ok is) ∧
      ∀ more stop, (items false (mismatchInBody.take 5 ++ more)).mapError (errorAt stop) =
        .error ⟨.unexpected "]", 1, 13⟩ := by
  have hread : items false mismatchInBody = .error (mismatchInBody.drop 4) := by
    rw [mismatchInBody, items_cons]
    rfl
  obtain ⟨k, hk, hdrop, hviable, hsame⟩ := items_error_earliest hread
  obtain rfl : k = 4 := by
    have hlength := congrArg List.length hdrop
    rw [List.length_drop, List.length_drop] at hlength
    simp only [mismatchInBody, List.length_cons, List.length_nil] at hlength hk
    omega
  exact ⟨hread, hviable, fun more stop =>
    hsame (by decide) (mismatchInBody.take 5 ++ more) rfl stop stop⟩

end ManifestDocs.Grammar
