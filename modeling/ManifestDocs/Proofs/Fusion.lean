/-
Code in front of items. Code between definitions goes as far as it can, so that code in front of code
is one stretch with it, while before a definition, or at the end, it is an item of its own.
`items_code` says so whatever follows, also where the tokens that follow are rejected.
-/
import ManifestDocs.Proofs.Partition

namespace ManifestDocs

/-- Code before items. If these start with code, the two are one stretch. -/
def Item.codeBefore {ε : Type} (i : Item ε) : List (Item ε) → List (Item ε)
  | ⟨_, offset, length, .expression⟩ :: js =>
    ⟨i.line, i.offset, offset + length - i.offset, .expression⟩ :: js
  | js => i :: js

namespace Grammar

variable {tasks : Bool} {ts us rest : List Token}

theorem NoStop.append {stop : List Token → Bool} (balanced : Balanced ts)
    (h : NoStop stop ts (us ++ rest)) (more : NoStop stop us rest) :
    NoStop stop (ts ++ us) rest := by
  intro before t after he hbefore
  rcases append_eq_append_cons he with ⟨back, rfl, rfl⟩ | ⟨front, rfl, rfl⟩
  · rw [List.append_assoc]
    exact h before t back rfl hbefore
  · exact more front t after rfl (balanced.of_append hbefore)

theorem NoStop.cons {stop : List Token → Bool} {t : Token} (balanced : Balanced [t])
    (h : stop (t :: (ts ++ rest)) = false) (more : NoStop stop ts rest) :
    NoStop stop (t :: ts) rest := by
  refine NoStop.append balanced (fun before u after he _ => ?_) more
  cases before with
  | nil =>
    obtain ⟨rfl, rfl⟩ := List.cons.inj he
    exact h
  | cons => simp at he

/-- Where a definition starts, no code is read. -/
theorem IsItem.form_ne_expression {i : Item Span} (h : IsItem tasks ts rest i)
    (hstarts : startsDefinition tasks (ts ++ rest) = true) : i.form ≠ .expression := by
  cases h with
  | definition => simp [itemAt]
  | @expression t last ts _ _ hno _ _ =>
    have hnone := hno [] t ts rfl .nil
    rw [List.cons_append, hnone] at hstarts
    cases hstarts

/-- Code that does not balance is rejected where the passing of it stops. -/
theorem items_of_pass_error {rejected : Rejected}
    (h : passBalanced (startsDefinition tasks) [] ts = .error rejected) :
    items tasks ts = .error rejected := by
  cases ts with
  | nil => cases h
  | cons t ts =>
    have hnone : leading? tasks (t :: ts) = none := by
      rw [leading?_eq_none_iff, Bool.eq_false_iff]
      intro hstarts
      rw [passBalanced, hstarts] at h
      cases h
    have hitem : item tasks t ts = .error rejected := by
      rw [item, hnone]
      show (passBalanced (startsDefinition tasks) [] (t :: ts) >>= _) = _
      rw [h]
      rfl
    rw [items_cons, hitem]
    rfl

section Code

variable {first last : Token} (balanced : Balanced (first :: ts))
  (hno : NoStop (startsDefinition tasks) (first :: ts) us)
  (hlast : (first :: ts).getLast? = some last)

include balanced hno hlast

/-- Before a definition, code is an item of its own. -/
theorem items_code_definition (hstarts : startsDefinition tasks us = true) :
    items tasks (first :: ts ++ us) =
      (items tasks us).map (itemAt first last.stop .expression).codeBefore := by
  rw [(IsItem.expression balanced hno (.inr hstarts) hlast).items_append]
  cases hus : items tasks us with
  | error rejected => rfl
  | ok js =>
    refine congrArg Except.ok ?_
    cases items_eq_ok.1 hus with
    | nil => rfl
    | @cons _ _ j _ h _ =>
      have hform := h.form_ne_expression hstarts
      obtain ⟨line, offset, length, form⟩ := j
      cases form with
      | definition => rfl
      | expression => exact absurd rfl hform

omit hlast in
/-- Before code, it is one item with it. -/
theorem items_code_code (hts : InOrder us) (hnone : startsDefinition tasks us = false)
    (hne : us ≠ []) :
    items tasks (first :: ts ++ us) =
      (items tasks us).map (itemAt first last.stop .expression).codeBefore := by
  obtain ⟨u, us, rfl⟩ := List.exists_cons_of_ne_nil hne
  have hpass : passBalanced (startsDefinition tasks) [] (first :: (ts ++ u :: us)) = _ :=
    passBalanced_through (balanced.nestAll? []) fun before t after he hbefore =>
      hno before t after he (balanced_iff_nestAll?.2 hbefore)
  cases h : passBalanced (startsDefinition tasks) [] (u :: us) with
  | error rejected =>
    rw [h] at hpass
    rw [items_of_pass_error h, List.cons_append, items_of_pass_error hpass]
    rfl
  | ok r =>
    obtain ⟨passed, rest⟩ := r
    obtain ⟨more, last', rfl, rfl, hlast', hcode⟩ := isItem_of_pass hnone h
    obtain ⟨-, hbalanced, hno', hends⟩ := passBalanced_eq_ok.1 h
    have hlast₂ : (first :: ts ++ u :: more).getLast? = some last' := getLast?_append_of_some hlast'
    have hboth : IsItem tasks (first :: ts ++ u :: more) rest (itemAt first last'.stop .expression) :=
      .expression (balanced.append hbalanced) (NoStop.append balanced hno hno') hends hlast₂
    obtain ⟨_, last'', -, hlast'', -, hstop, -⟩ := hcode.reaches hts.append.1
    rw [hlast'] at hlast''
    cases hlast''
    rw [← List.cons_append, hcode.items_append, ← List.append_assoc]
    refine hboth.items_append.trans ?_
    cases items tasks rest with
    | error rejected => rfl
    | ok js =>
      -- the stretch reaches to the last token of the code that follows
      have hspan : u.start.offset + (last'.stop - u.start.offset) = last'.stop := hstop
      show Except.ok (itemAt first last'.stop .expression :: js) = .ok (⟨first.start.line,
        first.start.offset, u.start.offset + (last'.stop - u.start.offset) - first.start.offset,
        .expression⟩ :: js)
      rw [hspan]
      rfl

/-- **Code in front of tokens** is read before their items, or with the code they start with. -/
theorem items_code (hts : InOrder us) :
    items tasks (first :: ts ++ us) =
      (items tasks us).map (itemAt first last.stop .expression).codeBefore := by
  cases us with
  | nil =>
    rw [(IsItem.expression balanced hno (.inl rfl) hlast).items_append, items]
    rfl
  | cons u us =>
    cases hstarts : startsDefinition tasks (u :: us) with
    | true => exact items_code_definition balanced hno hlast hstarts
    | false => exact items_code_code balanced hno hts hstarts (List.cons_ne_nil _ _)

end Code

end Grammar

end ManifestDocs
