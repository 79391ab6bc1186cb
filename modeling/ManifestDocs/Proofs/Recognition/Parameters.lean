/-
Parameters are read exactly as the grammar derives them. A default value has no end of its own: it
goes on to the comma or the parenthesis that ends the parameter, so both its reading and that of a
whole parameter are complete where one of the two follows.
-/
import ManifestDocs.Proofs.Recognition.Types

namespace ManifestDocs.Grammar

/-! ## Optional parts -/

section

variable {α : Type} {announces : Token → Bool}
  {part : List Token → Except Rejected (α × List Token)} {Q R : List Token → α → Prop}
  {ts rest : List Token} {o : Option α}

/-- What is read as an optional part is one: it is announced, or there is none. -/
theorem optionalAfter_sound
    (hpart : ∀ {ts rest : List Token} {a : α}, part ts = .ok (a, rest) →
      ∃ passed, ts = passed ++ rest ∧ Q passed a)
    (hR : ∀ {t : Token} {us : List Token} {a : α}, announces t = true → Q us a → R (t :: us) a)
    (h : optionalAfter announces part ts = .ok (o, rest)) :
    ∃ passed, ts = passed ++ rest ∧ Maybe R passed o := by
  cases ts with
  | nil => cases h; exact ⟨[], rfl, .none⟩
  | cons t ts =>
    rw [optionalAfter] at h
    split at h
    · next ht =>
      obtain ⟨⟨a, ts₁⟩, ha, h⟩ := bind_eq_ok h
      cases h
      obtain ⟨passed, rfl, hpassed⟩ := hpart ha
      exact ⟨t :: passed, rfl, .some (hR ht hpassed)⟩
    · cases h
      exact ⟨[], rfl, .none⟩

/-- An optional part is read as one where the next token announces none. -/
theorem optionalAfter_complete (h : Maybe R ts o)
    (hR : ∀ {ts : List Token} {a : α}, R ts a →
      ∃ t us, ts = t :: us ∧ announces t = true ∧ part (us ++ rest) = .ok (a, rest))
    (ends : ∀ t us, rest = t :: us → announces t = false) :
    optionalAfter announces part (ts ++ rest) = .ok (o, rest) := by
  cases h with
  | none =>
    cases rest with
    | nil => rfl
    | cons t rest => rw [List.nil_append, optionalAfter, if_neg (by simp [ends t rest rfl])]
  | some h =>
    obtain ⟨t, us, rfl, ht, hread⟩ := hR h
    rw [List.cons_append, optionalAfter, if_pos ht, hread]
    rfl

end

/-! ## Parameters -/

theorem endsValue_iff {t : Token} {ts : List Token} :
    endsValue (t :: ts) = true ↔ t.kind = .operator .comma ∨ t.kind = closing .round := by
  simp [endsValue]

theorem defaultValue_sound {ts rest : List Token} {s : Span}
    (h : defaultValue ts = .ok (s, rest)) : ∃ passed, ts = passed ++ rest ∧ IsValue passed s := by
  unfold defaultValue at h
  split at h
  · cases h
  · cases h
  · next first passed rest' hpassed =>
    cases h
    obtain ⟨rfl, hbalanced, hstop, -⟩ := passBalanced_eq_ok.1 hpassed
    refine ⟨first :: passed, rfl, .mk hbalanced ?_⟩
    intro before t after he hbefore hcomma
    have hnot := hstop before t after he hbefore
    rw [endsValue_iff.2 (.inl hcomma)] at hnot
    cases hnot

theorem defaultValue_complete {ts rest : List Token} {s : Span} (h : IsValue ts s)
    (ends : endsValue rest = true) : defaultValue (ts ++ rest) = .ok (s, rest) := by
  cases h with
  | @mk first ts hbalanced hcomma =>
  have hpass : passBalanced endsValue [] (first :: ts ++ rest) = .ok (first :: ts, rest) := by
    refine passBalanced_eq_ok.2 ⟨rfl, hbalanced, ?_, .inr ends⟩
    intro before t after he hbefore
    rw [Bool.eq_false_iff, ne_eq, endsValue_iff, not_or]
    exact ⟨hcomma before t after he hbefore, hbefore.kind_ne_closing (he ▸ hbalanced) .round⟩
  rw [defaultValue, hpass]

theorem optionalValue_sound {ts rest : List Token} {value : Option Span}
    (h : optionalValue ts = .ok (value, rest)) :
    ∃ passed, ts = passed ++ rest ∧ Maybe IsAssigned passed value :=
  optionalAfter_sound defaultValue_sound (fun h => .mk (beq_iff_eq.1 h)) h

theorem optionalValue_complete {ts rest : List Token} {value : Option Span}
    (h : Maybe IsAssigned ts value) (ends : endsValue rest = true) :
    optionalValue (ts ++ rest) = .ok (value, rest) := by
  refine optionalAfter_complete h (fun h => ?_) fun t ts hrest => ?_
  · obtain ⟨hassign, hvalue⟩ := h
    exact ⟨_, _, rfl, beq_iff_eq.2 hassign, defaultValue_complete hvalue ends⟩
  · rw [hrest, endsValue_iff] at ends
    rcases ends with h | h <;> simp [h, closing]

theorem optionalStar_sound (ts : List Token) :
    ∃ passed, ts = passed ++ (optionalStar ts).2 ∧ IsStar passed (optionalStar ts).1 := by
  cases ts with
  | nil => exact ⟨[], rfl, .none⟩
  | cons t ts =>
    rw [optionalStar]
    split
    · next hstar => exact ⟨[t], rfl, .some hstar⟩
    · exact ⟨[], rfl, .none⟩

theorem optionalStar_complete {ts rest : List Token} {star : Bool} (h : IsStar ts star)
    (noStar : startsWith (.operator .star) rest = false) :
    optionalStar (ts ++ rest) = (star, rest) := by
  cases h with
  | none =>
    cases rest with
    | nil => rfl
    | cons t rest => rw [List.nil_append, optionalStar, if_neg (by simpa using noStar)]
  | some hstar => rw [List.singleton_append, optionalStar, if_pos hstar]

theorem parameter_sound {ts rest : List Token} {p : Parameter Span}
    (h : parameter ts = .ok (p, rest)) : ∃ passed, ts = passed ++ rest ∧ IsParameter passed p := by
  obtain ⟨⟨type, ts₁⟩, htype, h⟩ := bind_eq_ok h
  obtain ⟨⟨name, ts₂⟩, hname, h⟩ := bind_eq_ok h
  obtain ⟨⟨value, ts₃⟩, hvalue, h⟩ := bind_eq_ok h
  cases h
  obtain ⟨tokens, rfl, htokens⟩ := optionalType_sound htype
  obtain ⟨stars, hstars, hstar⟩ := optionalStar_sound ts₁
  obtain ⟨hsuffix, hkind⟩ := expect_eq_ok.1 hname
  obtain ⟨values, rfl, hvalues⟩ := optionalValue_sound hvalue
  refine ⟨tokens ++ (stars ++ name :: values), ?_, .mk htokens hstar hkind hvalues⟩
  rw [hstars, hsuffix]
  simp

/-- What a star and a variable can start with. -/
theorem IsStar.startsWith_name {ts rest : List Token} {star : Bool} {name : Token}
    (h : IsStar ts star) (hname : name.kind = .variable) {kind : Token.Kind}
    (notStar : kind ≠ .operator .star) (notVariable : kind ≠ .variable) :
    startsWith kind (ts ++ name :: rest) = false := by
  cases h with
  | none => simpa [hname] using notVariable.symm
  | some hstar => simpa [hstar] using notStar.symm

theorem parameter_complete {ts rest : List Token} {p : Parameter Span} (h : IsParameter ts p)
    (ends : endsValue rest = true) : parameter (ts ++ rest) = .ok (p, rest) := by
  cases h with
  | @mk types stars values name type value star htype hstar hname hvalue =>
  have hread : optionalType (types ++ (stars ++ name :: (values ++ rest))) =
      .ok (type, stars ++ name :: (values ++ rest)) :=
    optionalType_complete htype (hstar.startsWith_name hname (by simp) (by simp))
      (hstar.startsWith_name hname (by simp [opening]) (by simp [opening]))
  have hstars : optionalStar (stars ++ name :: (values ++ rest)) =
      (star, name :: (values ++ rest)) := optionalStar_complete hstar (by simp [hname])
  simp only [parameter, List.append_assoc, List.cons_append, hread, bind_ok, hstars,
    expect_cons hname, optionalValue_complete hvalue ends]
  rfl

/-- A parameter starts with a type, a star or a variable. -/
theorem IsParameter.startsWith_closing {ts : List Token} {p : Parameter Span}
    (h : IsParameter ts p) (rest : List Token) :
    startsWith (closing .round) (ts ++ rest) = false := by
  cases h with
  | @mk types stars values name type value star htype hstar hname hvalue =>
  rw [List.append_assoc, List.append_assoc, List.cons_append]
  cases htype with
  | none => exact hstar.startsWith_name hname (by simp [closing]) (by simp [closing])
  | some htype => rw [htype.startsWith]; rfl

theorem IsParameterList.cons {ts more : List Token} {c : Token} {p : Parameter Span}
    {ps : List (Parameter Span)} (h : IsParameter ts p) (comma : c.kind = .operator .comma)
    (hmore : IsParameterList more ps) : IsParameterList (ts ++ c :: more) (p :: ps) := by
  cases hmore with
  | empty => exact .trailing (.one h) comma
  | listed hmore => exact .listed (.cons h comma hmore)
  | @trailing more c' ps hmore comma' =>
    rw [← List.cons_append, ← List.append_assoc]
    exact .trailing (.cons h comma hmore) comma'

theorem parameters_sound {ts rest : List Token} {ps : List (Parameter Span)}
    (h : parameters ts = .ok (ps, rest)) :
    ∃ inner last, ts = inner ++ last :: rest ∧ IsParameterList inner ps ∧
      last.kind = closing .round := by
  fun_induction parameters ts generalizing ps rest with
  | case1 ts hclosing =>
    cases h
    obtain ⟨last, more, rfl, hlast⟩ := startsWith_iff.1 hclosing
    exact ⟨[], last, rfl, .empty, hlast⟩
  | case2 => cases h
  | case3 ts _ p rest₁ hp hclosing =>
    cases h
    obtain ⟨passed, rfl, hpassed⟩ := parameter_sound hp
    obtain ⟨last, more, rfl, hlast⟩ := startsWith_iff.1 hclosing
    exact ⟨passed, last, rfl, .listed (.one hpassed), hlast⟩
  | case4 => cases h
  | case5 ts _ p rest₁ hp _ hcomma ps₁ rest₂ hmore ih =>
    cases h
    obtain ⟨passed, rfl, hpassed⟩ := parameter_sound hp
    obtain ⟨c, more, rfl, hc⟩ := startsWith_iff.1 hcomma
    obtain ⟨inner, last, hinner, hlist, hlast⟩ := ih hmore
    refine ⟨passed ++ c :: inner, last, ?_, .cons hpassed hc hlist, hlast⟩
    rw [List.tail_cons] at hinner
    simp [hinner]
  | case6 => cases h

/-- What follows a parameter decides how the list goes on. -/
theorem parameters_step {ts rest : List Token} {p : Parameter Span}
    (hstart : startsWith (closing .round) ts = false) (hp : parameter ts = .ok (p, rest)) :
    parameters ts =
      if startsWith (closing .round) rest then .ok ([p], rest.tail)
      else if startsWith (.operator .comma) rest then
        match parameters rest.tail with
        | .error e => .error e
        | .ok (ps, rest) => .ok (p :: ps, rest)
      else .error rest := by
  rw [parameters, hstart]
  simp only [Bool.false_eq_true, if_false]
  split
  · next e he => rw [hp] at he; cases he
  · next p' rest' he => rw [hp] at he; cases he; rfl

/-- The list of parameters, one step at a time. -/
theorem parameters_eq (ts : List Token) :
    parameters ts =
      if startsWith (closing .round) ts then .ok ([], ts.tail)
      else parameter ts >>= fun r =>
        if startsWith (closing .round) r.2 then .ok ([r.1], r.2.tail)
        else if startsWith (.operator .comma) r.2 then
          parameters r.2.tail >>= fun q => .ok (r.1 :: q.1, q.2)
        else .error r.2 := by
  cases hstart : startsWith (closing .round) ts with
  | true => rw [parameters, if_pos hstart, if_pos rfl]
  | false =>
    rw [if_neg (by decide)]
    cases hp : parameter ts with
    | error rejected =>
      rw [parameters, if_neg (by simp [hstart])]
      split
      · next he =>
        rw [hp] at he
        cases he
        rfl
      · next he => simp [hp] at he
    | ok r =>
      rw [parameters_step hstart hp, bind_ok]
      cases parameters r.2.tail <;> rfl

/-- The closing parenthesis, after one comma at most, ends a list of parameters. -/
theorem parameters_complete_list {ts us rest : List Token} {last : Token}
    {ps : List (Parameter Span)} (h : CommaList IsParameter ts ps)
    (hus : us = [] ∨ ∃ c : Token, us = [c] ∧ c.kind = .operator .comma)
    (hlast : last.kind = closing .round) :
    parameters (ts ++ (us ++ last :: rest)) = .ok (ps, rest) := by
  have hends : parameters (last :: rest) = .ok ([], rest) := by
    rw [parameters, startsWith_cons, hlast]
    rfl
  induction h with
  | @one ts p h =>
    rcases hus with rfl | ⟨c, rfl, hc⟩
    · have hp : parameter (ts ++ last :: rest) = .ok (p, last :: rest) :=
        parameter_complete h (endsValue_iff.2 (.inr hlast))
      rw [List.nil_append, parameters_step (h.startsWith_closing _) hp]
      simp [hlast]
    · have hp : parameter (ts ++ c :: last :: rest) = .ok (p, c :: last :: rest) :=
        parameter_complete h (endsValue_iff.2 (.inl hc))
      rw [List.singleton_append, parameters_step (h.startsWith_closing _) hp]
      simp [hc, closing, hends]
  | @cons ts more c p ps h comma _ ih =>
    have hp : parameter (ts ++ c :: (more ++ (us ++ last :: rest))) =
        .ok (p, c :: (more ++ (us ++ last :: rest))) :=
      parameter_complete h (endsValue_iff.2 (.inl comma))
    rw [List.append_assoc, List.cons_append, parameters_step (h.startsWith_closing _) hp]
    simp [comma, closing, ih]

theorem optionalParameters_sound {ts rest : List Token} {ps : List (Parameter Span)}
    (h : optionalParameters ts = .ok (ps, rest)) :
    ∃ passed, ts = passed ++ rest ∧ IsParameters passed ps := by
  cases ts with
  | nil => cases h; exact ⟨[], rfl, .absent⟩
  | cons t ts =>
    rw [optionalParameters] at h
    split at h
    · next hfirst =>
      obtain ⟨inner, last, rfl, hinner, hlast⟩ := parameters_sound h
      exact ⟨t :: (inner ++ [last]), by simp, .present hfirst hinner hlast⟩
    · cases h
      exact ⟨[], rfl, .absent⟩

theorem optionalParameters_complete {ts rest : List Token} {ps : List (Parameter Span)}
    (h : IsParameters ts ps) (ends : startsWith (opening .round) rest = false) :
    optionalParameters (ts ++ rest) = .ok (ps, rest) := by
  cases h with
  | absent =>
    cases rest with
    | nil => rfl
    | cons t rest => rw [List.nil_append, optionalParameters, if_neg (by simpa using ends)]
  | present hfirst h hlast =>
    rw [List.cons_append, optionalParameters, if_pos hfirst, List.append_assoc,
      List.singleton_append]
    cases h with
    | empty =>
      rw [List.nil_append, parameters, startsWith_cons, hlast]
      rfl
    | listed h => exact parameters_complete_list h (.inl rfl) hlast
    | trailing h comma =>
      rw [List.append_assoc]
      exact parameters_complete_list h (.inr ⟨_, rfl, comma⟩) hlast

end ManifestDocs.Grammar
