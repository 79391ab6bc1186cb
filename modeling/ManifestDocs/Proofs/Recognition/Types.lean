/-
Brackets, types and what an alias stands for are read exactly as the grammar derives them. A reading
gets two lemmas: what it passed derives what it answers (`…_sound`), and it passes every derivation
where the tokens after it do not go on with it (`…_complete`). Where nothing after a part can go on
with it the two are one equivalence (`…_eq_ok`).
-/
import ManifestDocs.Proofs.Derivation

namespace ManifestDocs.Grammar

theorem bind_ok {ε α β : Type} (a : α) (f : α → Except ε β) : (Except.ok a >>= f) = f a := rfl

theorem bind_eq_error {ε α β : Type} {x : Except ε α} {f : α → Except ε β} {e : ε}
    (h : (x >>= f) = .error e) : x = .error e ∨ ∃ a, x = .ok a ∧ f a = .error e := by
  cases x with
  | error _ => cases h; exact .inl rfl
  | ok a => exact .inr ⟨a, rfl, h⟩

/-! ## Single tokens -/

theorem startsWith_iff {kind : Token.Kind} {ts : List Token} :
    startsWith kind ts = true ↔ ∃ t more, ts = t :: more ∧ t.kind = kind := by
  cases ts with
  | nil => simp [startsWith]
  | cons t ts =>
    simp only [startsWith, beq_iff_eq, List.cons.injEq]
    constructor
    · intro h
      exact ⟨t, ts, ⟨rfl, rfl⟩, h⟩
    · rintro ⟨t', ts', ⟨rfl, rfl⟩, h⟩
      exact h

@[simp] theorem startsWith_cons (kind : Token.Kind) (t : Token) (ts : List Token) :
    startsWith kind (t :: ts) = (t.kind == kind) := rfl

@[simp] theorem startsWith_nil (kind : Token.Kind) : startsWith kind [] = false := rfl

theorem startsWith_head? {kind : Token.Kind} {ts us : List Token} (h : us.head? = ts.head?) :
    startsWith kind us = startsWith kind ts := by
  have hany : ∀ vs, startsWith kind vs = vs.head?.any (·.kind == kind) := fun vs => by
    cases vs <;> rfl
  rw [hany, hany, h]

theorem expect_cons {kind : Token.Kind} {t : Token} (h : t.kind = kind) (ts : List Token) :
    expect kind (t :: ts) = .ok (t, ts) := by
  rw [expect, if_pos h]

theorem expect_eq_ok {kind : Token.Kind} {ts rest : List Token} {t : Token} :
    expect kind ts = .ok (t, rest) ↔ ts = t :: rest ∧ t.kind = kind := by
  constructor
  · intro h
    cases expect_suffix h
    rw [expect] at h
    split at h
    · next hkind => exact ⟨rfl, hkind⟩
    · cases h
  · rintro ⟨rfl, hkind⟩
    exact expect_cons hkind rest

theorem expectValue_eq_ok {kinds : List Token.Kind} {ts rest : List Token} {v : String} :
    expectValue kinds ts = .ok (v, rest) ↔ ∃ passed, ts = passed ++ rest ∧ IsOneOf kinds passed v := by
  constructor
  · intro h
    cases ts with
    | nil => cases h
    | cons t ts =>
      rw [expectValue] at h
      split at h
      · next hkind =>
        cases h
        exact ⟨[t], rfl, .mk (by simpa using hkind)⟩
      · cases h
  · rintro ⟨_, rfl, ⟨hkind⟩⟩
    rw [List.singleton_append, expectValue, if_pos (by simpa using hkind)]

/-! ## Brackets -/

theorem bracketed_eq_ok {b : Bracket} {ts rest : List Token} {r : Token × Token} :
    bracketed b ts = .ok (r, rest) ↔ ∃ passed, ts = passed ++ rest ∧ IsBracketed b passed r := by
  constructor
  · intro h
    obtain ⟨⟨first, ts₁⟩, hfirst, h⟩ := bind_eq_ok h
    obtain ⟨⟨inner, ts₂⟩, hinner, h⟩ := bind_eq_ok h
    obtain ⟨⟨last, ts₃⟩, hlast, h⟩ := bind_eq_ok h
    cases h
    obtain ⟨rfl, hopening⟩ := expect_eq_ok.1 hfirst
    obtain ⟨rfl, hbalanced, -, -⟩ := passBalanced_eq_ok.1 hinner
    obtain ⟨rfl, hclosing⟩ := expect_eq_ok.1 hlast
    exact ⟨first :: (inner ++ [last]), by simp, .mk hopening hbalanced hclosing⟩
  · rintro ⟨_, rfl, ⟨hfirst, hinner, hlast⟩⟩
    next first last inner =>
    have hpass : passBalanced (startsWith (closing b)) [] (inner ++ last :: rest) =
        .ok (inner, last :: rest) := by
      refine passBalanced_eq_ok.2 ⟨rfl, hinner, ?_, .inr (by simp [hlast])⟩
      rintro before t after rfl hbefore
      simpa using hbefore.kind_ne_closing hinner b
    rw [List.cons_append, List.append_assoc, List.singleton_append, bracketed, expect_cons hfirst,
      bind_ok]
    simp only [hpass, bind_ok, expect_cons hlast]
    rfl

theorem block_eq_ok {ts rest : List Token} {r : Span × Token} :
    block ts = .ok (r, rest) ↔ ∃ passed, ts = passed ++ rest ∧ IsBlock passed r := by
  constructor
  · intro h
    obtain ⟨⟨⟨first, last⟩, ts₁⟩, hb, h⟩ := bind_eq_ok h
    cases h
    obtain ⟨passed, rfl, hpassed⟩ := bracketed_eq_ok.1 hb
    exact ⟨passed, rfl, .mk hpassed⟩
  · rintro ⟨passed, rfl, ⟨hpassed⟩⟩
    rw [block, bracketed_eq_ok.2 ⟨passed, rfl, hpassed⟩]
    rfl

theorem IsBracketed.startsWith {b : Bracket} {ts : List Token} {r : Token × Token}
    (h : IsBracketed b ts r) (kind : Token.Kind) (rest : List Token) :
    startsWith kind (ts ++ rest) = (opening b == kind) := by
  obtain ⟨hfirst, -, -⟩ := h
  simp [hfirst]

theorem IsBlock.startsWith {ts : List Token} {r : Span × Token} (h : IsBlock ts r)
    (kind : Token.Kind) (rest : List Token) :
    startsWith kind (ts ++ rest) = (opening .curly == kind) := by
  obtain ⟨h⟩ := h
  exact h.startsWith kind rest

/-! ## Types -/

theorem typeArguments_sound {head last : Token} {ts rest : List Token}
    (hhead : head.kind = .typeName) (h : typeArguments head ts = .ok (last, rest)) :
    ∃ passed, ts = passed ++ rest ∧ IsType (head :: passed) (spanOf head last) ∧
      (passed = [] → ¬ ArgumentsFollow head rest) := by
  cases ts with
  | nil =>
    cases h
    refine ⟨[], rfl, .bare hhead, ?_⟩
    rintro - ⟨t, more, he, -⟩
    cases he
  | cons t ts =>
    rw [typeArguments] at h
    split at h
    · next hadjacent =>
      obtain ⟨⟨⟨first, last⟩, ts₁⟩, hb, h⟩ := bind_eq_ok h
      cases h
      obtain ⟨passed, he, hpassed⟩ := bracketed_eq_ok.1 hb
      rw [he]
      refine ⟨passed, rfl, ?_, ?_⟩
      · refine .applied hhead hpassed ?_
        obtain ⟨-, -, -⟩ := hpassed
        cases he
        exact hadjacent.2
      · rintro rfl
        cases hpassed
    · next hnot =>
      cases h
      refine ⟨[], rfl, .bare hhead, ?_⟩
      rintro - ⟨t', more, he, hkind, hstart⟩
      cases he
      exact hnot ⟨hkind, hstart⟩

theorem typeArguments_bare {head : Token} {rest : List Token} (h : ¬ ArgumentsFollow head rest) :
    typeArguments head rest = .ok (head, rest) := by
  cases rest with
  | nil => rfl
  | cons t ts =>
    rw [typeArguments, if_neg]
    rintro ⟨hkind, hstart⟩
    exact h ⟨t, ts, rfl, hkind, hstart⟩

theorem typeArguments_applied {head first last : Token} {ts : List Token}
    (h : IsBracketed .square ts (first, last)) (adjacent : first.start.offset = head.stop)
    (rest : List Token) : typeArguments head (ts ++ rest) = .ok (last, rest) := by
  have hb : bracketed .square (ts ++ rest) = .ok ((first, last), rest) :=
    bracketed_eq_ok.2 ⟨ts, rfl, h⟩
  obtain ⟨hfirst, -, -⟩ := h
  rw [List.cons_append] at hb ⊢
  rw [typeArguments, if_pos ⟨hfirst, adjacent⟩, hb]
  rfl

/-- A type starts with its name, and its arguments are read back where none can follow a bare
name. -/
theorem IsType.arguments {ts : List Token} {s : Span} (h : IsType ts s) :
    ∃ head args last, ts = head :: args ∧ head.kind = .typeName ∧ s = spanOf head last ∧
      ∀ rest, (args = [] → ¬ ArgumentsFollow head rest) →
        typeArguments head (args ++ rest) = .ok (last, rest) := by
  cases h with
  | @bare head hhead =>
    exact ⟨head, [], head, rfl, hhead, rfl, fun rest hrest => typeArguments_bare (hrest rfl)⟩
  | @applied head first last args hhead harguments adjacent =>
    exact ⟨head, args, last, rfl, hhead, rfl,
      fun rest _ => typeArguments_applied harguments adjacent rest⟩

theorem not_argumentsFollow {head : Token} {rest : List Token}
    (h : startsWith (opening .square) rest = false) : ¬ ArgumentsFollow head rest := by
  rintro ⟨t, more, rfl, hkind, -⟩
  simp [hkind] at h

theorem typeExpression_sound {ts rest : List Token} {s : Span}
    (h : typeExpression ts = .ok (s, rest)) : ∃ passed, ts = passed ++ rest ∧ IsType passed s := by
  obtain ⟨⟨head, ts₁⟩, hhead, h⟩ := bind_eq_ok h
  obtain ⟨⟨last, ts₂⟩, hlast, h⟩ := bind_eq_ok h
  cases h
  obtain ⟨rfl, hkind⟩ := expect_eq_ok.1 hhead
  obtain ⟨passed, rfl, hpassed, -⟩ := typeArguments_sound hkind hlast
  exact ⟨head :: passed, rfl, hpassed⟩

theorem typeExpression_complete {ts rest : List Token} {s : Span} (h : IsType ts s)
    (ends : startsWith (opening .square) rest = false) :
    typeExpression (ts ++ rest) = .ok (s, rest) := by
  obtain ⟨head, args, last, rfl, hhead, rfl, hargs⟩ := h.arguments
  rw [List.cons_append, typeExpression, expect_cons hhead, bind_ok]
  simp only [hargs rest fun _ => not_argumentsFollow ends, bind_ok]
  rfl

theorem IsType.startsWith {ts : List Token} {s : Span} (h : IsType ts s) (kind : Token.Kind)
    (rest : List Token) : startsWith kind (ts ++ rest) = (Token.Kind.typeName == kind) := by
  cases h with
  | bare hhead => simp [hhead]
  | applied hhead _ _ => simp [hhead]

theorem optionalType_sound {ts rest : List Token} {type : Option Span}
    (h : optionalType ts = .ok (type, rest)) :
    ∃ passed, ts = passed ++ rest ∧ Maybe IsType passed type := by
  unfold optionalType at h
  split at h
  · obtain ⟨⟨s, ts₁⟩, hs, h⟩ := bind_eq_ok h
    cases h
    obtain ⟨passed, rfl, hpassed⟩ := typeExpression_sound hs
    exact ⟨passed, rfl, .some hpassed⟩
  · cases h
    exact ⟨[], rfl, .none⟩

theorem optionalType_complete {ts rest : List Token} {type : Option Span} (h : Maybe IsType ts type)
    (noName : startsWith .typeName rest = false)
    (ends : startsWith (opening .square) rest = false) :
    optionalType (ts ++ rest) = .ok (type, rest) := by
  cases h with
  | none => rw [List.nil_append, optionalType, noName]; rfl
  | some h =>
    rw [optionalType, h.startsWith, typeExpression_complete h ends]
    rfl

/-! ## Aliases -/

/-- The last token of a pair of brackets. -/
theorem IsBracketed.getLast? {b : Bracket} {ts : List Token} {first last : Token}
    (h : IsBracketed b ts (first, last)) : ts.getLast? = some last := by
  obtain ⟨-, -, -⟩ := h
  rw [← List.cons_append, List.getLast?_concat]

/-- The last token of a type: its name, or the bracket that closes its arguments. -/
theorem IsType.getLast? {ts : List Token} {s : Span} (h : IsType ts s) :
    ∃ last, ts.getLast? = some last ∧ last.stop = s.stop ∧
      (last.kind = .typeName ∨ last.kind = closing .square) := by
  cases h with
  | bare hhead => exact ⟨_, rfl, rfl, .inl hhead⟩
  | @applied head first last args hhead harguments adjacent =>
    refine ⟨last, ?_, rfl, .inr ?_⟩
    · obtain ⟨-, -, -⟩ := harguments
      rw [← List.cons_append, ← List.cons_append, List.getLast?_concat]
    · obtain ⟨-, -, hlast⟩ := harguments
      exact hlast

theorem IsBracketed.not_isType {b : Bracket} {ts : List Token} {r : Token × Token}
    (h : IsBracketed b ts r) : ¬ ∃ s, IsType ts s := by
  rintro ⟨s, hs⟩
  have hstart := hs.startsWith .typeName []
  rw [h.startsWith] at hstart
  simp [opening] at hstart

/-- A pair of brackets is a whole alias, whatever follows. -/
theorem IsBracketed.aliasEnds {b : Bracket} {ts : List Token} {r : Token × Token}
    (h : IsBracketed b ts r) (rest : List Token) : AliasEnds ts rest where
  noArguments head he := by
    obtain ⟨-, -, -⟩ := h
    simp at he
  noBraces hs := absurd hs h.not_isType

/-- So is a type with its part in braces. -/
theorem IsType.aliasEnds_braces {ts us : List Token} {s : Span} {r : Token × Token}
    (ht : IsType ts s) (hu : IsBracketed .curly us r) (rest : List Token) :
    AliasEnds (ts ++ us) rest where
  noArguments head he := by
    obtain ⟨head, args, _, rfl, _⟩ := ht.arguments
    obtain ⟨-, -, -⟩ := hu
    simp at he
  noBraces hs := by
    obtain ⟨s', hs'⟩ := hs
    obtain ⟨last, hlast, -, hkind⟩ := hs'.getLast?
    have hclosing : last.kind = closing .curly := by
      rw [List.getLast?_append, hu.getLast?, Option.some_or] at hlast
      cases hlast
      obtain ⟨-, -, hlast⟩ := hu
      exact hlast
    rw [hclosing] at hkind
    rcases hkind with hkind | hkind <;> simp [closing] at hkind

theorem aliasedType_sound {ts rest : List Token} {s : Span}
    (h : aliasedType ts = .ok (s, rest)) :
    ∃ passed, ts = passed ++ rest ∧ IsAliased passed s ∧ AliasEnds passed rest := by
  unfold aliasedType at h
  split at h
  · obtain ⟨⟨⟨first, last⟩, ts₁⟩, hb, h⟩ := bind_eq_ok h
    cases h
    obtain ⟨passed, rfl, hpassed⟩ := bracketed_eq_ok.1 hb
    exact ⟨passed, rfl, .alone (.inl rfl) hpassed, hpassed.aliasEnds rest⟩
  · split at h
    · obtain ⟨⟨⟨first, last⟩, ts₁⟩, hb, h⟩ := bind_eq_ok h
      cases h
      obtain ⟨passed, rfl, hpassed⟩ := bracketed_eq_ok.1 hb
      exact ⟨passed, rfl, .alone (.inr rfl) hpassed, hpassed.aliasEnds rest⟩
    · obtain ⟨⟨head, ts₁⟩, hhead, hthen⟩ := bind_eq_ok h
      obtain ⟨⟨last, ts₂⟩, hlast, hend⟩ := bind_eq_ok hthen
      obtain ⟨rfl, hkind⟩ := expect_eq_ok.1 hhead
      obtain ⟨args, rfl, htype, hbare⟩ := typeArguments_sound hkind hlast
      clear h hthen
      dsimp only at hend
      split at hend
      · obtain ⟨⟨⟨first, last'⟩, ts₃⟩, hb, hend⟩ := bind_eq_ok hend
        cases hend
        obtain ⟨braces, rfl, hbraces⟩ := bracketed_eq_ok.1 hb
        exact ⟨head :: args ++ braces, by simp, .braced htype hbraces,
          htype.aliasEnds_braces hbraces _⟩
      · next hcurly =>
        cases hend
        refine ⟨head :: args, rfl, .type htype, ⟨?_, fun _ => by simpa using hcurly⟩⟩
        intro head' he
        cases he
        exact hbare rfl

theorem aliasedType_complete {ts rest : List Token} {s : Span} (h : IsAliased ts s)
    (ends : AliasEnds ts rest) : aliasedType (ts ++ rest) = .ok (s, rest) := by
  cases h with
  | type h =>
    have hcurly := ends.noBraces ⟨s, h⟩
    obtain ⟨head, args, last, rfl, hhead, rfl, hargs⟩ := h.arguments
    have hlast := hargs rest fun hnil => ends.noArguments head (by rw [hnil])
    simp only [List.cons_append, aliasedType, startsWith_cons, hhead, expect_cons hhead, bind_ok,
      hlast, hcurly]
    rfl
  | @braced ts braces s first last h hbraces =>
    obtain ⟨head, args, last', rfl, hhead, rfl, hargs⟩ := h.arguments
    have hlast := hargs (braces ++ rest) fun _ => not_argumentsFollow (hbraces.startsWith _ rest)
    simp only [List.cons_append, List.append_assoc, aliasedType, startsWith_cons, hhead,
      expect_cons hhead, bind_ok, hlast, hbraces.startsWith,
      bracketed_eq_ok.2 ⟨braces, rfl, hbraces⟩]
    rfl
  | @alone b ts first last hb h =>
    rw [aliasedType, h.startsWith, h.startsWith]
    rcases hb with rfl | rfl <;> rw [bracketed_eq_ok.2 ⟨ts, rfl, h⟩] <;> rfl

end ManifestDocs.Grammar
