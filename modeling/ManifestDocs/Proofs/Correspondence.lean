/-
Corresponding tokens. Of the tokens, the grammar looks at their kinds and values, and at whether the
square bracket after a type name follows it directly; where they stand only goes into the spans of
what is read. So two token lists that correspond in this are read alike: the same readings succeed,
with corresponding results, and where they fail they fail at corresponding tokens (`items_alike`).

What it means for tokens and spans to correspond is left open (`Correspondence`): they may stand
further on in a text, or be laid out in another way.
-/
import Mathlib.Data.List.Forall2
import ManifestDocs.Proofs.Items

namespace ManifestDocs

/-! ## Results with corresponding excerpts -/

section Alike

variable {ε ζ : Type} (S : ε → ζ → Prop)

/-- The same parameter but for its excerpts, which correspond. -/
inductive Parameter.Alike : Parameter ε → Parameter ζ → Prop
  | mk {type value : Option ε} {type' value' : Option ζ} (name : String) (star : Bool)
      (htype : Option.Rel S type type') (hvalue : Option.Rel S value value') :
      Parameter.Alike ⟨name, type, value, star⟩ ⟨name, type', value', star⟩

/-- The same definition but for its excerpts, which correspond. -/
inductive Definition.Alike : Definition ε → Definition ζ → Prop
  | hostClass {ps : List (Parameter ε)} {ps' : List (Parameter ζ)} {body : ε} {body' : ζ}
      (name : String) (parent : Option String) (hps : List.Forall₂ (Parameter.Alike S) ps ps')
      (hbody : S body body') :
      Definition.Alike (.hostClass name ps parent body) (.hostClass name ps' parent body')
  | definedType {ps : List (Parameter ε)} {ps' : List (Parameter ζ)} {body : ε} {body' : ζ}
      (name : String) (hps : List.Forall₂ (Parameter.Alike S) ps ps') (hbody : S body body') :
      Definition.Alike (.definedType name ps body) (.definedType name ps' body')
  | function {ps : List (Parameter ε)} {ps' : List (Parameter ζ)} {returns : Option ε}
      {returns' : Option ζ} {body : ε} {body' : ζ} (name : String)
      (hps : List.Forall₂ (Parameter.Alike S) ps ps') (hreturns : Option.Rel S returns returns')
      (hbody : S body body') :
      Definition.Alike (.function name ps returns body) (.function name ps' returns' body')
  | plan {ps : List (Parameter ε)} {ps' : List (Parameter ζ)} {body : ε} {body' : ζ}
      (name : String) (hps : List.Forall₂ (Parameter.Alike S) ps ps') (hbody : S body body') :
      Definition.Alike (.plan name ps body) (.plan name ps' body')
  | typeAlias {type : ε} {type' : ζ} (name : String) (htype : S type type') :
      Definition.Alike (.typeAlias name type) (.typeAlias name type')
  | node {body : ε} {body' : ζ} (hosts : List String) (parent : Option String)
      (hbody : S body body') : Definition.Alike (.node hosts parent body) (.node hosts parent body')

/-- The same sort of item, with corresponding excerpts if it is a definition. -/
inductive Form.Alike : Form ε → Form ζ → Prop
  | definition {d : Definition ε} {d' : Definition ζ} (h : Definition.Alike S d d') :
      Form.Alike (.definition d) (.definition d')
  | expression : Form.Alike .expression .expression

variable {S} {η : Type} {f : ε → η} {g : ζ → η} (hfg : ∀ s s', S s s' → f s = g s')

include hfg

theorem map_eq_of_rel {o : Option ε} {o' : Option ζ} (h : Option.Rel S o o') :
    o.map f = o'.map g := by
  cases h with
  | none => rfl
  | some h => exact congrArg some (hfg _ _ h)

theorem map_eq_of_forall₂ {l : List ε} {l' : List ζ} (h : List.Forall₂ S l l') :
    l.map f = l'.map g := by
  rw [← List.forall₂_eq_eq_eq, List.forall₂_map_left_iff, List.forall₂_map_right_iff]
  exact h.imp hfg

theorem Parameter.Alike.map_eq {p : Parameter ε} {p' : Parameter ζ} (h : Parameter.Alike S p p') :
    p.map f = p'.map g := by
  obtain ⟨name, star, htype, hvalue⟩ := h
  simp only [Parameter.map, map_eq_of_rel hfg htype, map_eq_of_rel hfg hvalue]

theorem Parameter.Alike.all_map_eq {ps : List (Parameter ε)} {ps' : List (Parameter ζ)}
    (h : List.Forall₂ (Parameter.Alike S) ps ps') : ps.map (·.map f) = ps'.map (·.map g) :=
  map_eq_of_forall₂ (fun _ _ h => h.map_eq hfg) h

/-- Functions that agree on corresponding excerpts make definitions the same. -/
theorem Definition.Alike.map_eq {d : Definition ε} {d' : Definition ζ}
    (h : Definition.Alike S d d') : d.map f = d'.map g := by
  cases h with
  | hostClass name parent hps hbody =>
    simp only [Definition.map, Parameter.Alike.all_map_eq hfg hps, hfg _ _ hbody]
  | definedType name hps hbody | plan name hps hbody =>
    simp only [Definition.map, Parameter.Alike.all_map_eq hfg hps, hfg _ _ hbody]
  | function name hps hreturns hbody =>
    simp only [Definition.map, Parameter.Alike.all_map_eq hfg hps, map_eq_of_rel hfg hreturns,
      hfg _ _ hbody]
  | typeAlias name htype => simp only [Definition.map, hfg _ _ htype]
  | node hosts parent hbody => simp only [Definition.map, hfg _ _ hbody]

theorem Form.Alike.map_eq {form : Form ε} {form' : Form ζ} (h : Form.Alike S form form') :
    form.map f = form'.map g := by
  cases h with
  | definition h => exact congrArg Form.definition (h.map_eq hfg)
  | expression => rfl

end Alike

namespace Grammar

/-! ## Corresponding tokens -/

/-- What it means for tokens and for spans to correspond. -/
structure Correspondence where
  tokens : Token → Token → Prop
  spans : Span → Span → Prop
  kind : ∀ {t u}, tokens t u → t.kind = u.kind
  value : ∀ {t u}, tokens t u → t.value = u.value
  /-- From the start of a token to the end of another. -/
  outer : ∀ {t u t' u'}, tokens t u → tokens t' u' → spans (spanOf t t') (spanOf u u')
  /-- From the end of a token to the start of another. -/
  inner : ∀ {t u t' u'}, tokens t u → tokens t' u' →
    spans ⟨t.stop, t'.start.offset⟩ ⟨u.stop, u'.start.offset⟩

namespace Correspondence

variable (C : Correspondence)

/-- The ends of corresponding tokens. -/
def Stops (n n' : Nat) : Prop :=
  ∃ t u, C.tokens t u ∧ t.stop = n ∧ u.stop = n'

/-- Token lists of corresponding tokens, in which square brackets follow type names directly at the
same places. -/
inductive Lists : List Token → List Token → Prop
  | nil : Lists [] []
  | cons {t u : Token} {ts us : List Token} (h : C.tokens t u)
      (adjacent : t.kind = .typeName → (ArgumentsFollow t ts ↔ ArgumentsFollow u us))
      (more : Lists ts us) : Lists (t :: ts) (u :: us)

/-- Readings that succeed with corresponding results and rests, or fail at corresponding tokens. -/
inductive Both {α β : Type} (R : α → β → Prop) :
    Except Rejected (α × List Token) → Except Rejected (β × List Token) → Prop
  | ok {a : α} {b : β} {ts us : List Token} (h : R a b) (rest : C.Lists ts us) :
      Both R (.ok (a, ts)) (.ok (b, us))
  | error {ts us : List Token} (rest : C.Lists ts us) : Both R (.error ts) (.error us)

/-- Items of the same sort that reach from and to corresponding tokens. -/
inductive Items : Item Span → Item Span → Prop
  | mk {t u t' u' : Token} {form form' : Form Span} (first : C.tokens t u) (last : C.tokens t' u')
      (hform : Form.Alike C.spans form form') :
      Items (itemAt t t'.stop form) (itemAt u u'.stop form')

variable {C}

theorem Both.bind_eq {α β γ δ : Type} {R : α → β → Prop} {S : γ → δ → Prop}
    {x : Except Rejected (α × List Token)} {y : Except Rejected (β × List Token)}
    {f : α × List Token → Except Rejected (γ × List Token)}
    {g : β × List Token → Except Rejected (δ × List Token)} (h : C.Both R x y)
    (hf : ∀ {a b ts us}, x = .ok (a, ts) → R a b → C.Lists ts us →
      C.Both S (f (a, ts)) (g (b, us))) : C.Both S (x >>= f) (y >>= g) := by
  cases h with
  | ok h rest => exact hf rfl h rest
  | error rest => exact .error rest

theorem Both.bind {α β γ δ : Type} {R : α → β → Prop} {S : γ → δ → Prop}
    {x : Except Rejected (α × List Token)} {y : Except Rejected (β × List Token)}
    {f : α × List Token → Except Rejected (γ × List Token)}
    {g : β × List Token → Except Rejected (δ × List Token)} (h : C.Both R x y)
    (hf : ∀ {a b ts us}, R a b → C.Lists ts us → C.Both S (f (a, ts)) (g (b, us))) :
    C.Both S (x >>= f) (y >>= g) :=
  h.bind_eq fun _ => hf

theorem Both.of_ok {α β : Type} {R : α → β → Prop} {a : α} {ts : List Token}
    {x : Except Rejected (α × List Token)} {y : Except Rejected (β × List Token)}
    (h : C.Both R x y) (hx : x = .ok (a, ts)) :
    ∃ b us, y = .ok (b, us) ∧ R a b ∧ C.Lists ts us := by
  cases h with
  | ok h rest =>
    cases hx
    exact ⟨_, _, rfl, h, rest⟩
  | error => cases hx

theorem Both.of_error {α β : Type} {R : α → β → Prop} {ts : List Token}
    {x : Except Rejected (α × List Token)} {y : Except Rejected (β × List Token)}
    (h : C.Both R x y) (hx : x = .error ts) : ∃ us, y = .error us ∧ C.Lists ts us := by
  cases h with
  | ok => cases hx
  | error rest =>
    cases hx
    exact ⟨_, rfl, rest⟩

end Correspondence

open Correspondence

variable {C : Correspondence} {ts us : List Token}

theorem startsWith_alike (h : C.Lists ts us) (kind : Token.Kind) :
    startsWith kind ts = startsWith kind us := by
  cases h with
  | nil => rfl
  | cons h _ _ => rw [startsWith_cons, startsWith_cons, C.kind h]

theorem isName_alike {t u : Token} (h : C.tokens t u) (word : String) :
    t.isName word = u.isName word := by
  rw [Token.isName, Token.isName, C.kind h, C.value h]

/-! ## Single tokens and brackets -/

theorem expect_alike (h : C.Lists ts us) (kind : Token.Kind) :
    C.Both C.tokens (expect kind ts) (expect kind us) := by
  cases h with
  | nil => exact .error .nil
  | cons h adjacent more =>
    rw [expect, expect, C.kind h]
    split
    · exact .ok h more
    · exact .error (.cons h adjacent more)

theorem expectValue_alike (h : C.Lists ts us) (kinds : List Token.Kind) :
    C.Both (· = ·) (expectValue kinds ts) (expectValue kinds us) := by
  cases h with
  | nil => exact .error .nil
  | cons h adjacent more =>
    rw [expectValue, expectValue, C.kind h, C.value h]
    split
    · exact .ok rfl more
    · exact .error (.cons h adjacent more)

/-- An optional part is read alike if the part is, and the token that announces it is the same for
both. -/
theorem optionalAfter_alike {α β : Type} {R : α → β → Prop} {announces : Token → Bool}
    {f : List Token → Except Rejected (α × List Token)}
    {g : List Token → Except Rejected (β × List Token)} (h : C.Lists ts us)
    (hsame : ∀ {t u}, C.tokens t u → announces t = announces u)
    (hpart : ∀ {ts us}, C.Lists ts us → C.Both R (f ts) (g us)) :
    C.Both (Option.Rel R) (optionalAfter announces f ts) (optionalAfter announces g us) := by
  cases h with
  | nil => exact .ok .none .nil
  | cons h adjacent more =>
    rw [optionalAfter, optionalAfter, hsame h]
    split
    · exact (hpart more).bind fun ha h => .ok (.some ha) h
    · exact .ok .none (.cons h adjacent more)

theorem passBalanced_alike {stop : List Token → Bool}
    (hstop : ∀ {ts us}, C.Lists ts us → stop ts = stop us) (h : C.Lists ts us)
    (inside : List Bracket) :
    C.Both (List.Forall₂ C.tokens) (passBalanced stop inside ts) (passBalanced stop inside us) := by
  induction h generalizing inside with
  | nil =>
    rw [passBalanced]
    split
    · exact .ok .nil .nil
    · exact .error .nil
  | @cons t u ts us h adjacent more ih =>
    have hall := Lists.cons h adjacent more
    rw [passBalanced, passBalanced, hstop hall, C.kind h]
    split
    · exact .ok .nil hall
    · split
      · exact .error hall
      · next inside' _ =>
        cases hpass : passBalanced stop inside' ts with
        | error rejected =>
          obtain ⟨rejected', hpass', hrest⟩ := (ih inside').of_error hpass
          rw [hpass']
          exact .error hrest
        | ok r =>
          obtain ⟨passed', rest', hpass', hpassed, hrest⟩ := (ih inside').of_ok hpass
          rw [hpass']
          exact .ok (.cons h hpassed) hrest

theorem bracketed_alike (h : C.Lists ts us) (b : Bracket) :
    C.Both (fun r r' => C.tokens r.1 r'.1 ∧ C.tokens r.2 r'.2) (bracketed b ts) (bracketed b us) := by
  refine (expect_alike h _).bind fun hfirst h => ?_
  refine (passBalanced_alike (fun h => startsWith_alike h _) h []).bind fun _ h => ?_
  exact (expect_alike h _).bind fun hlast h => .ok ⟨hfirst, hlast⟩ h

theorem block_alike (h : C.Lists ts us) :
    C.Both (fun r r' => C.spans r.1 r'.1 ∧ C.tokens r.2 r'.2) (block ts) (block us) :=
  (bracketed_alike h .curly).bind fun hr h => .ok ⟨C.inner hr.1 hr.2, hr.2⟩ h

/-! ## Types -/

theorem typeArguments_follow {head : Token} (h : ArgumentsFollow head ts) :
    typeArguments head ts = bracketed .square ts >>= fun r => .ok (r.1.2, r.2) := by
  obtain ⟨t, more, rfl, hkind, hstart⟩ := h
  rw [typeArguments, if_pos ⟨hkind, hstart⟩]
  rfl

theorem typeArguments_alike {head head' : Token} (hhead : C.tokens head head') (h : C.Lists ts us)
    (adjacent : ArgumentsFollow head ts ↔ ArgumentsFollow head' us) :
    C.Both C.tokens (typeArguments head ts) (typeArguments head' us) := by
  by_cases hfollow : ArgumentsFollow head ts
  · rw [typeArguments_follow hfollow, typeArguments_follow (adjacent.1 hfollow)]
    exact (bracketed_alike h .square).bind fun hr h => .ok hr.2 h
  · rw [typeArguments_bare hfollow, typeArguments_bare (mt adjacent.2 hfollow)]
    exact .ok hhead h

/-- After a type name it is known whether its arguments follow. -/
theorem typeName_alike {α β : Type} {R : α → β → Prop}
    {f : Token × List Token → Except Rejected (α × List Token)}
    {g : Token × List Token → Except Rejected (β × List Token)} (h : C.Lists ts us)
    (hf : ∀ {head head' ts us}, C.tokens head head' → C.Lists ts us →
      C.Both C.tokens (typeArguments head ts) (typeArguments head' us) →
      C.Both R (f (head, ts)) (g (head', us))) :
    C.Both R (expect .typeName ts >>= f) (expect .typeName us >>= g) := by
  cases h with
  | nil => exact .error .nil
  | @cons t u ts us h adjacent more =>
    by_cases hkind : t.kind = .typeName
    · rw [expect_cons hkind, expect_cons (C.kind h ▸ hkind)]
      exact hf h more (typeArguments_alike h more (adjacent hkind))
    · rw [expect, expect, if_neg hkind, if_neg (C.kind h ▸ hkind)]
      exact .error (.cons h adjacent more)

theorem typeExpression_alike (h : C.Lists ts us) :
    C.Both C.spans (typeExpression ts) (typeExpression us) :=
  typeName_alike h fun hhead _ harguments =>
    harguments.bind fun hlast h => .ok (C.outer hhead hlast) h

theorem optionalType_alike (h : C.Lists ts us) :
    C.Both (Option.Rel C.spans) (optionalType ts) (optionalType us) := by
  rw [optionalType, optionalType, startsWith_alike h]
  split
  · exact (typeExpression_alike h).bind fun htype h => .ok (.some htype) h
  · exact .ok .none h

theorem spanOf_alike {t u t' u' : Token} (h : C.tokens t u) (h' : C.tokens t' u') :
    C.spans (spanOf t t') (spanOf u u') ∧ C.Stops (spanOf t t').stop (spanOf u u').stop :=
  ⟨C.outer h h', t', u', h', rfl, rfl⟩

theorem aliasedType_alike (h : C.Lists ts us) :
    C.Both (fun s s' => C.spans s s' ∧ C.Stops s.stop s'.stop) (aliasedType ts) (aliasedType us) := by
  rw [aliasedType, aliasedType, startsWith_alike h, startsWith_alike h]
  split
  · exact (bracketed_alike h .curly).bind fun hr h => .ok (spanOf_alike hr.1 hr.2) h
  · split
    · exact (bracketed_alike h .square).bind fun hr h => .ok (spanOf_alike hr.1 hr.2) h
    · refine typeName_alike h fun hhead _ harguments => harguments.bind fun hlast h => ?_
      simp only [startsWith_alike h]
      split
      · exact (bracketed_alike h .curly).bind fun hr h => .ok (spanOf_alike hhead hr.2) h
      · exact .ok (spanOf_alike hhead hlast) h

/-! ## Parameters -/

theorem endsValue_alike (h : C.Lists ts us) : endsValue ts = endsValue us := by
  rw [endsValue, endsValue, startsWith_alike h, startsWith_alike h]

theorem getLast_alike {t u : Token} (h : C.tokens t u) (hmore : List.Forall₂ C.tokens ts us) :
    C.tokens (ts.getLast?.getD t) (us.getLast?.getD u) := by
  induction hmore generalizing t u with
  | nil => exact h
  | cons h' _ ih =>
    rw [List.getLast?_cons, List.getLast?_cons]
    exact ih h'

theorem defaultValue_alike (h : C.Lists ts us) :
    C.Both C.spans (defaultValue ts) (defaultValue us) := by
  have hpass := passBalanced_alike endsValue_alike h []
  rw [defaultValue, defaultValue]
  revert hpass
  generalize passBalanced endsValue [] ts = x
  generalize passBalanced endsValue [] us = y
  intro hpass
  cases hpass with
  | error rest => exact .error rest
  | ok hpassed rest =>
    cases hpassed with
    | nil => exact .error rest
    | cons h more => exact .ok (C.outer h (getLast_alike h more)) rest

theorem optionalValue_alike (h : C.Lists ts us) :
    C.Both (Option.Rel C.spans) (optionalValue ts) (optionalValue us) :=
  optionalAfter_alike h (fun h => by rw [C.kind h]) defaultValue_alike

theorem optionalStar_alike (h : C.Lists ts us) :
    (optionalStar ts).1 = (optionalStar us).1 ∧ C.Lists (optionalStar ts).2 (optionalStar us).2 := by
  cases h with
  | nil => exact ⟨rfl, .nil⟩
  | cons h adjacent more =>
    rw [optionalStar, optionalStar, C.kind h]
    split
    · exact ⟨rfl, more⟩
    · exact ⟨rfl, .cons h adjacent more⟩

theorem parameter_alike (h : C.Lists ts us) :
    C.Both (Parameter.Alike C.spans) (parameter ts) (parameter us) := by
  refine (optionalType_alike h).bind fun htype h => ?_
  obtain ⟨hstar, h⟩ := optionalStar_alike h
  refine (expect_alike h _).bind fun hname h => ?_
  refine (optionalValue_alike h).bind fun hvalue h => ?_
  simp only [hstar, C.value hname]
  exact .ok (.mk _ _ htype hvalue) h

theorem tail_alike (h : C.Lists ts us) : C.Lists ts.tail us.tail := by
  cases h with
  | nil => exact .nil
  | cons _ _ more => exact more

theorem parameters_alike {ts us : List Token} (h : C.Lists ts us) :
    C.Both (List.Forall₂ (Parameter.Alike C.spans)) (parameters ts) (parameters us) := by
  rw [parameters_eq ts, parameters_eq us, startsWith_alike h]
  split
  · exact .ok .nil (tail_alike h)
  · refine (parameter_alike h).bind_eq fun {p p' rest rest'} hp hsame hrest => ?_
    have hlt := parameter_length hp
    simp only [startsWith_alike hrest]
    split
    · exact .ok (.cons hsame .nil) (tail_alike hrest)
    · split
      · exact (parameters_alike (tail_alike hrest)).bind fun hps h => .ok (.cons hsame hps) h
      · exact .error hrest
termination_by ts.length
decreasing_by
  rw [List.length_tail]
  omega

theorem optionalParameters_alike (h : C.Lists ts us) :
    C.Both (List.Forall₂ (Parameter.Alike C.spans)) (optionalParameters ts)
      (optionalParameters us) := by
  cases h with
  | nil => exact .ok .nil .nil
  | cons h adjacent more =>
    rw [optionalParameters, optionalParameters, C.kind h]
    split
    · exact parameters_alike more
    · exact .ok .nil (.cons h adjacent more)

/-! ## Hosts, parents and return types -/

theorem hosts_alike {ts us : List Token} (h : C.Lists ts us) :
    C.Both (· = ·) (hosts ts) (hosts us) := by
  rw [hosts_eq ts, hosts_eq us]
  refine (expectValue_alike h _).bind_eq fun {v v' rest rest'} hv hsame hrest => ?_
  have hlt : rest.length < ts.length := by
    obtain ⟨passed, rfl, ⟨_⟩⟩ := expectValue_eq_ok.1 hv
    simp
  subst hsame
  simp only [startsWith_alike hrest, startsWith_alike (tail_alike hrest)]
  split
  · split
    · exact .ok rfl (tail_alike hrest)
    · exact (hosts_alike (tail_alike hrest)).bind fun hmore h => .ok (congrArg _ hmore) h
  · exact .ok rfl hrest
termination_by ts.length
decreasing_by
  rw [List.length_tail]
  omega

theorem eq_of_rel {α : Type} {x y : Option α} (h : Option.Rel (· = ·) x y) : x = y := by
  cases h with
  | none => rfl
  | some h => rw [h]

theorem optionalParent_alike (h : C.Lists ts us) (kinds : List Token.Kind) :
    C.Both (Option.Rel (· = ·)) (optionalParent kinds ts) (optionalParent kinds us) :=
  optionalAfter_alike h (fun h => isName_alike h _) fun h => expectValue_alike h kinds

theorem optionalReturn_alike (h : C.Lists ts us) :
    C.Both (Option.Rel C.spans) (optionalReturn ts) (optionalReturn us) :=
  optionalAfter_alike h (fun h => by rw [C.kind h]) typeExpression_alike

/-! ## Definitions and items -/

theorem leading?_alike (h : C.Lists ts us) (tasks : Bool) :
    leading? tasks ts = leading? tasks us := by
  cases h with
  | nil => rfl
  | cons h _ more =>
    simp only [leading?, isName_alike h, startsWith_alike more, startsWith_alike (tail_alike more)]

/-- The results of definitions. -/
abbrev Correspondence.Definitions (C : Correspondence) (r r' : Definition Span × Nat) : Prop :=
  Definition.Alike C.spans r.1 r'.1 ∧ C.Stops r.2 r'.2

theorem definition_alike (h : C.Lists ts us) (keyword : Keyword) :
    C.Both C.Definitions (definition keyword ts) (definition keyword us) := by
  cases keyword with
  | hostClass =>
    refine (expect_alike h _).bind fun hname h => ?_
    refine (optionalParameters_alike h).bind fun hps h => ?_
    refine (optionalParent_alike h _).bind fun hparent h => ?_
    refine (block_alike h).bind fun hr h => ?_
    obtain rfl := eq_of_rel hparent
    rw [C.value hname]
    exact .ok ⟨.hostClass _ _ hps hr.1, _, _, hr.2, rfl, rfl⟩ h
  | definedType =>
    refine (expect_alike h _).bind fun hname h => ?_
    refine (optionalParameters_alike h).bind fun hps h => ?_
    refine (block_alike h).bind fun hr h => ?_
    rw [C.value hname]
    exact .ok ⟨.definedType _ hps hr.1, _, _, hr.2, rfl, rfl⟩ h
  | function =>
    refine (expect_alike h _).bind fun hname h => ?_
    refine (optionalParameters_alike h).bind fun hps h => ?_
    refine (optionalReturn_alike h).bind fun hreturns h => ?_
    refine (block_alike h).bind fun hr h => ?_
    rw [C.value hname]
    exact .ok ⟨.function _ hps hreturns hr.1, _, _, hr.2, rfl, rfl⟩ h
  | plan =>
    refine (expect_alike h _).bind fun hname h => ?_
    refine (optionalParameters_alike h).bind fun hps h => ?_
    refine (block_alike h).bind fun hr h => ?_
    rw [C.value hname]
    exact .ok ⟨.plan _ hps hr.1, _, _, hr.2, rfl, rfl⟩ h
  | typeAlias =>
    refine (expect_alike h _).bind fun hname h => ?_
    refine (expect_alike h _).bind fun _ h => ?_
    refine (aliasedType_alike h).bind fun htype h => ?_
    rw [C.value hname]
    exact .ok ⟨.typeAlias _ htype.1, htype.2⟩ h
  | node =>
    refine (hosts_alike h).bind fun hhosts h => ?_
    refine (optionalParent_alike h _).bind fun hparent h => ?_
    refine (block_alike h).bind fun hr h => ?_
    obtain rfl := eq_of_rel hparent
    subst hhosts
    exact .ok ⟨.node _ _ hr.1, _, _, hr.2, rfl, rfl⟩ h

theorem item_alike {t u : Token} (h : C.tokens t u)
    (adjacent : t.kind = .typeName → (ArgumentsFollow t ts ↔ ArgumentsFollow u us))
    (more : C.Lists ts us) (tasks : Bool) :
    C.Both C.Items (item tasks t ts) (item tasks u us) := by
  have hall := Lists.cons h adjacent more
  rw [item, item, leading?_alike hall]
  split
  · refine (definition_alike more _).bind fun hd hrest => ?_
    obtain ⟨hd, last, last', hlast, hstop, hstop'⟩ := hd
    dsimp only
    rw [← hstop, ← hstop']
    exact .ok (.mk h hlast (.definition hd)) hrest
  · have hstop : ∀ {ts us}, C.Lists ts us → (leading? tasks ts).isSome = (leading? tasks us).isSome :=
      fun h => congrArg Option.isSome (leading?_alike h tasks)
    refine (passBalanced_alike hstop hall []).bind fun hpassed hrest => ?_
    exact .ok (.mk h (getLast_alike h hpassed) .expression) hrest

/-- **Corresponding tokens are read alike.** -/
theorem items_alike {ts us : List Token} (h : C.Lists ts us) (tasks : Bool) :
    (∃ is js, items tasks ts = .ok is ∧ items tasks us = .ok js ∧ List.Forall₂ C.Items is js) ∨
      ∃ rejected rejected', items tasks ts = .error rejected ∧
        items tasks us = .error rejected' ∧ C.Lists rejected rejected' := by
  cases h with
  | nil => exact .inl ⟨[], [], by rw [items], by rw [items], .nil⟩
  | @cons t u ts us h adjacent more =>
    have hitems := item_alike h adjacent more tasks
    rw [items_cons, items_cons]
    cases hread : item tasks t ts with
    | error rejected =>
      obtain ⟨rejected', hread', hrest⟩ := hitems.of_error hread
      rw [hread']
      exact .inr ⟨rejected, rejected', rfl, rfl, hrest⟩
    | ok r =>
      obtain ⟨j, rest', hread', hi, hrest⟩ := hitems.of_ok hread
      have hle := item_length hread
      rw [hread', bind_ok, bind_ok]
      rcases items_alike hrest tasks with ⟨is, js, his, hjs, hmore⟩ |
        ⟨rejected, rejected', his, hjs, hmore⟩
      · rw [his, hjs]
        exact .inl ⟨_, _, rfl, rfl, .cons hi hmore⟩
      · rw [his, hjs]
        exact .inr ⟨_, _, rfl, rfl, hmore⟩
termination_by ts.length
decreasing_by
  exact Nat.lt_succ_of_le hle

end Grammar

end ManifestDocs
