/-
The items of a manifest, token by token. `IsItem` gives an item as a definition of the grammar or as
code up to the next definition, and `AreItems` puts items side by side; `items_eq_ok` says that this
is how the tokens of a manifest are read. Every item is balanced and ends with its last token.
-/
import ManifestDocs.Proofs.Recognition

namespace ManifestDocs.Grammar

/-! ## Derivations are balanced -/

theorem Balanced.cons_kind {t : Token} {ts : List Token} {kind : Token.Kind} (hkind : t.kind = kind)
    (notOpening : ∀ b, kind ≠ opening b) (notClosing : ∀ b, kind ≠ closing b) (h : Balanced ts) :
    Balanced (t :: ts) := by
  subst hkind
  exact h.plain notOpening notClosing

theorem IsBracketed.balanced {b : Bracket} {ts : List Token} {r : Token × Token}
    (h : IsBracketed b ts r) : Balanced ts := by
  obtain ⟨hfirst, hinner, hlast⟩ := h
  exact .group hfirst hinner hlast .nil

theorem IsBlock.balanced {ts : List Token} {r : Span × Token} (h : IsBlock ts r) :
    Balanced ts := by
  obtain ⟨h⟩ := h
  exact h.balanced

theorem IsType.balanced {ts : List Token} {s : Span} (h : IsType ts s) : Balanced ts := by
  cases h with
  | bare hhead => exact Balanced.nil.cons_kind hhead (by simp [opening]) (by simp [closing])
  | applied hhead harguments _ =>
    exact harguments.balanced.cons_kind hhead (by simp [opening]) (by simp [closing])

theorem IsAliased.balanced {ts : List Token} {s : Span} (h : IsAliased ts s) : Balanced ts := by
  cases h with
  | type h => exact h.balanced
  | braced h hbraces => exact h.balanced.append hbraces.balanced
  | alone _ h => exact h.balanced

theorem IsOneOf.balanced {kinds : List Token.Kind} {ts : List Token} {v : String}
    (hkinds : ∀ kind ∈ kinds, kind ∈ hostKinds) (h : IsOneOf kinds ts v) : Balanced ts := by
  obtain ⟨hkind⟩ := h
  have hhost := hkinds _ hkind
  refine Balanced.nil.plain (fun b he => ?_) (fun b he => ?_)
  · simp [he, hostKinds, opening] at hhost
  · simp [he, hostKinds, closing] at hhost

theorem Maybe.balanced {α : Type} {R : List Token → α → Prop} {ts : List Token} {a : Option α}
    (hR : ∀ {us b}, R us b → Balanced us) (h : Maybe R ts a) : Balanced ts := by
  cases h with
  | none => exact .nil
  | some h => exact hR h

theorem CommaList.balanced {α : Type} {R : List Token → α → Prop} {ts : List Token} {as : List α}
    (hR : ∀ {us b}, R us b → Balanced us) (h : CommaList R ts as) : Balanced ts := by
  induction h with
  | one h => exact hR h
  | cons h comma _ ih =>
    exact (hR h).append (ih.cons_kind comma (by simp [opening]) (by simp [closing]))

theorem IsAssigned.balanced {ts : List Token} {s : Span} (h : IsAssigned ts s) : Balanced ts := by
  obtain ⟨hassign, hvalue⟩ := h
  obtain ⟨hbalanced, -⟩ := hvalue
  exact hbalanced.cons_kind hassign (by simp [opening]) (by simp [closing])

theorem IsParameter.balanced {ts : List Token} {p : Parameter Span} (h : IsParameter ts p) :
    Balanced ts := by
  obtain ⟨htype, hstar, hname, hvalue⟩ := h
  have hrest := (hvalue.balanced IsAssigned.balanced).cons_kind hname (by simp [opening])
    (by simp [closing])
  refine (htype.balanced IsType.balanced).append ?_
  cases hstar with
  | none => exact hrest
  | some star => exact hrest.cons_kind star (by simp [opening]) (by simp [closing])

theorem IsParameterList.balanced {ts : List Token} {ps : List (Parameter Span)}
    (h : IsParameterList ts ps) : Balanced ts := by
  cases h with
  | empty => exact .nil
  | listed h => exact h.balanced IsParameter.balanced
  | trailing h comma =>
    exact (h.balanced IsParameter.balanced).append
      (Balanced.nil.cons_kind comma (by simp [opening]) (by simp [closing]))

theorem IsParameters.balanced {ts : List Token} {ps : List (Parameter Span)}
    (h : IsParameters ts ps) : Balanced ts := by
  cases h with
  | absent => exact .nil
  | present hfirst h hlast => exact .group hfirst h.balanced hlast .nil

theorem IsParent.balanced {kinds : List Token.Kind} {ts : List Token} {v : String}
    (hkinds : ∀ kind ∈ kinds, kind ∈ hostKinds) (h : IsParent kinds ts v) : Balanced ts := by
  obtain ⟨hinherits, h⟩ := h
  exact (h.balanced hkinds).cons_kind (isName_iff.1 hinherits).1 (by simp [opening])
    (by simp [closing])

theorem IsReturn.balanced {ts : List Token} {s : Span} (h : IsReturn ts s) : Balanced ts := by
  obtain ⟨harrow, h⟩ := h
  exact h.balanced.cons_kind harrow (by simp [opening]) (by simp [closing])

theorem IsHosts.balanced {ts : List Token} {hs : List String} {parent : Option String}
    (h : IsHosts ts hs parent) : Balanced ts := by
  cases h with
  | listed h hparent =>
    exact (h.balanced (IsOneOf.balanced fun _ => id)).append
      (hparent.balanced (IsParent.balanced fun _ => id))
  | trailing h comma =>
    exact (h.balanced (IsOneOf.balanced fun _ => id)).append
      (Balanced.nil.cons_kind comma (by simp [opening]) (by simp [closing]))

theorem Balanced.cons_isName {t : Token} {ts : List Token} {word : String}
    (hword : t.isName word = true) (h : Balanced ts) : Balanced (t :: ts) :=
  h.cons_kind (isName_iff.1 hword).1 (by simp [opening]) (by simp [closing])

/-- The tokens of a definition are balanced. -/
theorem IsDefinition.balanced {tasks : Bool} {ts rest : List Token} {r : Definition Span × Nat}
    (h : IsDefinition tasks ts rest r) : Balanced ts := by
  cases h with
  | hostClass keyword hname hps hus hbody =>
    refine Balanced.cons_isName keyword ?_
    refine Balanced.cons_kind hname (by simp [opening]) (by simp [closing]) ?_
    have hparent := hus.balanced (IsParent.balanced (by simp [hostKinds]))
    exact hps.balanced.append (hparent.append hbody.balanced)
  | definedType keyword hname hps hbody | plan _ keyword hname hps hbody =>
    refine Balanced.cons_isName keyword ?_
    refine Balanced.cons_kind hname (by simp [opening]) (by simp [closing]) ?_
    exact hps.balanced.append hbody.balanced
  | function keyword hname hps hus hbody =>
    refine Balanced.cons_isName keyword ?_
    refine Balanced.cons_kind hname (by simp [opening]) (by simp [closing]) ?_
    exact hps.balanced.append ((hus.balanced IsReturn.balanced).append hbody.balanced)
  | typeAlias keyword hname hassign htype _ =>
    refine Balanced.cons_isName keyword ?_
    refine Balanced.cons_kind hname (by simp [opening]) (by simp [closing]) ?_
    exact htype.balanced.cons_kind hassign (by simp [opening]) (by simp [closing])
  | node keyword hhosts hbody =>
    exact Balanced.cons_isName keyword (hhosts.balanced.append hbody.balanced)

/-! ## What follows a definition -/

/-- What is an alias before a token is one whatever comes after the token. -/
theorem AliasEnds.of_head? {ts rest rest' : List Token} (h : AliasEnds ts rest)
    (hhead : rest'.head? = rest.head?) : AliasEnds ts rest' where
  noArguments head he := by
    rintro ⟨t, more, rfl, hkind, hstart⟩
    obtain ⟨more', rfl⟩ := List.head?_eq_some_iff.1 hhead.symm
    exact h.noArguments head he ⟨t, more', rfl, hkind, hstart⟩
  noBraces htype := (startsWith_head? hhead).trans (h.noBraces htype)

theorem aliasEnds_nil (ts : List Token) : AliasEnds ts [] where
  noArguments _ _ := not_argumentsFollow rfl
  noBraces _ := rfl

/-- Only the type of an alias depends on what follows it. -/
theorem IsDefinition.of_rest {tasks : Bool} {ts rest rest' : List Token} {r : Definition Span × Nat}
    (h : IsDefinition tasks ts rest r)
    (halias : ∀ front us s, ts = front ++ us → IsAliased us s → AliasEnds us rest →
      AliasEnds us rest') : IsDefinition tasks ts rest' r := by
  cases h with
  | hostClass keyword hname hps hparent hbody => exact .hostClass keyword hname hps hparent hbody
  | definedType keyword hname hps hbody => exact .definedType keyword hname hps hbody
  | function keyword hname hps hreturns hbody => exact .function keyword hname hps hreturns hbody
  | plan allowed keyword hname hps hbody => exact .plan allowed keyword hname hps hbody
  | node keyword hhosts hbody => exact .node keyword hhosts hbody
  | @typeAlias k name assign us _ type keyword hname hassign htype hends =>
    exact .typeAlias keyword hname hassign htype
      (halias [k, name, assign] us type rfl htype hends)

/-! ## Definitions end with their last token -/

theorem getLast?_append_of_some {ts us : List Token} {last : Token} (h : us.getLast? = some last) :
    (ts ++ us).getLast? = some last := by
  rw [List.getLast?_append, h, Option.some_or]

theorem getLast?_cons_of_some {t last : Token} {ts : List Token} (h : ts.getLast? = some last) :
    (t :: ts).getLast? = some last := by
  rw [List.getLast?_cons, h, Option.getD_some]

theorem IsBlock.getLast? {ts : List Token} {body : Span} {last : Token}
    (h : IsBlock ts (body, last)) : ts.getLast? = some last := by
  obtain ⟨h⟩ := h
  exact h.getLast?

theorem IsAliased.getLast? {ts : List Token} {s : Span} (h : IsAliased ts s) :
    ∃ last, ts.getLast? = some last ∧ last.stop = s.stop := by
  cases h with
  | type h =>
    obtain ⟨last, hlast, hstop, -⟩ := h.getLast?
    exact ⟨last, hlast, hstop⟩
  | braced _ hbraces => exact ⟨_, getLast?_append_of_some hbraces.getLast?, rfl⟩
  | alone _ h => exact ⟨_, h.getLast?, rfl⟩

theorem IsDefinition.getLast? {tasks : Bool} {ts rest : List Token} {r : Definition Span × Nat}
    (h : IsDefinition tasks ts rest r) : ∃ last, ts.getLast? = some last ∧ last.stop = r.2 := by
  cases h with
  | hostClass _ _ _ _ hbody | function _ _ _ _ hbody =>
    refine ⟨_, getLast?_cons_of_some (getLast?_cons_of_some ?_), rfl⟩
    exact getLast?_append_of_some (getLast?_append_of_some hbody.getLast?)
  | definedType _ _ _ hbody | plan _ _ _ _ hbody =>
    refine ⟨_, getLast?_cons_of_some (getLast?_cons_of_some ?_), rfl⟩
    exact getLast?_append_of_some hbody.getLast?
  | typeAlias _ _ _ htype _ =>
    obtain ⟨last, hlast, hstop⟩ := htype.getLast?
    refine ⟨last, getLast?_cons_of_some (getLast?_cons_of_some ?_), hstop⟩
    exact getLast?_cons_of_some hlast
  | node _ _ hbody =>
    exact ⟨_, getLast?_cons_of_some (getLast?_append_of_some hbody.getLast?), rfl⟩

/-! ## Items -/

/-- Whether a definition starts with the next token. -/
def startsDefinition (tasks : Bool) (ts : List Token) : Bool :=
  (leading? tasks ts).isSome

/-- `IsItem tasks ts rest i`: the tokens `ts`, where `rest` follows, are the item `i`. Code between
definitions goes as far as it can: to the next definition outside brackets, or to the end. -/
inductive IsItem (tasks : Bool) : List Token → List Token → Item Span → Prop
  | definition {t : Token} {ts rest : List Token} {d : Definition Span} {stop : Nat}
      (h : IsDefinition tasks (t :: ts) rest (d, stop)) :
      IsItem tasks (t :: ts) rest (itemAt t stop (.definition d))
  | expression {t last : Token} {ts rest : List Token} (balanced : Balanced (t :: ts))
      (noDefinition : NoStop (startsDefinition tasks) (t :: ts) rest)
      (ends : rest = [] ∨ startsDefinition tasks rest = true)
      (hlast : (t :: ts).getLast? = some last) :
      IsItem tasks (t :: ts) rest (itemAt t last.stop .expression)

/-- Items side by side. -/
inductive AreItems (tasks : Bool) : List Token → List (Item Span) → Prop
  | nil : AreItems tasks [] []
  | cons {ts rest : List Token} {i : Item Span} {is : List (Item Span)}
      (h : IsItem tasks ts rest i) (more : AreItems tasks rest is) :
      AreItems tasks (ts ++ rest) (i :: is)

theorem leading?_eq_none_iff {tasks : Bool} {ts : List Token} :
    leading? tasks ts = none ↔ startsDefinition tasks ts = false := by
  rw [startsDefinition, Option.isSome_eq_false_iff, Option.isNone_iff_eq_none]

theorem startsDefinition_append {tasks : Bool} {ts : List Token}
    (h : startsDefinition tasks ts = true) (us : List Token) :
    startsDefinition tasks (ts ++ us) = true := by
  obtain ⟨keyword, hk⟩ := Option.isSome_iff_exists.1 h
  rw [startsDefinition, leading?_append_of_some hk]
  rfl

/-- A definition is told by its first three tokens, and none of them is a closing bracket. -/
theorem leading?_closing (tasks : Bool) {b : Bracket} {c : Token} (hc : c.kind = closing b)
    (ts us : List Token) : leading? tasks (ts ++ c :: us) = leading? tasks ts := by
  match ts with
  | [] => simp [leading?, Token.isName, hc, closing]
  | [t] => simp [leading?, hostKinds, hc, closing]
  | [t, u] => simp [leading?, hc, closing]
  | t :: u :: v :: more => rfl

/-- Nor do the tokens behind one that is no type name matter for a definition before it. -/
theorem leading?_next (tasks : Bool) {t : Token} (ht : t.kind ≠ .typeName) (u : Token)
    (ts us us' : List Token) :
    leading? tasks (u :: (ts ++ t :: us)) = leading? tasks (u :: (ts ++ t :: us')) := by
  match ts with
  | [] => simp [leading?, ht]
  | [v] => rfl
  | v :: w :: more => rfl

/-- What is passed where no definition starts is an item. -/
theorem isItem_of_pass {tasks : Bool} {t : Token} {ts passed rest : List Token}
    (hnone : startsDefinition tasks (t :: ts) = false)
    (h : passBalanced (startsDefinition tasks) [] (t :: ts) = .ok (passed, rest)) :
    ∃ more last, passed = t :: more ∧ ts = more ++ rest ∧ passed.getLast? = some last ∧
      IsItem tasks passed rest (itemAt t last.stop .expression) := by
  obtain ⟨hsplit, hbalanced, hno, hends⟩ := passBalanced_eq_ok.1 h
  cases passed with
  | nil =>
    -- the first token starts no definition, so that the code has at least this token
    rw [List.nil_append] at hsplit
    rw [← hsplit, hnone] at hends
    simp at hends
  | cons t' more =>
    obtain ⟨rfl, rfl⟩ := List.cons.inj hsplit
    obtain ⟨last, hlast⟩ : ∃ last, (t :: more).getLast? = some last :=
      ⟨_, List.getLast?_eq_some_getLast (List.cons_ne_nil _ _)⟩
    exact ⟨more, last, rfl, rfl, hlast, .expression hbalanced hno hends hlast⟩

theorem item_sound {tasks : Bool} {t : Token} {ts rest : List Token} {i : Item Span}
    (h : item tasks t ts = .ok (i, rest)) :
    ∃ passed, ts = passed ++ rest ∧ IsItem tasks (t :: passed) rest i := by
  unfold item at h
  split at h
  · next keyword hk =>
    obtain ⟨⟨⟨d, stop⟩, ts₁⟩, hd, h⟩ := bind_eq_ok h
    cases h
    obtain ⟨passed, rfl, hderives⟩ := definition_sound hk hd
    exact ⟨passed, rfl, .definition hderives⟩
  · next hnone =>
    obtain ⟨⟨passed, ts₁⟩, hpassed, h⟩ := bind_eq_ok h
    cases h
    obtain ⟨more, last, rfl, rfl, hlast, hitem⟩ :=
      isItem_of_pass (leading?_eq_none_iff.1 hnone) hpassed
    rw [hlast]
    exact ⟨more, rfl, hitem⟩

theorem IsItem.item_eq {tasks : Bool} {ts rest : List Token} {i : Item Span}
    (h : IsItem tasks ts rest i) :
    ∃ t more, ts = t :: more ∧ item tasks t (more ++ rest) = .ok (i, rest) := by
  cases h with
  | @definition t ts _ d stop h =>
    obtain ⟨k, t', more, he, hk, hread⟩ := definition_complete h
    cases he
    refine ⟨t, ts, rfl, ?_⟩
    rw [item, hk]
    simp only [hread, bind_ok]
    rfl
  | @expression t last ts _ hbalanced hno hends hlast =>
    have hnone := leading?_eq_none_iff.2 (hno [] t ts rfl .nil)
    have hpass : passBalanced (fun ts => (leading? tasks ts).isSome) [] (t :: (ts ++ rest)) =
        .ok (t :: ts, rest) :=
      passBalanced_eq_ok.2 ⟨rfl, hbalanced, hno, hends⟩
    refine ⟨t, ts, rfl, ?_⟩
    rw [item, hnone]
    simp only [hpass, bind_ok, hlast]
    rfl

/-- The items of a manifest, one step at a time. -/
theorem items_cons (tasks : Bool) (t : Token) (ts : List Token) :
    items tasks (t :: ts) = item tasks t ts >>= fun r => (items tasks r.2).map (r.1 :: ·) := by
  rw [items]
  split
  · next hread =>
    rw [hread]
    rfl
  · next hread =>
    rw [hread, bind_ok]
    cases items tasks _ <;> rfl

/-- What is read from the tokens of an item on is the item, and then what follows it. -/
theorem IsItem.items_append {tasks : Bool} {ts rest : List Token} {i : Item Span}
    (h : IsItem tasks ts rest i) : items tasks (ts ++ rest) = (items tasks rest).map (i :: ·) := by
  obtain ⟨t, more, rfl, hread⟩ := h.item_eq
  rw [List.cons_append, items_cons, hread, bind_ok]

/-- **The tokens of a manifest are read as items side by side.** -/
theorem items_eq_ok {tasks : Bool} {ts : List Token} {is : List (Item Span)} :
    items tasks ts = .ok is ↔ AreItems tasks ts is := by
  constructor
  · intro h
    fun_induction items tasks ts generalizing is with
    | case1 => cases h; exact .nil
    | case2 => cases h
    | case3 => cases h
    | case4 t ts i rest hitem more hmore ih =>
      cases h
      obtain ⟨passed, rfl, hi⟩ := item_sound hitem
      exact .cons hi (ih hmore)
  · intro h
    induction h with
    | nil => rw [items]
    | cons hi _ ih =>
      rw [hi.items_append, ih]
      rfl

/-- An item is the same before tokens that start alike, and a definition is so at the end. -/
theorem IsItem.of_rest {tasks : Bool} {ts rest rest' : List Token} {i : Item Span} (h : IsItem tasks ts rest i)
    (hne : rest ≠ []) (hhead : rest' = [] ∨ rest'.head? = rest.head?)
    (hstarts : startsDefinition tasks rest = true → startsDefinition tasks rest' = true) :
    IsItem tasks ts rest' i := by
  cases h with
  | definition h =>
    refine .definition (h.of_rest fun _ us _ _ _ halias => ?_)
    rcases hhead with rfl | hhead
    · exact aliasEnds_nil us
    · exact halias.of_head? hhead
  | expression balanced hno hends hlast =>
    have hstart := hends.resolve_left hne
    have hstart' := hstarts hstart
    obtain ⟨u, us, rfl⟩ := List.exists_cons_of_ne_nil hne
    obtain ⟨us', rfl⟩ : ∃ us', rest' = u :: us' := by
      rcases hhead with rfl | hhead
      · cases hstart'
      · exact List.head?_eq_some_iff.1 hhead
    -- the keyword is a name, so that no alias before it is told by what comes after it
    obtain ⟨keyword, hk⟩ := Option.isSome_iff_exists.1 hstart
    have hname := (isName_iff.1 (leading?_isName hk).1).1
    refine .expression balanced (fun before t after he hbefore => ?_) (.inr hstart') hlast
    rw [startsDefinition, leading?_next tasks (by simp [hname]) t after us' us]
    exact hno before t after he hbefore

theorem IsItem.balanced {tasks : Bool} {ts rest : List Token} {i : Item Span}
    (h : IsItem tasks ts rest i) : Balanced ts := by
  cases h with
  | definition h => exact h.balanced
  | expression hbalanced _ _ _ => exact hbalanced

/-- An item reaches from its first token to its last. -/
theorem IsItem.span {tasks : Bool} {ts rest : List Token} {i : Item Span}
    (h : IsItem tasks ts rest i) :
    ∃ first last, ts.head? = some first ∧ ts.getLast? = some last ∧
      i.offset = first.start.offset ∧ i.length = last.stop - first.start.offset := by
  cases h with
  | @definition t ts _ d stop h =>
    obtain ⟨last, hlast, rfl⟩ := h.getLast?
    exact ⟨t, last, rfl, hlast, rfl, rfl⟩
  | @expression t last ts _ _ _ _ hlast => exact ⟨t, last, rfl, hlast, rfl, rfl⟩

theorem IsItem.line_eq {tasks : Bool} {ts rest : List Token} {i : Item Span} {first : Token}
    (h : IsItem tasks ts rest i) (hfirst : ts.head? = some first) : i.line = first.start.line := by
  cases h with
  | definition =>
    cases hfirst
    rfl
  | expression =>
    cases hfirst
    rfl

theorem AreItems.balanced {tasks : Bool} {ts : List Token} {is : List (Item Span)}
    (h : AreItems tasks ts is) : Balanced ts := by
  induction h with
  | nil => exact .nil
  | cons h _ ih => exact h.balanced.append ih

end ManifestDocs.Grammar
