/-
Plans read as code. A text that is accepted with plans is accepted without them: a plan is balanced,
and outside brackets it holds nothing that starts another definition, so that without plans it is
code, alone or with the code beside it. All other definitions stay what and where they are
(`items_without_plans`), and so the entries of a file on a runtime without plans are those on one
with plans, less the plans.
-/
import ManifestDocs.Proofs.Fusion
import ManifestDocs.Proofs.Reports

namespace ManifestDocs

namespace Grammar

variable {tasks : Bool} {ts rest : List Token}

/-! ## No definition starts in a plan -/

/-- Brackets that are open around a stretch change nothing in it. -/
theorem nestAll?_outer {inside after : List Bracket} (h : nestAll? inside ts = some after)
    (outer : List Bracket) : nestAll? (inside ++ outer) ts = some (after ++ outer) := by
  induction ts generalizing inside with
  | nil =>
    cases h
    rfl
  | cons t ts ih =>
    rw [nestAll?_cons] at h ⊢
    obtain ⟨next, hnext, h⟩ := Option.bind_eq_some_iff.1 h
    have hstep : nest? (inside ++ outer) t.kind = some (next ++ outer) := by
      rcases nest?_cases hnext with ⟨b, hkind, rfl⟩ | ⟨b, hkind, rfl⟩ | ⟨hopening, hclosing, rfl⟩
      · rw [hkind, nest?_opening, List.cons_append]
      · rw [hkind, List.cons_append, nest?_closing_cons]
      · exact nest?_plain hopening hclosing _
    rw [hstep, Option.bind_some]
    exact ih h

/-- A pair of brackets has no point outside brackets but its start. -/
theorem IsBracketed.eq_nil_of_balanced {b : Bracket} {r : Token × Token} (h : IsBracketed b ts r)
    {before after : List Token} {t : Token} (he : ts = before ++ t :: after)
    (hbefore : Balanced before) : before = [] := by
  obtain @⟨first, last, inner, hfirst, hinner, -⟩ := h
  cases before with
  | nil => rfl
  | cons u before =>
    obtain ⟨rfl, hinside⟩ := List.cons.inj he
    obtain ⟨back, rfl⟩ : ∃ back, inner = before ++ back := by
      rcases append_eq_append_cons hinside with ⟨back, hback, -⟩ | ⟨front, rfl, hfront⟩
      · exact ⟨t :: back, hback⟩
      · cases front with
        | nil => exact ⟨[], by simp⟩
        | cons => simp at hfront
    -- the first bracket is still open after what stands between it and the point
    rw [balanced_iff_nestAll?, nestAll?_append] at hinner
    obtain ⟨opened, hopened, -⟩ := Option.bind_eq_some_iff.1 hinner
    have hstill := nestAll?_outer hopened [b]
    rw [balanced_iff_nestAll?, nestAll?_cons, hfirst, nest?_opening, Option.bind_some] at hbefore
    rw [List.nil_append, hbefore] at hstill
    simp at hstill

theorem startsDefinition_of_kind {t : Token} (h : t.kind ≠ .name) :
    startsDefinition tasks (t :: ts) = false := by
  cases hk : leading? tasks (t :: ts) with
  | none => exact leading?_eq_none_iff.1 hk
  | some k => exact absurd (isName_iff.1 (leading?_isName hk).1).1 h

theorem IsBracketed.noStop {b : Bracket} {r : Token × Token} (h : IsBracketed b ts r) :
    NoStop (startsDefinition tasks) ts rest := by
  intro before t after he hbefore
  obtain rfl := h.eq_nil_of_balanced he hbefore
  obtain ⟨hfirst, -, -⟩ := h
  obtain ⟨rfl, -⟩ := List.cons.inj he
  exact startsDefinition_of_kind (by simp [hfirst, opening])

theorem IsParameters.noStop {ps : List (Parameter Span)} (h : IsParameters ts ps) :
    NoStop (startsDefinition tasks) ts rest := by
  cases h with
  | absent =>
    intro before t after he
    simp at he
  | present hfirst hlist hlast => exact (IsBracketed.mk hfirst hlist.balanced hlast).noStop

theorem startsDefinition_before_opening {t first : Token} {b : Bracket}
    (hfirst : first.kind = opening b) : startsDefinition tasks (t :: first :: ts) = false := by
  simp [startsDefinition, leading?, hostKinds, hfirst, opening]

/-- Where plans are not definitions, none starts with `plan`, with the name of a plan, which is
before a bracket, or with the brackets after it. -/
theorem noStop_plan {k name : Token} {ps bs : List Token} {parameters : List (Parameter Span)}
    {r : Token × Token} (keyword : k.isName "plan" = true) (hname : name.kind = .name)
    (hps : IsParameters ps parameters) (hbody : IsBracketed .curly bs r) :
    NoStop (startsDefinition false) (k :: name :: (ps ++ bs)) rest := by
  obtain ⟨hkind, hvalue⟩ := isName_iff.1 keyword
  have hplain : ∀ {t : Token}, t.kind = .name → Balanced [t] := fun ht =>
    Balanced.nil.cons_kind ht (by simp [opening]) (by simp [closing])
  have hopens : ∃ b u us, (ps ++ bs) ++ rest = u :: us ∧ u.kind = opening b := by
    cases hps with
    | absent =>
      obtain ⟨hfirst, -, -⟩ := hbody
      exact ⟨_, _, _, rfl, hfirst⟩
    | present hfirst _ _ => exact ⟨_, _, _, rfl, hfirst⟩
  refine NoStop.cons (hplain hkind) ?_ (NoStop.cons (hplain hname) ?_ ?_)
  · simp [startsDefinition, leading?, Token.isName, hkind, hvalue]
  · obtain ⟨b, u, us, he, hu⟩ := hopens
    rw [he]
    exact startsDefinition_before_opening hu
  · exact NoStop.append hps.balanced hps.noStop hbody.noStop

/-- A definition is one without plans, too, or it is a plan, in which no definition starts. -/
theorem IsDefinition.without_plans {d : Definition Span} {stop : Nat}
    (h : IsDefinition true ts rest (d, stop)) :
    IsDefinition false ts rest (d, stop) ∧ d.keyword ≠ .plan ∨
      NoStop (startsDefinition false) ts rest ∧ d.keyword = .plan := by
  cases h with
  | plan _ keyword hname hps hbody =>
    obtain ⟨hbody⟩ := hbody
    exact .inr ⟨noStop_plan keyword hname hps hbody, rfl⟩
  | hostClass keyword hname hps hparent hbody =>
    exact .inl ⟨.hostClass keyword hname hps hparent hbody, by simp [Definition.keyword]⟩
  | definedType keyword hname hps hbody =>
    exact .inl ⟨.definedType keyword hname hps hbody, by simp [Definition.keyword]⟩
  | function keyword hname hps hreturns hbody =>
    exact .inl ⟨.function keyword hname hps hreturns hbody, by simp [Definition.keyword]⟩
  | typeAlias keyword hname hassign htype hends =>
    exact .inl ⟨.typeAlias keyword hname hassign htype hends, by simp [Definition.keyword]⟩
  | node keyword hhosts hbody =>
    exact .inl ⟨.node keyword hhosts hbody, by simp [Definition.keyword]⟩

/-- What starts a definition without plans starts one with them. -/
theorem startsDefinition_mono (h : startsDefinition true ts = false) :
    startsDefinition false ts = false := by
  rw [← leading?_eq_none_iff] at h ⊢
  cases ts with
  | nil => rfl
  | cons t ts => grind [leading?]

end Grammar

/-! ## Items without plans -/

/-- Whether an item is a definition with and without plans: one that is no plan. -/
def Item.stays {ε : Type} (i : Item ε) : Bool :=
  match i.form with
  | .definition d => d.keyword != .plan
  | .expression => false

@[simp] theorem Item.stays_map {ε ζ : Type} (f : ε → ζ) (i : Item ε) : (i.map f).stays = i.stays := by
  obtain ⟨line, offset, length, form⟩ := i
  cases form with
  | expression => rfl
  | definition d => simp [Item.stays, Item.map, Form.map]

/-- Code does not count among the definitions. -/
theorem Item.codeBefore_filter {ε : Type} {i : Item ε} (hi : i.stays = false) (js : List (Item ε)) :
    (i.codeBefore js).filter Item.stays = js.filter Item.stays := by
  unfold Item.codeBefore
  split
  · rfl
  · rw [List.filter_cons_of_neg (by simp [hi])]

namespace Grammar

variable {tasks : Bool} {ts rest : List Token}

theorem AreItems.code {is : List (Item Span)} (h : AreItems tasks rest is) (hrest : InOrder rest)
    {t : Token} (balanced : Balanced (t :: ts))
    (hno : NoStop (startsDefinition tasks) (t :: ts) rest) :
    ∃ is', AreItems tasks (t :: ts ++ rest) is' ∧
      is'.filter Item.stays = is.filter Item.stays := by
  obtain ⟨last, hlast⟩ : ∃ last, (t :: ts).getLast? = some last :=
    ⟨_, List.getLast?_eq_some_getLast (List.cons_ne_nil _ _)⟩
  have hitems := items_code balanced hno hlast hrest
  rw [items_eq_ok.2 h] at hitems
  exact ⟨_, items_eq_ok.1 hitems, Item.codeBefore_filter rfl is⟩

/-- Tokens that are items with plans are items without them, and the definitions but the plans are
the same. -/
theorem AreItems.without_plans {is : List (Item Span)} (h : AreItems true ts is)
    (hts : InOrder ts) :
    ∃ is', AreItems false ts is' ∧ is'.filter Item.stays = is.filter Item.stays := by
  induction h with
  | nil => exact ⟨[], .nil, rfl⟩
  | @cons ts rest i is h _ ih =>
    have hrest := hts.append.2.1
    obtain ⟨is', his', hsame⟩ := ih hrest
    have hbalanced := h.balanced
    cases h with
    | @expression t last us _ _ hno _ _ =>
      obtain ⟨is'', his'', hsame'⟩ := his'.code hrest hbalanced fun before u after he hbefore =>
        startsDefinition_mono (hno before u after he hbefore)
      exact ⟨is'', his'', by rw [hsame', hsame]; rfl⟩
    | @definition t us _ d stop h =>
      rcases h.without_plans with ⟨hd, hkeyword⟩ | ⟨hno, hkeyword⟩
      · refine ⟨_, .cons (.definition hd) his', ?_⟩
        rw [List.filter_cons, List.filter_cons, hsame]
      · obtain ⟨is'', his'', hsame'⟩ := his'.code hrest hbalanced hno
        refine ⟨is'', his'', ?_⟩
        rw [hsame', hsame, List.filter_cons_of_neg (by simp [Item.stays, itemAt, hkeyword])]

/-- Without plans every definition stays. -/
theorem AreItems.stays {is : List (Item Span)} (h : AreItems false ts is) {i : Item Span}
    (hi : i ∈ is) (hform : i.form ≠ .expression) : i.stays = true := by
  obtain ⟨before, group, after, -, -, hgroup⟩ := h.stretch hi
  cases hgroup with
  | expression => exact absurd rfl hform
  | definition hderives =>
    cases hderives with
    | plan allowed => cases allowed
    | _ => rfl

end Grammar

/-- A text that is accepted with plans is accepted without them. -/
theorem Manifest.parse_without_plans {text : String} {m : Manifest}
    (h : Manifest.parse true text = .ok m) :
    ∃ m', Manifest.parse false text = .ok m' ∧ m'.text = m.text ∧
      m'.items.filter Item.stays = m.items.filter Item.stays ∧
      ∀ i ∈ m'.items, i.form ≠ .expression → i.stays = true := by
  obtain ⟨scan, is, hscan, his, rfl⟩ := Grammar.parse_eq_ok.1 h
  obtain ⟨is', his', hsame⟩ := his.without_plans (Grammar.inOrder_of_scan hscan)
  refine ⟨_, Grammar.parse_eq_ok.2 ⟨scan, is', hscan, his', rfl⟩, rfl, ?_, ?_⟩
  · have hstays : Item.stays ∘ Item.map (Span.excerpt text.toList) = Item.stays :=
      funext fun i => Item.stays_map _ i
    rw [List.filter_map, List.filter_map, hstays, hsame]
  · intro i hi hform
    obtain ⟨j, hj, rfl⟩ := List.mem_map.1 hi
    rw [Item.stays_map]
    refine his'.stays hj fun hexpression => hform ?_
    rw [Item.map, hexpression]
    rfl

/-! ## Entries without plans -/

section Entries

variable {file source : String} {maxBlank : Int}

theorem Entry.ofItem?_kind {i : Item String} {e : Entry}
    (h : Entry.ofItem? file maxBlank source i = some e) : (e.kind != "plan") = i.stays := by
  obtain ⟨line, offset, length, form⟩ := i
  cases form with
  | expression => cases h
  | definition d =>
    cases d with
    | node => cases h
    | _ => cases h; rfl

/-- The entries but those of plans are the entries of the items that stay. -/
theorem Entry.filter_ofItem? (is : List (Item String)) :
    (is.filterMap (Entry.ofItem? file maxBlank source)).filter (·.kind != "plan") =
      (is.filter Item.stays).filterMap (Entry.ofItem? file maxBlank source) := by
  rw [List.filter_filterMap, List.filterMap_filter]
  refine List.filterMap_congr fun i _ => ?_
  cases he : Entry.ofItem? file maxBlank source i with
  | none => cases i.stays <;> rfl
  | some e =>
    have hkind := Entry.ofItem?_kind he
    cases hi : i.stays <;> simp [Option.filter, hkind, hi]

/-- Where every definition stays, no entry is that of a plan. -/
theorem Entry.filter_of_stays {is : List (Item String)}
    (h : ∀ i ∈ is, i.form ≠ .expression → i.stays = true) :
    (is.filterMap (Entry.ofItem? file maxBlank source)).filter (·.kind != "plan") =
      is.filterMap (Entry.ofItem? file maxBlank source) := by
  refine List.filter_eq_self.2 fun e he => ?_
  obtain ⟨i, hi, he⟩ := List.mem_filterMap.1 he
  rw [Entry.ofItem?_kind he]
  refine h i hi fun hform => ?_
  rw [Entry.ofItem?, hform] at he
  cases he

end Entries

/-- **Plans add to what is read and change nothing else.** A text that is accepted with plans is
accepted without them, and the definitions that are no plans are the same, with all their fields and
places. So of two runtimes of one version of which only one knows plans, the other gives the same
entries less those of plans, unless the policy cannot be applied. -/
theorem plans_conservative (text : String) :
    (∀ m, Manifest.parse true text = .ok m → ∃ m', Manifest.parse false text = .ok m' ∧
      m'.items.filter Item.stays = m.items.filter Item.stays) ∧
    ∀ (file : String) (options : Options) (knowing other : Runtime) (m : Manifest)
      (policy : PlanPolicy) (out : Bool), knowing.version = other.version →
      knowing.supports "tasks" = true → other.supports "tasks" = false →
      Manifest.parse true text = .ok m → options.policy knowing.version = .valid policy →
      policy.blocks file = .ok out →
      ∃ entries, (extract text file options knowing).1 = .ok ⟨entries, none⟩ ∧
        (extract text file options other).1 = .ok ⟨entries.filter (·.kind != "plan"), none⟩ := by
  refine ⟨fun m hm => ?_, fun file options knowing other m policy out hversion hknowing hother hm
    hpolicy hblocks => ?_⟩
  · obtain ⟨m', hm', -, hsame, -⟩ := Manifest.parse_without_plans hm
    exact ⟨m', hm', hsame⟩
  · obtain ⟨m', hm', htext, hsame, hstays⟩ := Manifest.parse_without_plans hm
    rw [← hknowing] at hm
    rw [← hother] at hm'
    have hpolicy' := hversion ▸ hpolicy
    cases out with
    | true =>
      have hall := extract_left_out hm hpolicy hblocks
      have hless := extract_left_out hm' hpolicy' hblocks
      exact ⟨[], congrArg Prod.fst hall, congrArg Prod.fst hless⟩
    | false =>
      have hall := extract_eq_ok hm hpolicy hblocks
      have hless := extract_eq_ok hm' hpolicy' hblocks
      refine ⟨_, congrArg Prod.fst hall, (congrArg Prod.fst hless).trans ?_⟩
      rw [Entry.filter_ofItem?, ← hsame, ← Entry.filter_ofItem?, htext, Entry.filter_of_stays hstays]

/-- A plan with the name of a keyword, between two classes. -/
def planBetweenClasses : Manifest :=
  ⟨"class a \x7b\x7d plan class(Integer $n) \x7b\x7d class b \x7b\x7d",
   [⟨1, 0, 10, .definition (.hostClass "a" [] none "")⟩,
    ⟨1, 11, 25, .definition (.plan "class" [⟨"n", some "Integer", none, false⟩] "")⟩,
    ⟨1, 37, 10, .definition (.hostClass "b" [] none "")⟩]⟩

theorem parse_planBetweenClasses :
    Manifest.parse true planBetweenClasses.text = .ok planBetweenClasses := by
  decide +kernel

/-- Without plans, the two classes are the same, and only they have entries. -/
theorem planBetweenClasses_without_plans :
    (∃ m, Manifest.parse false planBetweenClasses.text = .ok m ∧
      m.items.filter Item.stays = planBetweenClasses.items.filter Item.stays) ∧
    ∃ entries,
      (extract planBetweenClasses.text "init.pp" usualOptions ⟨"6.0.0", ["tasks"]⟩).1 =
        .ok ⟨entries, none⟩ ∧
      (extract planBetweenClasses.text "init.pp" usualOptions ⟨"6.0.0", []⟩).1 =
        .ok ⟨entries.filter (·.kind != "plan"), none⟩ := by
  obtain ⟨hitems, hentries⟩ := plans_conservative planBetweenClasses.text
  refine ⟨hitems _ parse_planBetweenClasses, ?_⟩
  exact hentries "init.pp" usualOptions _ _ planBetweenClasses
    ⟨"6.0.0", PlanPolicy.defaultMinimum, PlanPolicy.defaultPattern⟩ false rfl (by decide)
    (by decide) parse_planBetweenClasses rfl rfl

end ManifestDocs
