/-
Layout does not matter. Two texts may have the same tokens, as far as kinds and values go, laid out
in another way: with other blanks, line breaks and comments between them. The grammar looks at the
layout in one place only, where a square bracket comes after a type name. If the texts agree there,
both are accepted or none is (`parse_relaid`): the items are the same but for their excerpts and
where they stand, and belong to the same tokens; errors have the same cause and are found at the
same token.

That corresponding tokens are read alike is known for any `Correspondence`. Here tokens correspond
if they have the same index, and about spans nothing is said.
-/
import ManifestDocs.Proofs.EarliestError
import ManifestDocs.Proofs.Partition
import ManifestDocs.Proofs.Respelling

namespace ManifestDocs

/-! ## Without excerpts -/

section Map

variable {ε ζ η : Type} (f : ε → ζ) (g : ζ → η)

theorem Parameter.map_map (p : Parameter ε) : (p.map f).map g = p.map (g ∘ f) := by
  simp [Parameter.map]

theorem Definition.map_map (d : Definition ε) : (d.map f).map g = d.map (g ∘ f) := by
  cases d <;> simp [Definition.map, Function.comp_def, Parameter.map_map]

theorem Form.map_map (form : Form ε) : (form.map f).map g = form.map (g ∘ f) := by
  cases form with
  | definition d => exact congrArg Form.definition (d.map_map f g)
  | expression => rfl

/-- A form without its excerpts: of a type or a value it says only whether there is one. -/
def Form.outline (form : Form ε) : Form Unit :=
  form.map fun _ => ()

theorem Form.outline_map (form : Form ε) : (form.map f).outline = form.outline :=
  form.map_map f _

end Map

namespace Grammar

variable {ts us : List Token}

/-! ## Other layouts -/

/-- Whether two neighbouring tokens are a type name and the bracket of its arguments. -/
def opensArguments (t u : Token) : Bool :=
  t.kind = .typeName && u.kind = opening .square && u.start.offset = t.stop

/-- The same tokens in another layout: they have the same kinds and values, and of the square
brackets after type names the same ones are adjacent to them. -/
structure Relaid (ts us : List Token) : Prop where
  spelling : ts.map Token.spelling = us.map Token.spelling
  adjacent : List.zipWith opensArguments ts ts.tail = List.zipWith opensArguments us us.tail

theorem Relaid.length_eq (h : Relaid ts us) : ts.length = us.length := by
  simpa using congrArg List.length h.spelling

theorem Relaid.spelling_eq (h : Relaid ts us) {k : Nat} {t u : Token} (ht : ts[k]? = some t)
    (hu : us[k]? = some u) : t.spelling = u.spelling := by
  have hk := congrArg (·[k]?) h.spelling
  simpa [ht, hu] using hk

theorem argumentsFollow_iff {t : Token} (ht : t.kind = .typeName) :
    ArgumentsFollow t ts ↔ (List.zipWith opensArguments (t :: ts) ts).head? = some true := by
  cases ts with
  | nil => simp [ArgumentsFollow]
  | cons u ts => simp [ArgumentsFollow, opensArguments, ht]

/-- Where tokens with the same index correspond, the token lists do. -/
theorem Relaid.lists {C : Correspondence} (h : Relaid ts us)
    (hC : ∀ {k : Nat} {t u : Token}, ts[k]? = some t → us[k]? = some u → C.tokens t u) :
    C.Lists ts us := by
  induction ts generalizing us with
  | nil =>
    cases List.map_eq_nil_iff.1 h.spelling.symm
    exact .nil
  | cons t ts ih =>
    obtain ⟨u, us, rfl, hu, hmore⟩ := List.map_eq_cons_iff.1 h.spelling.symm
    have hkind : u.kind = t.kind := congrArg Prod.fst hu
    have hadjacent := h.adjacent
    simp only [List.tail_cons] at hadjacent
    have htail : Relaid ts us := by
      refine ⟨hmore.symm, ?_⟩
      simpa [List.tail_zipWith] using congrArg List.tail hadjacent
    refine .cons (hC (k := 0) rfl rfl) (fun ht => ?_) (ih htail fun {k} => hC (k := k + 1))
    rw [argumentsFollow_iff ht, argumentsFollow_iff (hkind.trans ht), hadjacent]

/-- Tokens correspond if they have the same index. -/
def aligned (ts us : List Token) (h : Relaid ts us) : Correspondence where
  tokens t u := ∃ k, ts[k]? = some t ∧ us[k]? = some u
  spans _ _ := True
  kind := fun ⟨_, ht, hu⟩ => congrArg Prod.fst (h.spelling_eq ht hu)
  value := fun ⟨_, ht, hu⟩ => congrArg Prod.snd (h.spelling_eq ht hu)
  outer _ _ := trivial
  inner _ _ := trivial

theorem length_eq_of_lists {C : Correspondence} (h : C.Lists ts us) : ts.length = us.length := by
  induction h with
  | nil => rfl
  | cons _ _ _ ih => rw [List.length_cons, List.length_cons, ih]

/-! ## Items of the same tokens -/

/-- An item covers the tokens from index `first` through `last`, and no others. -/
structure Covers {ε : Type} (ts : List Token) (first last : Nat) (i : Item ε) : Prop where
  le : first ≤ last
  starts : ∃ t, ts[first]? = some t ∧ i.offset = t.start.offset
  stops : ∃ t, ts[last]? = some t ∧ i.offset + i.length = t.stop
  inside : ∀ k t, ts[k]? = some t → (holds i t = true ↔ first ≤ k ∧ k ≤ last)

section Order

variable {j k : Nat} {t u : Token}

theorem InOrder.stop_le (h : InOrder ts) (hjk : j < k) (ht : ts[j]? = some t)
    (hu : ts[k]? = some u) : t.stop ≤ u.start.offset := by
  obtain ⟨hj, rfl⟩ := List.getElem?_eq_some_iff.1 ht
  obtain ⟨hk, rfl⟩ := List.getElem?_eq_some_iff.1 hu
  exact List.pairwise_iff_getElem.1 h.ordered j k hj hk hjk

/-- Tokens start in the order of their indices, and they end in it. -/
theorem InOrder.le_iff (h : InOrder ts) (ht : ts[j]? = some t) (hu : ts[k]? = some u) :
    (t.start.offset ≤ u.start.offset ↔ j ≤ k) ∧ (t.stop ≤ u.stop ↔ j ≤ k) := by
  have htlt := h.nonempty t (List.mem_of_getElem? ht)
  have hult := h.nonempty u (List.mem_of_getElem? hu)
  rcases Nat.lt_trichotomy j k with hlt | rfl | hlt
  · have hle := h.stop_le hlt ht hu
    omega
  · cases ht.symm.trans hu
    simp
  · have hle := h.stop_le hlt hu ht
    omega

/-- An item reaches over the tokens from the one it starts with to the one it ends with. -/
theorem InOrder.covers (h : InOrder ts) {form : Form Span} (ht : ts[j]? = some t)
    (hu : ts[k]? = some u) (hpos : 0 < (itemAt t u.stop form).length) :
    Covers ts j k (itemAt t u.stop form) := by
  have hlt : t.start.offset < u.stop := Nat.lt_of_sub_pos hpos
  have hstop : t.start.offset + (u.stop - t.start.offset) = u.stop := by omega
  have hle : j ≤ k := by
    by_contra hkj
    have hle := h.stop_le (Nat.lt_of_not_le hkj) hu ht
    omega
  refine ⟨hle, ⟨t, ht, rfl⟩, ⟨u, hu, hstop⟩, fun n v hv => ?_⟩
  simp only [holds, Bool.and_eq_true, decide_eq_true_eq]
  show t.start.offset ≤ v.start.offset ∧ v.stop ≤ t.start.offset + (u.stop - t.start.offset) ↔ _
  rw [hstop, (h.le_iff ht hv).1, (h.le_iff hv hu).2]

end Order

theorem Covers.map {ε ζ : Type} {first last : Nat} {i : Item ε} (h : Covers ts first last i)
    (f : ε → ζ) : Covers ts first last (i.map f) :=
  ⟨h.le, h.starts, h.stops, h.inside⟩

/-- Items of the same tokens that are the same but for their excerpts. -/
structure SameItem {ε ζ : Type} (ts us : List Token) (i : Item ε) (j : Item ζ) : Prop where
  outline : i.form.outline = j.form.outline
  covers : ∃ first last, Covers ts first last i ∧ Covers us first last j

theorem SameItem.map {ε ζ η θ : Type} {i : Item ε} {j : Item ζ} (h : SameItem ts us i j)
    (f : ε → η) (g : ζ → θ) : SameItem ts us (i.map f) (j.map g) := by
  obtain ⟨first, last, hi, hj⟩ := h.covers
  refine ⟨?_, first, last, hi.map f, hj.map g⟩
  show (i.form.map f).outline = (j.form.map g).outline
  rw [Form.outline_map, Form.outline_map, h.outline]

theorem Relaid.sameItem (h : Relaid ts us) (hts : InOrder ts) (hus : InOrder us)
    {i j : Item Span} (hij : (aligned ts us h).Items i j) (hi : 0 < i.length) (hj : 0 < j.length) :
    SameItem ts us i j := by
  obtain ⟨⟨first, ht, hu⟩, ⟨last, ht', hu'⟩, hform⟩ := hij
  exact ⟨hform.map_eq fun _ _ _ => rfl, first, last, hts.covers ht ht' hi, hus.covers hu hu' hj⟩

theorem Relaid.sameItems (h : Relaid ts us) (hts : InOrder ts) (hus : InOrder us)
    {is js : List (Item Span)} (hall : List.Forall₂ (aligned ts us h).Items is js)
    (his : ∀ i ∈ is, 0 < i.length) (hjs : ∀ j ∈ js, 0 < j.length) :
    List.Forall₂ (SameItem ts us) is js := by
  induction hall with
  | nil => exact .nil
  | cons hij _ ih =>
    obtain ⟨hi, his⟩ := List.forall_mem_cons.1 his
    obtain ⟨hj, hjs⟩ := List.forall_mem_cons.1 hjs
    exact .cons (h.sameItem hts hus hij hi hj) (ih his hjs)

/-! ## Both texts -/

/-- A text is rejected with the error `e` at the token with index `k`, or at its end if `k` is the
number of its tokens. -/
structure RejectedAt (tasks : Bool) (text : String) (scan : Scan) (k : Nat) (e : SyntaxError) :
    Prop where
  le : k ≤ scan.tokens.length
  rejected : items tasks scan.tokens = .error (scan.tokens.drop k)
  error : e = errorAt scan.stop (scan.tokens.drop k)
  parse : Manifest.parse tasks text = .error e

theorem rejectedAt_of_items {tasks : Bool} {text : String} {scan : Scan} {rejected : List Token}
    (hscan : Scan.ofText text = .ok scan) (h : items tasks scan.tokens = .error rejected) :
    RejectedAt tasks text scan (scan.tokens.length - rejected.length)
      (errorAt scan.stop rejected) := by
  obtain ⟨before, htokens, -⟩ := items_earliest h
  have hdrop : scan.tokens.drop (scan.tokens.length - rejected.length) = rejected := by
    rw [htokens, List.length_append, Nat.add_sub_cancel, List.drop_left]
  refine ⟨Nat.sub_le _ _, by rw [hdrop, h], by rw [hdrop], ?_⟩
  rw [Manifest.parse, hscan]
  simp only [h]

theorem cause_eq_of_lists {C : Correspondence} (h : C.Lists ts us) (stop stop' : Place) :
    (errorAt stop ts).cause = (errorAt stop' us).cause := by
  cases h with
  | nil => rfl
  | cons h _ _ => exact congrArg SyntaxError.Cause.unexpected (C.value h)

end Grammar

open Grammar

/-- **Parsing does not depend on the layout.** Of two texts with the same tokens in different
layouts, either both are accepted, with the same items one by one, or both are rejected, for the
same cause and at the same token. -/
theorem parse_relaid {text text' : String} {scan scan' : Scan} (tasks : Bool)
    (hscan : Scan.ofText text = .ok scan) (hscan' : Scan.ofText text' = .ok scan')
    (h : Relaid scan.tokens scan'.tokens) :
    (∃ m m', Manifest.parse tasks text = .ok m ∧ Manifest.parse tasks text' = .ok m' ∧
        List.Forall₂ (SameItem scan.tokens scan'.tokens) m.items m'.items) ∨
      ∃ k e e', RejectedAt tasks text scan k e ∧ RejectedAt tasks text' scan' k e' ∧
        e.cause = e'.cause := by
  have hlists : (aligned _ _ h).Lists scan.tokens scan'.tokens :=
    h.lists fun ht hu => ⟨_, ht, hu⟩
  rcases items_alike hlists tasks with ⟨is, js, his, hjs, hall⟩ |
    ⟨rejected, rejected', herror, herror', hrejected⟩
  · left
    have hts := inOrder_of_scan hscan
    have hus := inOrder_of_scan hscan'
    rw [items_eq_ok] at his hjs
    refine ⟨_, _, parse_eq_ok.2 ⟨scan, is, hscan, his, rfl⟩,
      parse_eq_ok.2 ⟨scan', js, hscan', hjs, rfl⟩, ?_⟩
    have hsame := h.sameItems hts hus hall (his.partitions hts).nonempty
      (hjs.partitions hus).nonempty
    rw [List.forall₂_map_left_iff, List.forall₂_map_right_iff]
    exact hsame.imp fun _ _ hij => hij.map _ _
  · right
    -- the tokens from the error on are the last ones of the text, and as many on both sides
    have hk : scan.tokens.length - rejected.length = scan'.tokens.length - rejected'.length := by
      rw [h.length_eq, length_eq_of_lists hrejected]
    refine ⟨_, _, _, rejectedAt_of_items hscan herror, ?_, cause_eq_of_lists hrejected _ scan'.stop⟩
    rw [hk]
    exact rejectedAt_of_items hscan' herror'

/-- The tokens of `type A=B[1]`. -/
def tightAlias : Scan :=
  ⟨[⟨.name, "type", ⟨0, 1, 1⟩, 4⟩, ⟨.typeName, "A", ⟨5, 1, 6⟩, 6⟩,
    ⟨.operator .assign, "=", ⟨6, 1, 7⟩, 7⟩, ⟨.typeName, "B", ⟨7, 1, 8⟩, 8⟩,
    ⟨opening .square, "[", ⟨8, 1, 9⟩, 9⟩, ⟨.number, "1", ⟨9, 1, 10⟩, 10⟩,
    ⟨closing .square, "]", ⟨10, 1, 11⟩, 11⟩], ⟨11, 1, 12⟩⟩

/-- The same on two lines, with a comment and blanks. -/
def looseAlias : Scan :=
  ⟨[⟨.name, "type", ⟨0, 1, 1⟩, 4⟩, ⟨.typeName, "A", ⟨5, 1, 6⟩, 6⟩,
    ⟨.operator .assign, "=", ⟨11, 2, 1⟩, 12⟩, ⟨.typeName, "B", ⟨13, 2, 3⟩, 14⟩,
    ⟨opening .square, "[", ⟨14, 2, 4⟩, 15⟩, ⟨.number, "1", ⟨15, 2, 5⟩, 16⟩,
    ⟨closing .square, "]", ⟨17, 2, 7⟩, 18⟩], ⟨18, 2, 8⟩⟩

/-- Both are the same alias. -/
theorem parse_relaid_alias :
    Scan.ofText "type A=B[1]" = .ok tightAlias ∧
      Scan.ofText "type A # a\n= B[1 ]" = .ok looseAlias ∧
      Relaid tightAlias.tokens looseAlias.tokens ∧
      ∃ m m', Manifest.parse true "type A=B[1]" = .ok m ∧
        Manifest.parse true "type A # a\n= B[1 ]" = .ok m' ∧
        List.Forall₂ (SameItem tightAlias.tokens looseAlias.tokens) m.items m'.items := by
  have htight : Scan.ofText "type A=B[1]" = .ok tightAlias := by decide +kernel
  have hloose : Scan.ofText "type A # a\n= B[1 ]" = .ok looseAlias := by decide +kernel
  have hrelaid : Relaid tightAlias.tokens looseAlias.tokens := ⟨by decide, by decide⟩
  refine ⟨htight, hloose, hrelaid, ?_⟩
  rcases parse_relaid true htight hloose hrelaid with hsame | ⟨_, _, _, hrejected, -, -⟩
  · exact hsame
  · have haccepted : Manifest.parse true "type A=B[1]" =
        .ok ⟨"type A=B[1]", [⟨1, 0, 11, .definition (.typeAlias "A" "B[1]")⟩]⟩ := by decide +kernel
    cases haccepted.symm.trans hrejected.parse

end ManifestDocs
