/-
Print, then parse. The tokens of what is printed are those of its pieces, shifted to where they
stand; since the grammar looks at kinds, values and adjacency only, they derive the definition that
was printed. So reading a printed list of definitions gives the list back, with the line breaks
around each body. At the end stand a class with a brace in a heredoc, which is read back, and one
whose heredocs are closed only where their text ends, which is not.
-/
import ManifestDocs.Proofs.Partition
import ManifestDocs.Proofs.Printing

namespace ManifestDocs.Grammar

/-! ## The grammar elsewhere in a text -/

section Shift

variable {d l : Nat} {ts : List Token}

theorem nestAll?_shift (inside : List Bracket) (ts : List Token) :
    nestAll? inside (ts.map (·.shift d l)) = nestAll? inside ts := by
  induction ts generalizing inside with
  | nil => rfl
  | cons t ts ih =>
    rw [List.map_cons, nestAll?_cons, nestAll?_cons, Token.shift_kind]
    congr 1
    funext inside'
    exact ih inside'

theorem balanced_shift : Balanced (ts.map (·.shift d l)) ↔ Balanced ts := by
  rw [balanced_iff_nestAll?, balanced_iff_nestAll?, nestAll?_shift]

theorem IsBracketed.shift {b : Bracket} {first last : Token} (h : IsBracketed b ts (first, last)) :
    IsBracketed b (ts.map (·.shift d l)) (first.shift d l, last.shift d l) := by
  obtain ⟨hfirst, hinner, hlast⟩ := h
  rw [List.map_cons, List.map_append, List.map_singleton]
  exact .mk hfirst (balanced_shift.2 hinner) hlast

/-- A span `d` characters further on. -/
def shiftSpan (d : Nat) (s : Span) : Span :=
  ⟨s.start + d, s.stop + d⟩

theorem IsType.shift {s : Span} (h : IsType ts s) :
    IsType (ts.map (·.shift d l)) (shiftSpan d s) := by
  cases h with
  | @bare head hhead => exact @IsType.bare (head.shift d l) hhead
  | @applied head first last ts hhead harguments adjacent =>
    have hadjacent : (first.shift d l).start.offset = (head.shift d l).stop := by
      rw [Token.shift_offset, Token.shift_stop, adjacent]
    exact @IsType.applied (head.shift d l) _ _ _ hhead harguments.shift hadjacent

theorem IsAliased.shift {s : Span} (h : IsAliased ts s) :
    IsAliased (ts.map (·.shift d l)) (shiftSpan d s) := by
  cases h with
  | type h => exact .type h.shift
  | braced h hbraces =>
    rw [List.map_append]
    exact .braced h.shift hbraces.shift
  | alone hb h => exact .alone hb h.shift

theorem IsValue.shift {s : Span} (h : IsValue ts s) :
    IsValue (ts.map (·.shift d l)) (shiftSpan d s) := by
  obtain ⟨hbalanced, noComma⟩ := h
  next first ts =>
  have hspan : shiftSpan d (spanOf first (ts.getLast?.getD first)) =
      spanOf (first.shift d l) (((ts.map (·.shift d l)).getLast?).getD (first.shift d l)) := by
    rw [List.getLast?_map]
    cases ts.getLast? <;> rfl
  rw [hspan, List.map_cons]
  refine .mk ?_ fun before t after he hbefore => ?_
  · exact balanced_shift.2 hbalanced
  · have hmap : (first :: ts).map (·.shift d l) = before ++ t :: after := he
    obtain ⟨front, back, hsplit, rfl, hback⟩ := List.map_eq_append_iff.1 hmap
    obtain ⟨u, more, rfl, rfl, -⟩ := List.map_eq_cons_iff.1 hback
    exact noComma front u more hsplit (balanced_shift.1 hbefore)

end Shift

end ManifestDocs.Grammar

namespace ManifestDocs.Printing

open ManifestDocs.Grammar ManifestDocs.Scanner

/-! ## Single pieces -/

section Single

variable {whole : List Char} {d : Nat} {ts : List Token}

theorem placed_single {x : List Char} (h : Placed whole d [x] ts) :
    ∃ base l after, ts = base.map (·.shift d l) ∧ ScansTo x base ∧ whole.drop d = x ++ after := by
  cases h with
  | @cons _ l _ after _ base _ stands scans more =>
    cases more
    rw [joined_cons, remainder, List.append_nil] at stands
    exact ⟨base, l, after, by rw [List.append_nil], scans, stands⟩

/-- A piece that is one token. -/
theorem placed_token {kinds : List Token.Kind} {x : String} (hx : IsToken kinds x)
    (h : Placed whole d [x.toList] ts) :
    ∃ t, ts = [t] ∧ t.kind ∈ kinds ∧ t.value = x ∧ t.start.offset = d ∧
      t.stop = d + x.toList.length := by
  obtain ⟨base, l, after, rfl, hscans, -⟩ := placed_single h
  obtain ⟨t, ht, hkind, hvalue, hstart, hstop⟩ := hx.hasTokens
  rw [hscans.unique ht.scansTo]
  refine ⟨t.shift d l, rfl, hkind, hvalue, ?_, ?_⟩
  · rw [Token.shift_offset, hstart, Nat.zero_add]
  · rw [Token.shift_stop, hstop, Nat.add_comm]

theorem excerpt_of_stands {x after : List Char} (h : whole.drop d = x ++ after) :
    Span.excerpt whole (shiftSpan d ⟨0, x.length⟩) = String.ofList x := by
  simp only [Span.excerpt, shiftSpan, Nat.zero_add, Nat.add_sub_cancel, h, List.take_left]

/-- A piece that is derived from its first character to its last. -/
theorem placed_tight {R : List Token → Span → Prop}
    (hR : ∀ {us s e l}, R us s → R (us.map (Token.shift e l)) (shiftSpan e s)) {x : String}
    (hx : IsTight R x) (h : Placed whole d [x.toList] ts) :
    ∃ s, R ts s ∧ Span.excerpt whole s = x ∧ s.stop = d + x.toList.length := by
  obtain ⟨base, l, after, rfl, hscans, hstands⟩ := placed_single h
  obtain ⟨base', hbase, htight⟩ := hx
  rw [hscans.unique hbase.scansTo]
  refine ⟨_, hR htight, ?_, Nat.add_comm ..⟩
  rw [excerpt_of_stands hstands, String.ofList_toList]

/-- The first of some pieces, and the others. -/
theorem placed_cons {x : String} {xs : List String}
    (h : Placed whole d ((x :: xs).map String.toList) ts) :
    ∃ us vs, ts = us ++ vs ∧ Placed whole d [x.toList] us ∧
      Placed whole (d + (x.toList.length + 1)) (xs.map String.toList) vs := by
  have hsplit : Placed whole d ([x.toList] ++ xs.map String.toList) ts := h
  obtain ⟨us, vs, rfl, hus, hvs⟩ := hsplit.append
  exact ⟨us, vs, rfl, hus, by simpa using hvs⟩

/-- Some pieces of which the first is one token. -/
theorem placed_first {kinds : List Token.Kind} {x : String} {xs : List String} (hx : IsToken kinds x)
    (h : Placed whole d ((x :: xs).map String.toList) ts) :
    ∃ t us, ts = t :: us ∧ t.kind ∈ kinds ∧ t.value = x ∧ t.start.offset = d ∧
      t.stop = d + x.toList.length ∧
      Placed whole (d + (x.toList.length + 1)) (xs.map String.toList) us := by
  obtain ⟨us, vs, rfl, hus, hvs⟩ := placed_cons h
  obtain ⟨t, rfl, hkind, hvalue, hstart, hstop⟩ := placed_token hx hus
  exact ⟨t, vs, rfl, hkind, hvalue, hstart, hstop, hvs⟩

theorem placed_append {xs ys : List String} (h : Placed whole d ((xs ++ ys).map String.toList) ts) :
    ∃ us vs, ts = us ++ vs ∧ Placed whole d (xs.map String.toList) us ∧
      Placed whole (d + extent (xs.map String.toList)) (ys.map String.toList) vs := by
  rw [List.map_append] at h
  exact h.append

theorem placed_nil (h : Placed whole d [] ts) : ts = [] := by
  cases h
  rfl

end Single

/-! ## The parts of a definition -/

section Parts

variable {whole : List Char} {d : Nat} {ts : List Token}

/-- A body is read back with the line breaks around it. -/
theorem placed_body {body : String} (hbody : IsBody body)
    (h : Placed whole d ((bodyPieces body).map String.toList) ts) :
    ∃ span last, IsBlock ts (span, last) ∧ Span.excerpt whole span = "\n" ++ body ++ "\n" ∧
      last.stop + 1 = d + extent ((bodyPieces body).map String.toList) := by
  obtain ⟨after, hstands⟩ : ∃ after, whole.drop d =
      '\x7b' :: '\n' :: (body.toList ++ '\n' :: '\x7d' :: after) := by
    obtain ⟨after, hstands⟩ := h.stands (by simp [bodyPieces])
    exact ⟨after, by simpa [bodyPieces, joined] using hstands⟩
  obtain ⟨first, vs, rfl, hfirst, -, -, hfirstStop, hvs⟩ :=
    placed_first (isToken_mark (o := .opening .curly) (by decide)) h
  obtain ⟨bs, cs, rfl, hbs, hcs⟩ := placed_cons hvs
  obtain ⟨last, rfl, hlast, -, hlastStart, hlastStop⟩ :=
    placed_token (isToken_mark (o := .closing .curly) (by decide)) hcs
  have hbalanced : Balanced bs := by
    obtain ⟨base, l, -, rfl, hscans, -⟩ := placed_single hbs
    obtain ⟨base', hbase, -, hbalanced⟩ := hbody
    rw [hscans.unique hbase.scansTo]
    exact balanced_shift.2 hbalanced
  have hopen : (Operator.opening .curly).text.toList.length = 1 := rfl
  refine ⟨_, last, .mk (.mk (List.mem_singleton.1 hfirst) hbalanced (List.mem_singleton.1 hlast)),
    ?_, ?_⟩
  · have hdrop : whole.drop (d + 1) = ('\n' :: (body.toList ++ ['\n'])) ++ '\x7d' :: after := by
      rw [← List.drop_drop, hstands, List.drop_one, List.tail_cons]
      simp
    have hstop : last.start.offset = d + 1 + ('\n' :: (body.toList ++ ['\n'])).length := by
      rw [hlastStart, hopen]
      simp only [List.length_cons, List.length_append, List.length_nil]
      omega
    rw [Span.excerpt, hfirstStop, hopen, hstop, Nat.add_sub_cancel_left, hdrop, List.take_left]
    apply String.toList_injective
    simp
  · rw [hlastStop]
    simp only [bodyPieces, Operator.text, List.map_cons, List.map_nil, extent_cons, extent_nil]
    omega

/-- An optional piece that is derived from its first character to its last. -/
theorem placed_optional {R : List Token → Span → Prop}
    (hR : ∀ {us s e l}, R us s → R (us.map (Token.shift e l)) (shiftSpan e s)) {x : Option String}
    (hx : ∀ t ∈ x, IsTight R t) (h : Placed whole d (x.toList.map String.toList) ts) :
    ∃ s, Maybe R ts s ∧ s.map (Span.excerpt whole) = x := by
  cases x with
  | none =>
    rw [placed_nil h]
    exact ⟨none, .none, rfl⟩
  | some t =>
    obtain ⟨s, hs, hexcerpt, -⟩ := placed_tight hR (hx t rfl) h
    exact ⟨some s, .some hs, congrArg some hexcerpt⟩

theorem placed_star {star : Bool}
    (h : Placed whole d ((if star then ["*"] else []).map String.toList) ts) : IsStar ts star := by
  cases star with
  | false =>
    rw [placed_nil h]
    exact .none
  | true =>
    obtain ⟨t, rfl, hkind, -⟩ := placed_token (isToken_mark (o := .star) (by decide)) h
    exact .some (List.mem_singleton.1 hkind)

/-- An optional part that is an operator and a piece after it. -/
theorem placed_marked {o : Operator} (ho : o ∈ marks) {R S : List Token → Span → Prop}
    (hR : ∀ {us s e l}, R us s → R (us.map (Token.shift e l)) (shiftSpan e s))
    (hS : ∀ {t us s}, t.kind = .operator o → R us s → S (t :: us) s) {x : Option String}
    (hx : ∀ t ∈ x, IsTight R t)
    (h : Placed whole d ((x.toList.flatMap fun t => [o.text, t]).map String.toList) ts) :
    ∃ s, Maybe S ts s ∧ s.map (Span.excerpt whole) = x := by
  cases x with
  | none =>
    rw [placed_nil h]
    exact ⟨none, .none, rfl⟩
  | some t =>
    obtain ⟨mark, vs, rfl, hkind, -, -, -, hvs⟩ := placed_first (isToken_mark ho) h
    obtain ⟨s, hs, hexcerpt, -⟩ := placed_tight hR (hx t rfl) hvs
    exact ⟨some s, .some (hS (List.mem_singleton.1 hkind) hs), congrArg some hexcerpt⟩

theorem placed_parameter {p : Parameter String} (hp : WellFormedParameter p)
    (h : Placed whole d ((parameterPieces p).map String.toList) ts) :
    ∃ q, IsParameter ts q ∧ q.map (Span.excerpt whole) = p := by
  obtain ⟨htype, hname, hvalue⟩ := hp
  obtain ⟨us, more, rfl, hus, hmore⟩ := placed_append h
  obtain ⟨ss, back, rfl, hss, hback⟩ := placed_append hmore
  obtain ⟨t, vs, rfl, hkind, hnameText, -, -, hvs⟩ := placed_first hname hback
  obtain ⟨type, hustype, htypeText⟩ := placed_optional IsType.shift htype hus
  obtain ⟨value, hvsvalue, hvalueText⟩ :=
    placed_marked (o := .assign) (by decide) IsValue.shift IsAssigned.mk hvalue hvs
  refine ⟨_, .mk hustype (placed_star hss) (List.mem_singleton.1 hkind) hvsvalue, ?_⟩
  have hdollar : String.ofList t.value.toList.tail = p.name := by
    rw [hnameText]
    apply String.toList_injective
    simp
  rw [Parameter.map, hdollar, htypeText, hvalueText]

/-- Parts with commas between them, if each of them is read back. -/
theorem placed_commaList {α β : Type} {R : List Token → β → Prop} {f : α → List String} {g : β → α}
    {as : List α} (hR : ∀ a ∈ as, ∀ {d ts}, Placed whole d ((f a).map String.toList) ts →
      ∃ b, R ts b ∧ g b = a) (hne : as ≠ [])
    (h : Placed whole d (([","].intercalate (as.map f)).map String.toList) ts) :
    ∃ bs, CommaList R ts bs ∧ bs.map g = as := by
  induction as generalizing d ts with
  | nil => exact absurd rfl hne
  | cons a as ih =>
    cases as with
    | nil =>
      rw [List.map_singleton, List.intercalate_singleton] at h
      obtain ⟨b, hb, rfl⟩ := hR a (by simp) h
      exact ⟨[b], .one hb, rfl⟩
    | cons a' as =>
      rw [List.map_cons, List.map_cons, List.intercalate_cons_cons, List.append_assoc] at h
      obtain ⟨us, more, rfl, hus, hmore⟩ := placed_append h
      obtain ⟨c, vs, rfl, hcomma, -, -, -, hvs⟩ :=
        placed_first (isToken_mark (o := .comma) (by decide)) hmore
      obtain ⟨b, hb, rfl⟩ := hR _ (by simp) hus
      obtain ⟨bs, hbs, hmap⟩ := ih (fun x hx => hR x (by simp [hx])) (List.cons_ne_nil _ _) hvs
      refine ⟨b :: bs, .cons hb (List.mem_singleton.1 hcomma) hbs, ?_⟩
      rw [List.map_cons, hmap]

theorem placed_parameters {ps : List (Parameter String)} (hps : ∀ p ∈ ps, WellFormedParameter p)
    (h : Placed whole d ((parametersPieces ps).map String.toList) ts) :
    ∃ qs, IsParameters ts qs ∧ qs.map (·.map (Span.excerpt whole)) = ps := by
  rw [parametersPieces] at h
  split at h
  · next hempty =>
    rw [placed_nil h, List.isEmpty_iff.1 hempty]
    exact ⟨[], .absent, rfl⟩
  · next hne =>
    obtain ⟨first, more, rfl, hfirst, -, -, -, hmore⟩ :=
      placed_first (isToken_mark (o := .opening .round) (by decide)) h
    obtain ⟨vs, ws, rfl, hvs, hws⟩ := placed_append hmore
    obtain ⟨last, rfl, hlast, -⟩ :=
      placed_token (isToken_mark (o := .closing .round) (by decide)) hws
    obtain ⟨qs, hqs, hmap⟩ := placed_commaList (fun p hp _ _ => placed_parameter (hps p hp))
      (by simpa using hne) hvs
    exact ⟨qs, .present (List.mem_singleton.1 hfirst) (.listed hqs) (List.mem_singleton.1 hlast), hmap⟩

theorem isName_of_token {t : Token} {word : String} (hkind : t.kind ∈ [Token.Kind.name])
    (hvalue : t.value = word) : t.isName word = true := by
  simp [Token.isName, List.mem_singleton.1 hkind, hvalue]

theorem placed_parent {kinds : List Token.Kind} (hkinds : [.name, .string] ⊆ kinds)
    {parent : Option String} (hparent : ∀ p ∈ parent, IsToken [.name, .string] p)
    (h : Placed whole d ((parentPieces parent).map String.toList) ts) :
    Maybe (IsParent kinds) ts parent := by
  cases parent with
  | none =>
    rw [placed_nil h]
    exact .none
  | some p =>
    obtain ⟨t, vs, rfl, hkind, hvalue, -, -, hvs⟩ := placed_first isToken_inherits h
    obtain ⟨u, rfl, hparentKind, rfl, -⟩ := placed_token (hparent p rfl) hvs
    exact .some (.mk (isName_of_token hkind hvalue) (.mk (hkinds hparentKind)))

theorem placed_return {returns : Option String} (hreturns : ∀ t ∈ returns, IsTight IsType t)
    (h : Placed whole d ((returnPieces returns).map String.toList) ts) :
    ∃ s, Maybe IsReturn ts s ∧ s.map (Span.excerpt whole) = returns :=
  placed_marked (o := .shiftRight) (by decide) IsType.shift IsReturn.mk hreturns h

theorem placed_host {host : String} (hhost : IsToken hostKinds host)
    (h : Placed whole d ([host].map String.toList) ts) :
    ∃ value, IsOneOf hostKinds ts value ∧ id value = host := by
  obtain ⟨t, rfl, hkind, rfl, -⟩ := placed_token hhost h
  exact ⟨t.value, .mk hkind, rfl⟩

theorem placed_hosts {hosts : List String} {parent : Option String} (hne : hosts ≠ [])
    (hhosts : ∀ h ∈ hosts, IsToken hostKinds h) (hparent : ∀ p ∈ parent, IsToken [.name, .string] p)
    (h : Placed whole d (([","].intercalate (hosts.map ([·])) ++ parentPieces parent).map
      String.toList) ts) : IsHosts ts hosts parent := by
  obtain ⟨us, vs, rfl, hus, hvs⟩ := placed_append h
  obtain ⟨values, hvalues, hmap⟩ :=
    placed_commaList (fun host hhost _ _ => placed_host (hhosts host hhost)) hne hus
  rw [List.map_id] at hmap
  rw [← hmap]
  exact .listed hvalues (placed_parent (by decide) hparent hvs)

end Parts

/-! ## Definitions -/

/-- A definition with line breaks around its body, as it is printed. -/
def spaced : Definition String → Definition String
  | .hostClass name parameters parent body =>
    .hostClass name parameters parent ("\n" ++ body ++ "\n")
  | .definedType name parameters body => .definedType name parameters ("\n" ++ body ++ "\n")
  | .function name parameters returns body =>
    .function name parameters returns ("\n" ++ body ++ "\n")
  | .plan name parameters body => .plan name parameters ("\n" ++ body ++ "\n")
  | .typeAlias name type => .typeAlias name type
  | .node hosts parent body => .node hosts parent ("\n" ++ body ++ "\n")

section Definitions

variable {whole : List Char} {o : Nat} {tasks : Bool} {ts : List Token}

/-- The keyword, the name and the parameters of a definition. -/
theorem placed_header {k : Keyword} {name : String} {parameters : List (Parameter String)}
    {xs : List String} (hname : IsToken [.name] name)
    (hparameters : ∀ p ∈ parameters, WellFormedParameter p)
    (h : Placed whole o ((k.word :: name :: (parametersPieces parameters ++ xs)).map String.toList)
      ts) :
    ∃ t n ps us qs, ts = t :: n :: (ps ++ us) ∧ t.kind = .name ∧ t.isName k.word = true ∧
      t.start.offset = o ∧ n.kind = .name ∧ n.value = name ∧ IsParameters ps qs ∧
      qs.map (·.map (Span.excerpt whole)) = parameters ∧
      Placed whole (o + extent ((k.word :: name :: parametersPieces parameters).map String.toList))
        (xs.map String.toList) us := by
  obtain ⟨t, named, rfl, hkind, hkeyword, hstart, -, hnamed⟩ := placed_first (isToken_keyword k) h
  obtain ⟨n, more, rfl, hnkind, hvalue, -, -, hmore⟩ := placed_first hname hnamed
  obtain ⟨ps, us, rfl, hps, hus⟩ := placed_append hmore
  obtain ⟨qs, hqs, hmap⟩ := placed_parameters hparameters hps
  refine ⟨t, n, ps, us, qs, rfl, List.mem_singleton.1 hkind, isName_of_token hkind hkeyword, hstart,
    List.mem_singleton.1 hnkind, hvalue, hqs, hmap, ?_⟩
  rw [List.map_cons, List.map_cons, extent_cons, extent_cons, ← Nat.add_assoc, ← Nat.add_assoc]
  exact hus

/-- A type is read to its end if a name follows it. -/
theorem aliasEnds_of_name {rest : List Token} (hrest : ∀ t ∈ rest.head?, t.kind = .name) :
    AliasEnds ts rest := by
  refine ⟨fun head _ hfollow => ?_, fun _ => ?_⟩
  · obtain ⟨t, more, rfl, hkind, -⟩ := hfollow
    rw [hrest t rfl] at hkind
    cases hkind
  · cases rest with
    | nil => rfl
    | cons t more => simp [startsWith, hrest t rfl, opening]

/-- **A printed definition is read back.** What follows it starts with a name, if anything does. -/
theorem placed_definition {d : Definition String} (hd : WellFormed tasks d) {rest : List Token}
    (hrest : ∀ t ∈ rest.head?, t.kind = .name)
    (h : Placed whole o ((pieces d).map String.toList) ts) :
    ∃ t more r stop, ts = t :: more ∧ t.kind = .name ∧ t.start.offset = o ∧
      IsDefinition tasks (t :: more) rest (r, stop) ∧ r.map (Span.excerpt whole) = spaced d ∧
      stop + 1 = o + extent ((pieces d).map String.toList) := by
  cases d with
  | hostClass name parameters parent body =>
    obtain ⟨hname, hparameters, hparent, hbody⟩ := hd
    obtain ⟨t, n, ps, us, qs, rfl, hkind, hkeyword, hstart, hn, rfl, hqs, rfl, h⟩ :=
      placed_header (k := .hostClass) hname hparameters h
    obtain ⟨us, bs, rfl, hus, hbs⟩ := placed_append h
    have hparent := placed_parent (fun _ h => h) hparent hus
    obtain ⟨span, last, hblock, hexcerpt, hstop⟩ := placed_body hbody hbs
    refine ⟨t, _, _, _, rfl, hkind, hstart, .hostClass hkeyword hn hqs hparent hblock, ?_, ?_⟩
    · rw [Definition.map, hexcerpt, spaced]
    · rw [hstop]
      simp only [pieces, Keyword.word, List.map_cons, List.map_append, extent_cons, extent_append]
      omega
  | definedType name parameters body =>
    obtain ⟨hname, hparameters, hbody⟩ := hd
    obtain ⟨t, n, ps, us, qs, rfl, hkind, hkeyword, hstart, hn, rfl, hqs, rfl, h⟩ :=
      placed_header (k := .definedType) hname hparameters h
    obtain ⟨span, last, hblock, hexcerpt, hstop⟩ := placed_body hbody h
    refine ⟨t, _, _, _, rfl, hkind, hstart, .definedType hkeyword hn hqs hblock, ?_, ?_⟩
    · rw [Definition.map, hexcerpt, spaced]
    · rw [hstop]
      simp only [pieces, Keyword.word, List.map_cons, List.map_append, extent_cons, extent_append]
      omega
  | function name parameters returns body =>
    obtain ⟨hname, hparameters, hreturns, hbody⟩ := hd
    obtain ⟨t, n, ps, us, qs, rfl, hkind, hkeyword, hstart, hn, rfl, hqs, rfl, h⟩ :=
      placed_header (k := .function) hname hparameters h
    obtain ⟨us, bs, rfl, hus, hbs⟩ := placed_append h
    obtain ⟨s, hs, rfl⟩ := placed_return hreturns hus
    obtain ⟨span, last, hblock, hexcerpt, hstop⟩ := placed_body hbody hbs
    refine ⟨t, _, _, _, rfl, hkind, hstart, .function hkeyword hn hqs hs hblock, ?_, ?_⟩
    · rw [Definition.map, hexcerpt, spaced]
    · rw [hstop]
      simp only [pieces, Keyword.word, List.map_cons, List.map_append, extent_cons, extent_append]
      omega
  | plan name parameters body =>
    obtain ⟨allowed, hname, hparameters, hbody⟩ := hd
    obtain ⟨t, n, ps, us, qs, rfl, hkind, hkeyword, hstart, hn, rfl, hqs, rfl, h⟩ :=
      placed_header (k := .plan) hname hparameters h
    obtain ⟨span, last, hblock, hexcerpt, hstop⟩ := placed_body hbody h
    refine ⟨t, _, _, _, rfl, hkind, hstart, .plan allowed hkeyword hn hqs hblock, ?_, ?_⟩
    · rw [Definition.map, hexcerpt, spaced]
    · rw [hstop]
      simp only [pieces, Keyword.word, List.map_cons, List.map_append, extent_cons, extent_append]
      omega
  | typeAlias name type =>
    obtain ⟨hname, htype⟩ := hd
    obtain ⟨t, named, rfl, hkind, hkeyword, hstart, -, hnamed⟩ :=
      placed_first (isToken_keyword .typeAlias) h
    obtain ⟨n, more, rfl, hn, rfl, -, -, hmore⟩ := placed_first hname hnamed
    obtain ⟨a, us, rfl, ha, -, -, -, hus⟩ :=
      placed_first (isToken_mark (o := .assign) (by decide)) hmore
    obtain ⟨s, hs, hexcerpt, hstop⟩ := placed_tight IsAliased.shift htype hus
    refine ⟨t, _, _, _, rfl, List.mem_singleton.1 hkind, hstart,
      .typeAlias (isName_of_token hkind hkeyword) (List.mem_singleton.1 hn)
        (List.mem_singleton.1 ha) hs (aliasEnds_of_name hrest), ?_, ?_⟩
    · rw [Definition.map, hexcerpt, spaced]
    · rw [hstop]
      simp only [pieces, Keyword.word, Operator.text, List.map_cons, List.map_nil, extent_cons,
        extent_nil]
      omega
  | node hosts parent body =>
    obtain ⟨hne, hhosts, hparent, hbody⟩ := hd
    obtain ⟨t, us, rfl, hkind, hkeyword, hstart, -, hus⟩ := placed_first (isToken_keyword .node) h
    rw [← List.append_assoc] at hus
    obtain ⟨hs, bs, rfl, hhs, hbs⟩ := placed_append hus
    obtain ⟨span, last, hblock, hexcerpt, hstop⟩ := placed_body hbody hbs
    refine ⟨t, _, _, _, rfl, List.mem_singleton.1 hkind, hstart,
      .node (isName_of_token hkind hkeyword) (placed_hosts hne hhosts hparent hhs) hblock, ?_, ?_⟩
    · rw [Definition.map, hexcerpt, spaced]
    · rw [hstop]
      simp only [pieces, Keyword.word, List.map_cons, List.map_append, extent_cons, extent_append]
      omega

theorem placed_item {d : Definition String} (hd : WellFormed tasks d) {rest : List Token}
    (hrest : ∀ t ∈ rest.head?, t.kind = .name)
    (h : Placed whole o ((pieces d).map String.toList) ts) :
    ∃ t more i, ts = t :: more ∧ t.kind = .name ∧ IsItem tasks (t :: more) rest i ∧
      (i.map (Span.excerpt whole)).form = .definition (spaced d) ∧ i.source whole = print d := by
  have hne : (pieces d).map String.toList ≠ [] := by simp [pieces_ne_nil]
  obtain ⟨after, hstands⟩ := h.stands hne
  have hlength := length_joined hne
  obtain ⟨t, more, r, stop, rfl, hkind, hstart, hderives, hr, hstop⟩ := placed_definition hd hrest h
  refine ⟨t, more, _, rfl, hkind, .definition hderives, congrArg Form.definition hr, ?_⟩
  have hreach : stop - t.start.offset = (joined ((pieces d).map String.toList)).length := by omega
  rw [Item.source, Span.excerpt, itemAt, Nat.add_sub_cancel_left, hreach, hstart, hstands,
    List.take_left, ← toList_print, String.ofList_toList]

/-- Printed definitions side by side are items side by side. -/
theorem placed_items {ds : List (Definition String)} (hds : ∀ d ∈ ds, WellFormed tasks d)
    (h : Placed whole o ((ds.flatMap pieces).map String.toList) ts) :
    (∀ t ∈ ts.head?, t.kind = .name) ∧ ∃ is, AreItems tasks ts is ∧
      is.map (fun i => (i.map (Span.excerpt whole)).form) = ds.map (fun d => .definition (spaced d)) ∧
      is.map (·.source whole) = ds.map print := by
  induction ds generalizing o ts with
  | nil =>
    rw [placed_nil h]
    exact ⟨by simp, [], .nil, rfl, rfl⟩
  | cons d ds ih =>
    rw [List.flatMap_cons] at h
    obtain ⟨us, rest, rfl, hus, hmore⟩ := placed_append h
    obtain ⟨hrest, is, his, hforms, hsources⟩ := ih (fun e he => hds e (by simp [he])) hmore
    obtain ⟨t, more, i, rfl, hkind, hi, hform, hsource⟩ := placed_item (hds d (by simp)) hrest hus
    refine ⟨by simp [hkind], i :: is, .cons hi his, ?_, ?_⟩
    · rw [List.map_cons, List.map_cons, hform, hforms]
    · rw [List.map_cons, List.map_cons, hsource, hsources]

end Definitions

/-- **Print, then parse.** Printed definitions are read back in order, each with line breaks around
its body, and the text of each is what was printed for it. -/
theorem parse_printAll {tasks : Bool} {ds : List (Definition String)}
    (h : ∀ d ∈ ds, WellFormed tasks d) :
    ∃ m, Manifest.parse tasks (printAll ds) = .ok m ∧
      m.items.map (·.form) = ds.map (fun d => .definition (spaced d)) ∧
      m.items.map (·.source (printAll ds).toList) = ds.map print := by
  obtain ⟨scan, hscan, hplaced⟩ := (fits_all h).weaken.scan (toList_printAll ds)
  obtain ⟨-, is, his, hforms, hsources⟩ := placed_items h hplaced
  refine ⟨_, parse_eq_ok.2 ⟨scan, is, hscan, his, rfl⟩, ?_, ?_⟩
  · rw [List.map_map]
    exact hforms
  · rw [List.map_map]
    exact hsources

/-! ## A class with a heredoc -/

/-- A text that is one token is derived from its first character to its last if the token is. -/
theorem isTight_of_isToken {kind : Token.Kind} {R : List Token → Span → Prop} {text : String}
    (h : IsToken [kind] text) (hR : ∀ t : Token, t.kind = kind → R [t] (spanOf t t)) :
    IsTight R text := by
  obtain ⟨t, ht, hkind, -, hstart, hstop⟩ := h.hasTokens
  have hderives := hR t (List.mem_singleton.1 hkind)
  rw [spanOf, hstart, hstop] at hderives
  exact ⟨[t], ht, hderives⟩

/-- A heredoc that holds a closing brace. -/
def braceHeredoc : String := "@(E)\n\x7d\nE"

theorem isBody_braceHeredoc : IsBody braceHeredoc := by
  have hbody : Heredoc.body ['E'] "\x7d\nE".toList = some ("\x7d\nE".toList, []) := by
    show Heredoc.body ['E'] (['\x7d'] ++ '\n' :: ['E']) = _
    rw [Heredoc.body_line (by decide), Heredoc.body_lastLine (by decide)]
    rfl
  have hbody' : Heredoc.body ['E'] "\x7d\nE\n#".toList = some ("\x7d\nE\n".toList, ['#']) := by
    show Heredoc.body ['E'] (['\x7d'] ++ '\n' :: (['E'] ++ '\n' :: ['#'])) = _
    rw [Heredoc.body_line (by decide), Heredoc.body_line (by decide)]
    rfl
  let header : Token := ⟨.heredoc, "@(E)", ⟨0, 1, 1⟩, 4⟩
  let behind (rest : String) : Scanner := ⟨rest.toList, ⟨4, 1, 0⟩, [⟨['E'], 1, 1⟩], some header⟩
  let atComment : Scanner := ⟨['#'], ⟨9, 4, 9⟩, [], some header⟩
  refine ⟨[header], ⟨⟨8, 3, 2⟩, ?_⟩, ⟨⟨10, 4, 2⟩, ?_⟩, balanced_iff_nestAll?.2 (by rfl)⟩
  · have hheader : (start braceHeredoc.toList).step '@' "(E)\n\x7d\nE".toList =
        .ok (some header, behind "\n\x7d\nE") := by rfl
    have hbodies : (behind "\n\x7d\nE").step '\n' "\x7d\nE".toList =
        .ok (none, ⟨[], ⟨8, 3, 7⟩, [], some header⟩) := by
      simp only [step, Piece.first, Scanner.pass, passBodies, behind, if_true, hbody]
      rfl
    exact run_of_step rfl hheader (run_of_step rfl hbodies (run_of_nil rfl))
  · have hheader : (start (braceHeredoc ++ "\n#").toList).step '@' "(E)\n\x7d\nE\n#".toList =
        .ok (some header, behind "\n\x7d\nE\n#") := by rfl
    have hbodies : (behind "\n\x7d\nE\n#").step '\n' "\x7d\nE\n#".toList =
        .ok (none, atComment) := by
      simp only [step, Piece.first, Scanner.pass, passBodies, behind, if_true, hbody']
      rfl
    have hcomment : atComment.step '#' [] = .ok (none, ⟨[], ⟨10, 4, 9⟩, [], some header⟩) := by rfl
    exact run_of_step rfl hheader
      (run_of_step rfl hbodies (run_of_step rfl hcomment (run_of_nil rfl)))

/-- A class with a parameter that defaults to a regular expression. -/
def matcher : Definition String :=
  .hostClass "a" [⟨"x", some "A", some "/b/", false⟩] none braceHeredoc

theorem wellFormed_matcher : WellFormed false matcher := by
  have hname : IsToken [.name] "a" := isToken_of_first (c := 'a') rfl (by decide +kernel)
  have hvariable : IsToken [.variable] "$x" := isToken_of_first (c := '$') rfl (by decide +kernel)
  have htype : IsToken [.typeName] "A" := isToken_of_first (c := 'A') rfl (by decide +kernel)
  have hregex : IsToken [.regex] "/b/" := isToken_of_first (c := '/') rfl (by decide +kernel)
  refine ⟨hname, fun p hp => ?_, by simp, isBody_braceHeredoc⟩
  rw [List.mem_singleton.1 hp]
  refine ⟨fun t ht => ?_, hvariable, fun v hv => ?_⟩
  · cases ht
    exact isTight_of_isToken htype fun t ht => .bare ht
  · cases hv
    refine isTight_of_isToken hregex fun t ht => ?_
    have hbalanced : Balanced [t] :=
      Balanced.nil.cons_kind ht (by simp [opening]) (by simp [closing])
    refine .mk hbalanced fun before u after he _ => ?_
    have hu : u ∈ [t] := by simp [he]
    rw [List.mem_singleton.1 hu, ht]
    simp

/-- The class is read back, and the brace in its body does not end it. -/
theorem matcher_read_back : (∀ d ∈ [matcher], WellFormed false d) ∧
    ∃ m, Manifest.parse false (printAll [matcher]) = .ok m ∧
      m.items.map (·.form) = [.definition (.hostClass "a" [⟨"x", some "A", some "/b/", false⟩] none
        "\n@(E)\n\x7d\nE\n")] := by
  have hall : ∀ d ∈ [matcher], WellFormed false d := by
    intro d hd
    rw [List.mem_singleton.1 hd]
    exact wellFormed_matcher
  obtain ⟨m, hm, hforms, -⟩ := parse_printAll hall
  exact ⟨hall, m, hm, hforms⟩

/-! ## Heredocs that only the end of a text closes -/

/-- Two heredocs with blank tags: alone, the empty line at the end closes both. -/
def blankHeredocs : String := "@( ) @( )\n"

theorem scan_blankHeredocs : Scan.ofText blankHeredocs =
    .ok ⟨[⟨.heredoc, "@( )", ⟨0, 1, 1⟩, 4⟩, ⟨.heredoc, "@( )", ⟨5, 1, 6⟩, 9⟩], ⟨10, 2, 1⟩⟩ := by
  have hbody : Heredoc.body [] [] = some ([], []) := by
    rw [Heredoc.body]
    rfl
  let first : Token := ⟨.heredoc, "@( )", ⟨0, 1, 1⟩, 4⟩
  let second : Token := ⟨.heredoc, "@( )", ⟨5, 1, 6⟩, 9⟩
  let behindFirst : Scanner := ⟨" @( )\n".toList, ⟨4, 1, 0⟩, [⟨[], 1, 1⟩], some first⟩
  let atSecond : Scanner := ⟨"@( )\n".toList, ⟨5, 1, 0⟩, [⟨[], 1, 1⟩], some first⟩
  let behindSecond : Scanner := ⟨['\n'], ⟨9, 1, 0⟩, [⟨[], 1, 1⟩, ⟨[], 1, 6⟩], some second⟩
  have hfirst : (start blankHeredocs.toList).step '@' "( ) @( )\n".toList =
      .ok (some first, behindFirst) := by rfl
  have hgap : behindFirst.step ' ' "@( )\n".toList = .ok (none, atSecond) := by rfl
  have hsecond : atSecond.step '@' "( )\n".toList = .ok (some second, behindSecond) := by rfl
  have hbodies : behindSecond.step '\n' [] = .ok (none, ⟨[], ⟨10, 2, 10⟩, [], some second⟩) := by
    simp only [step, Piece.first, Scanner.pass, passBodies, behindSecond, if_true, hbody]
    rfl
  exact run_of_step rfl hfirst (run_of_step rfl hgap
    (run_of_step rfl hsecond (run_of_step rfl hbodies (run_of_nil rfl))))

theorem scan_printed_blankHeredocs :
    Scan.ofText (printAll [.hostClass "a" [] none blankHeredocs]) =
      .error ⟨.unclosedHeredoc "", 4, 6⟩ := by
  have hbody : Heredoc.body [] "\n\x7d".toList = some (['\n'], ['\x7d']) := by
    rw [Heredoc.body]
    rfl
  have hnone : Heredoc.body [] ['\x7d'] = none := by
    rw [Heredoc.body]
    rfl
  let keyword : Token := ⟨.name, "class", ⟨0, 1, 1⟩, 5⟩
  let name : Token := ⟨.name, "a", ⟨6, 2, 1⟩, 7⟩
  let brace : Token := ⟨opening .curly, "\x7b", ⟨8, 3, 1⟩, 9⟩
  let first : Token := ⟨.heredoc, "@( )", ⟨10, 4, 1⟩, 14⟩
  let second : Token := ⟨.heredoc, "@( )", ⟨15, 4, 6⟩, 19⟩
  -- the states in order, from behind the keyword to behind the second header
  let s₁ : Scanner := ⟨"\na\n\x7b\n@( ) @( )\n\n\x7d".toList, ⟨5, 1, 0⟩, [], some keyword⟩
  let s₂ : Scanner := ⟨"a\n\x7b\n@( ) @( )\n\n\x7d".toList, ⟨6, 2, 6⟩, [], some keyword⟩
  let s₃ : Scanner := ⟨"\n\x7b\n@( ) @( )\n\n\x7d".toList, ⟨7, 2, 6⟩, [], some name⟩
  let s₄ : Scanner := ⟨"\x7b\n@( ) @( )\n\n\x7d".toList, ⟨8, 3, 8⟩, [], some name⟩
  let s₅ : Scanner := ⟨"\n@( ) @( )\n\n\x7d".toList, ⟨9, 3, 8⟩, [], some brace⟩
  let s₆ : Scanner := ⟨"@( ) @( )\n\n\x7d".toList, ⟨10, 4, 10⟩, [], some brace⟩
  let s₇ : Scanner := ⟨" @( )\n\n\x7d".toList, ⟨14, 4, 10⟩, [⟨[], 4, 1⟩], some first⟩
  let s₈ : Scanner := ⟨"@( )\n\n\x7d".toList, ⟨15, 4, 10⟩, [⟨[], 4, 1⟩], some first⟩
  let s₉ : Scanner := ⟨"\n\n\x7d".toList, ⟨19, 4, 10⟩, [⟨[], 4, 1⟩, ⟨[], 4, 6⟩], some second⟩
  have h₁ : (start (printAll [.hostClass "a" [] none blankHeredocs]).toList).step 'c'
      ("lass".toList ++ s₁.rest) = .ok (some keyword, s₁) := by decide +kernel
  have h₂ : s₁.step '\n' s₂.rest = .ok (none, s₂) := by rfl
  have h₃ : s₂.step 'a' s₃.rest = .ok (some name, s₃) := by decide +kernel
  have h₄ : s₃.step '\n' s₄.rest = .ok (none, s₄) := by rfl
  have h₅ : s₄.step '\x7b' s₅.rest = .ok (some brace, s₅) := by rfl
  have h₆ : s₅.step '\n' s₆.rest = .ok (none, s₆) := by rfl
  have h₇ : s₆.step '@' ("( )".toList ++ s₇.rest) = .ok (some first, s₇) := by rfl
  have h₈ : s₇.step ' ' s₈.rest = .ok (none, s₈) := by rfl
  have h₉ : s₈.step '@' ("( )".toList ++ s₉.rest) = .ok (some second, s₉) := by rfl
  -- the first body takes the empty line, and the brace does not end the second
  have hstuck : s₉.step '\n' "\n\x7d".toList = .error ⟨.unclosedHeredoc "", 4, 6⟩ := by
    simp only [step, Piece.first, Scanner.pass, passBodies, s₉, if_true, hbody, Heredoc.endsLine]
    simp [hnone]
  rw [Scan.ofText, run_step rfl h₁, run_step rfl h₂, run_step rfl h₃, run_step rfl h₄,
    run_step rfl h₅, run_step rfl h₆, run_step rfl h₇, run_step rfl h₈, run_step rfl h₉,
    run_of_error rfl hstuck]
  rfl

/-- It is not enough that a body scans alone to balanced tokens: this one does, and the class that
is printed with it is no manifest. -/
theorem blankHeredocs_not_read_back :
    IsToken [.name] "a" ∧ (∃ ts, HasTokens blankHeredocs ts ∧ Balanced ts) ∧
      Manifest.parse false (printAll [.hostClass "a" [] none blankHeredocs]) =
        .error ⟨.unclosedHeredoc "", 4, 6⟩ := by
  refine ⟨isToken_of_first (c := 'a') rfl (by decide +kernel), ⟨_, ⟨_, scan_blankHeredocs⟩, ?_⟩, ?_⟩
  · exact balanced_iff_nestAll?.2 (by rfl)
  · rw [Manifest.parse, scan_printed_blankHeredocs]

end ManifestDocs.Printing
