/-
Definitions are self-contained. The source of a definition, from the first character of its keyword
through its last one, cut out of the text around it, is a manifest with this one definition: the
same in everything but its line and its offset, which are those of the start of a text.

A scanner in the cut-out text goes beside the scanner in the whole text, step by step (`CutOff`). A
piece that ends before the cut is found on both sides. Where the source begins stands a keyword,
which is the same whatever token comes before it; from there on the two scanners have passed the
same tokens and agree on what a slash starts. Only a heredoc depends on more of the text, because
its body stands on the lines behind. The grammar then reads corresponding tokens, and where the text
ends no bracket can follow that would belong to the type of an alias.
-/
import ManifestDocs.Proofs.Concatenation
import ManifestDocs.Proofs.Cuts

namespace ManifestDocs

/-- The token `t` is the token `u`, `d` characters further on. Its line and its column are left
open. -/
structure Token.Displaced (d : Nat) (t u : Token) : Prop where
  kind : t.kind = u.kind
  value : t.value = u.value
  offset : t.start.offset = u.start.offset + d
  stop : t.stop = u.stop + d

theorem Token.Displaced.endsOperand {d : Nat} {t u : Token} (h : Displaced d t u) :
    u.endsOperand = t.endsOperand := by
  rw [Token.endsOperand, Token.endsOperand, h.kind, h.value]

/-- The kind of the token that a piece makes, if it makes one. -/
def Piece.kind? : Piece → Option Token.Kind
  | .lexeme kind _ => some kind
  | .header _ _ => some .heredoc
  | _ => none

/-- A name is the same whatever comes before it. -/
theorem Piece.First.name {operand : Bool} {cs rest : List Char} {p : Piece}
    (h : First operand cs p rest) (hp : p.kind? = some .name) (operand' : Bool) :
    First operand' cs p rest := by
  obtain ⟨c, cs, rfl⟩ := List.exists_cons_of_ne_nil (Scanner.ne_nil_of_first h)
  refine h.of_not_slash ?_ operand'
  rintro rfl
  rcases h.of_slash with ⟨_, rfl⟩ | ⟨_, rfl⟩ | ⟨_, rfl⟩ <;> cases hp

namespace Scanner

open ManifestDocs.Piece

variable {d : Nat} {more : List Char} {s s' u : Scanner} {ts : List Token}

/-! ## Passing what is no heredoc -/

theorem kind_of_pass {rest : List Char} {p : Piece} {t : Option Token}
    (h : s.pass rest p = .ok (t, s')) : t.map Token.kind = p.kind? := by
  cases p with
  | newline =>
    obtain ⟨-, -, -, rfl, -⟩ := pass_newline_eq_ok.1 h
    rfl
  | _ =>
    cases h
    rfl

theorem kind?_ne_heredoc {rest : List Char} {p : Piece} {t : Option Token}
    (h : s.pass rest p = .ok (t, s')) (ht : ∀ v ∈ t, v.kind ≠ .heredoc) :
    p.kind? ≠ some .heredoc := by
  intro hp
  obtain ⟨v, hv, hkind⟩ := Option.map_eq_some_iff.1 ((kind_of_pass h).trans hp)
  exact ht v hv hkind

/-- Where no heredoc waits for its body, a piece other than a header is passed character by
character. -/
theorem pass_plain (hs : s.pending = []) (rest : List Char) {p : Piece}
    (hp : p.kind? ≠ some .heredoc) :
    s.pass rest p = .ok (p.kind?.map (s.token · p.text),
      ⟨rest, s.cursor.past p.text, [], (p.kind?.map (s.token · p.text)).or s.previous⟩) := by
  cases p with
  | newline => exact pass_newline_eq_ok.2 ⟨_, _, by rw [hs]; rfl, rfl, rfl⟩
  | header => exact absurd rfl hp
  | _ =>
    rw [← hs]
    rfl

theorem Reads.pending_eq_nil (h : Reads s ts s') (hs : s.pending = [])
    (hts : ∀ t ∈ ts, t.kind ≠ .heredoc) : s'.pending = [] := by
  induction h with
  | refl => exact hs
  | @step s s₁ s' p rest t ts hfirst hpass more ih =>
    have hp := kind?_ne_heredoc hpass fun v hv => hts v (by simp [Option.mem_def.1 hv])
    rw [pass_plain hs rest hp] at hpass
    cases hpass
    exact ih rfl fun v hv => hts v (by simp [hv])

/-! ## Beside the scanner of the whole text -/

/-- The scanner `u` stands in a text that is cut off before `more` where `s` stands in the whole
text, `d` characters further on. -/
structure CutOff (d : Nat) (more : List Char) (s u : Scanner) : Prop where
  rest : s.rest = u.rest ++ more
  offset : s.cursor.offset = u.cursor.offset + d
  pending : s.pending = [] ∧ u.pending = []

theorem CutOff.token (h : CutOff d more s u) (kind : Token.Kind) (text : List Char) :
    (s.token kind text).Displaced d (u.token kind text) := by
  refine ⟨rfl, rfl, h.offset, ?_⟩
  show s.cursor.offset + _ = u.cursor.offset + _ + d
  rw [h.offset]
  omega

/-- A piece in front of the cut is passed on both sides. -/
theorem CutOff.step (h : CutOff d more s u) {rest : List Char} {p : Piece} {t : Option Token}
    (hfirst : First u.wantsOperand s.rest p rest) (hpass : s.pass rest p = .ok (t, s'))
    (ht : ∀ v ∈ t, v.kind ≠ .heredoc) (hle : more.length ≤ s'.rest.length) :
    ∃ rest' t' u', First u.wantsOperand u.rest p rest' ∧ u.pass rest' p = .ok (t', u') ∧
      CutOff d more s' u' ∧ Option.Rel (Token.Displaced d) t t' ∧
      ((t = none → u.wantsOperand = s.wantsOperand) → u'.wantsOperand = s'.wantsOperand) := by
  have hp := kind?_ne_heredoc hpass ht
  rw [pass_plain h.pending.1 rest hp] at hpass
  cases hpass
  rw [h.rest] at hfirst
  have hlength : p.text.length ≤ u.rest.length := by
    have hwhole := congrArg List.length (append_of_first hfirst).1
    simp only [List.length_append] at hwhole
    dsimp only at hle
    omega
  obtain ⟨rest', hfirst', rfl⟩ := hfirst.cut hlength (by rintro tag text rfl; exact hp rfl)
  refine ⟨rest', _, _, hfirst', pass_plain h.pending.2 rest' hp, ⟨rfl, ?_, rfl, rfl⟩, ?_, ?_⟩
  · simp only [Cursor.past_offset, h.offset]
    omega
  · cases p.kind? with
    | none => exact .none
    | some kind => exact .some (h.token kind p.text)
  · intro operand
    simp only [wantsOperand]
    cases hkind : p.kind? with
    | none => exact operand (by simp [hkind])
    | some kind => simp [(h.token kind p.text).endsOperand]

/-- **Tokens in front of the cut** are read on both sides. -/
theorem Reads.cut (h : Reads s ts s') (hu : CutOff d more s u)
    (operand : u.wantsOperand = s.wantsOperand) (hts : ∀ t ∈ ts, t.kind ≠ .heredoc)
    (hle : more.length ≤ s'.rest.length) :
    ∃ us u', Reads u us u' ∧ CutOff d more s' u' ∧ List.Forall₂ (Token.Displaced d) ts us := by
  induction h generalizing u with
  | refl => exact ⟨[], u, .refl, hu, .nil⟩
  | @step s s₁ s' p rest t ts hfirst hpass hmore ih =>
    have hle₁ : more.length ≤ s₁.rest.length := by
      obtain ⟨passed, hrest, -⟩ := hmore.passed
      rw [hrest, List.length_append]
      omega
    rw [← operand] at hfirst
    obtain ⟨rest', t', u₁, hfirst', hpass', hu₁, ht, hoperand⟩ :=
      hu.step hfirst hpass (fun v hv => hts v (by simp [Option.mem_def.1 hv])) hle₁
    obtain ⟨us, u', hreads, hu', hus⟩ :=
      ih hu₁ (hoperand fun _ => operand) (fun v hv => hts v (by simp [hv])) hle
    refine ⟨t'.toList ++ us, u', .step hfirst' hpass' hreads, hu', ?_⟩
    cases ht with
    | none => exact hus
    | some h => exact .cons h hus

/-! ## A run, from token to token -/

/-- From state `s` one step makes the token `t` and comes to state `s'`. -/
def Makes (s : Scanner) (t : Token) (s' : Scanner) : Prop :=
  ∃ p rest, First s.wantsOperand s.rest p rest ∧ s.pass rest p = .ok (some t, s')

theorem Makes.reads {t : Token} (h : Makes s t s') : Reads s [t] s' := by
  obtain ⟨p, rest, hfirst, hpass⟩ := h
  exact .step hfirst hpass .refl

theorem Makes.place {t : Token} (h : Makes s t s') :
    t.start = s.cursor.place ∧ t.stop = s'.cursor.offset := by
  obtain ⟨p, rest, hfirst, hpass⟩ := h
  obtain ⟨passed, hpasses⟩ := passes_of_step hfirst hpass
  rw [hpasses.token t rfl, hpasses.offset]
  exact ⟨rfl, rfl⟩

/-- Each token of a run is made by a step of it. -/
theorem Reads.makes {before after : List Token} {t : Token} (h : Reads s ts s')
    (hts : ts = before ++ t :: after) :
    ∃ a b, Reads s before a ∧ Makes a t b ∧ Reads b after s' := by
  induction h generalizing before with
  | refl => simp at hts
  | @step s s₁ s' p rest v ts hfirst hpass more ih =>
    cases v with
    | none =>
      obtain ⟨a, b, hbefore, hmakes, hafter⟩ := ih hts
      exact ⟨a, b, .step hfirst hpass hbefore, hmakes, hafter⟩
    | some v =>
      cases before with
      | nil =>
        cases hts
        exact ⟨s, s₁, .refl, ⟨p, rest, hfirst, hpass⟩, more⟩
      | cons u before =>
        obtain ⟨rfl, hrest⟩ := List.cons.inj hts
        obtain ⟨a, b, hbefore, hmakes, hafter⟩ := ih hrest
        exact ⟨a, b, .step hfirst hpass hbefore, hmakes, hafter⟩

/-- A stretch of tokens is read from the start of its first token to the end of its last. -/
theorem Reads.stretch {before after : List Token} {t last : Token}
    (h : Reads s (before ++ (t :: ts ++ after)) s') (hlast : (t :: ts).getLast? = some last) :
    ∃ a b c, Reads s before a ∧ Makes a t b ∧ Reads b ts c ∧ c.cursor.offset = last.stop := by
  obtain ⟨a, b, hbefore, hmakes, hmore⟩ := h.makes (by rw [List.cons_append])
  rcases List.eq_nil_or_concat ts with rfl | ⟨front, last', rfl⟩
  · cases hlast
    exact ⟨a, b, b, hbefore, hmakes, .refl, hmakes.place.2.symm⟩
  · rw [List.concat_eq_append] at *
    obtain ⟨a', c, hfront, hmakes', -⟩ :=
      hmore.makes (show _ = front ++ last' :: after by simp)
    rw [← List.cons_append, List.getLast?_concat] at hlast
    cases hlast
    exact ⟨a, b, c, hbefore, hmakes, hfront.trans hmakes'.reads, hmakes'.place.2.symm⟩

/-- **A stretch of tokens cut out of a text.** If it starts with a name and there are no heredocs,
the text from the start of its first token to the end of its last has the tokens of the stretch. -/
theorem Runs.cut {text : List Char} {scan : Scan} (h : Runs (start text) scan)
    (hplain : ∀ t ∈ scan.tokens, t.kind ≠ .heredoc) {before after : List Token} {t last : Token}
    (htokens : scan.tokens = before ++ (t :: ts ++ after)) (hname : t.kind = .name)
    (hlast : (t :: ts).getLast? = some last) :
    ∃ front cut back u us stop, text = front ++ (cut ++ back) ∧ t.start.offset = front.length ∧
      last.stop = front.length + cut.length ∧ Runs (start cut) ⟨u :: us, stop⟩ ∧
      u.start = Cursor.start.place ∧
      List.Forall₂ (Token.Displaced front.length) (t :: ts) (u :: us) := by
  obtain ⟨z, hreads, -⟩ := h.reads
  rw [htokens] at hreads hplain
  obtain ⟨a, b, c, hbefore, hmakes, hmore, hstop⟩ := hreads.stretch hlast
  obtain ⟨front, htext, hfront⟩ := hbefore.passed
  obtain ⟨cut, hrest, hcut⟩ := (hmakes.reads.trans hmore).passed
  have hplace := hmakes.place.1
  obtain ⟨p, rest, hfirst, hpass⟩ := hmakes
  have hpending := hbefore.pending_eq_nil rfl fun v hv => hplain v (by simp [hv])
  have hoffset : a.cursor.offset = front.length := hfront.trans (Nat.zero_add _)
  have hu : CutOff front.length c.rest a (start cut) :=
    ⟨hrest, hoffset.trans (Nat.zero_add _).symm, hpending, rfl⟩
  have hle : c.rest.length ≤ b.rest.length := by
    obtain ⟨passed, hb, -⟩ := hmore.passed
    rw [hb, List.length_append]
    omega
  -- before the first token the two scanners may differ in whether an operand can stand there
  have hkind : p.kind? = some .name := by rw [← kind_of_pass hpass, Option.map_some, hname]
  obtain ⟨rest', t', u₁, hfirst', hpass', hu₁, ht, hoperand⟩ :=
    hu.step (hfirst.name hkind _) hpass (by simp [hname]) hle
  obtain ⟨us, u', hreads', hu', hus⟩ :=
    hmore.cut hu₁ (hoperand nofun) (fun v hv => hplain v (by simp [hv])) (Nat.le_refl _)
  cases ht with
  | @some _ u ht =>
    have hended : u'.rest = [] := List.self_eq_append_left.1 hu'.rest
    have hreads : Reads (start cut) (u :: us) u' := .step hfirst' hpass' hreads'
    have hruns := hreads.runs (.stop hended hu'.pending.2)
    rw [List.append_nil] at hruns
    refine ⟨front, cut, c.rest, u, us, _, ?_, ?_, ?_, hruns, ?_, .cons ht hus⟩
    · rw [← hrest]
      exact htext
    · rw [hplace]
      exact hoffset
    · rw [← hstop, hcut, hoffset]
    · exact (Makes.place ⟨p, rest', hfirst', hpass'⟩).1

end Scanner

namespace Grammar

variable {tasks : Bool} {ts us : List Token}

/-! ## Reading the tokens again -/

/-- Tokens of a text with `n` characters that stand `d` characters further on in another. -/
def displaced (d n : Nat) : Correspondence where
  tokens t u := t.Displaced d u ∧ u.start.offset ≤ n ∧ u.stop ≤ n
  spans s s' := s = shiftSpan d s' ∧ s'.stop ≤ n
  kind h := h.1.kind
  value h := h.1.value
  outer h h' := ⟨by rw [spanOf, h.1.offset, h'.1.stop]; rfl, h'.2.2⟩
  inner h h' := ⟨by rw [h.1.stop, h'.1.offset]; rfl, h'.2.1⟩

theorem argumentsFollow_displaced {d : Nat} {t u : Token} (h : t.Displaced d u)
    (hmore : List.Forall₂ (Token.Displaced d) ts us) :
    ArgumentsFollow t ts ↔ ArgumentsFollow u us := by
  cases hmore with
  | nil => simp [ArgumentsFollow]
  | cons hnext _ => simp [ArgumentsFollow, hnext.kind, hnext.offset, h.stop]

theorem lists_displaced {d n : Nat} (h : List.Forall₂ (Token.Displaced d) ts us)
    (hn : ∀ u ∈ us, u.start.offset ≤ n ∧ u.stop ≤ n) : (displaced d n).Lists ts us := by
  induction h with
  | nil => exact .nil
  | cons h hmore ih =>
    exact .cons ⟨h, hn _ (List.mem_cons_self ..)⟩ (fun _ => argumentsFollow_displaced h hmore)
      (ih fun u hu => hn u (List.mem_cons_of_mem _ hu))

/-- A definition is one with nothing behind it. -/
theorem IsDefinition.alone {rest : List Token} {r : Definition Span × Nat}
    (h : IsDefinition tasks ts rest r) : IsDefinition tasks ts [] r :=
  h.of_rest fun _ us _ _ _ _ => aliasEnds_nil us

/-- The keyword of a definition is a name. -/
theorem IsDefinition.kind_name {t : Token} {rest : List Token} {r : Definition Span × Nat}
    (h : IsDefinition tasks (t :: ts) rest r) : t.kind = .name := by
  obtain ⟨k, t', more, he, hleading, -⟩ := definition_complete h
  cases he
  exact (isName_iff.1 (leading?_isName hleading).1).1

theorem excerpt_displaced {front cut back : List Char} {s : Span} (hs : s.stop ≤ cut.length) :
    Span.excerpt (front ++ (cut ++ back)) (shiftSpan front.length s) = Span.excerpt cut s := by
  rw [excerpt_append hs back, Span.excerpt, Span.excerpt, shiftSpan, Nat.add_sub_add_right,
    Nat.add_comm s.start, List.drop_length_add_append]

theorem alike_of_displaced {d n : Nat} {i j : Item Span} (h : (displaced d n).Items i j) :
    i.length = j.length ∧ Form.Alike (displaced d n).spans i.form j.form := by
  obtain ⟨first, last, hform⟩ := h
  refine ⟨?_, hform⟩
  rw [itemAt, itemAt, first.1.offset, last.1.stop, Nat.add_sub_add_right]

/-- The tokens of a definition in another place are read as this definition alone. -/
theorem IsDefinition.items_displaced {d n : Nat} {t u : Token} {rest : List Token}
    {r : Definition Span × Nat} (h : IsDefinition tasks (t :: ts) rest r)
    (hus : List.Forall₂ (Token.Displaced d) (t :: ts) (u :: us))
    (hn : ∀ v ∈ u :: us, v.start.offset ≤ n ∧ v.stop ≤ n) :
    ∃ j, items tasks (u :: us) = .ok [j] ∧ j.line = u.start.line ∧ j.offset = u.start.offset ∧
      j.length = r.2 - t.start.offset ∧
      Form.Alike (displaced d n).spans (.definition r.1) j.form := by
  obtain ⟨t', more, he, hread⟩ := (IsItem.definition h.alone).item_eq
  cases he
  rw [List.append_nil] at hread
  cases lists_displaced hus hn with
  | cons htoken adjacent hmore =>
    obtain ⟨j, rest', hread', hj, hrest⟩ := (item_alike htoken adjacent hmore tasks).of_ok hread
    cases hrest
    obtain ⟨passed, -, hitem⟩ := item_sound hread'
    obtain ⟨first, -, hfirst, -, hoffset, -⟩ := hitem.span
    cases hfirst
    obtain ⟨hlength, hform⟩ := alike_of_displaced hj
    refine ⟨j, ?_, hitem.line_eq rfl, hoffset, hlength.symm, hform⟩
    rw [items_cons, hread', bind_ok, items]
    rfl

end Grammar

theorem Item.source_eq {ε : Type} {front cut back : List Char} {i : Item ε}
    (hoffset : i.offset = front.length) (hlength : i.length = cut.length) :
    i.source (front ++ (cut ++ back)) = String.ofList cut := by
  rw [Item.source, Span.excerpt, hoffset, hlength, Nat.add_sub_cancel_left, List.drop_left,
    List.take_left]

open Grammar

/-- **The source of a definition is self-contained.** In a manifest without heredocs, the source of
every definition is accepted on its own, with this definition and nothing else; it is the same but
for its line and its offset. -/
theorem definition_self_contained {tasks : Bool} {text : String} {m : Manifest} {scan : Scan}
    (h : Manifest.parse tasks text = .ok m) (hscan : Scan.ofText text = .ok scan)
    (hplain : ∀ t ∈ scan.tokens, t.kind ≠ .heredoc) {i : Item String} (hi : i ∈ m.items)
    {d : Definition String} (hd : i.form = .definition d) :
    Manifest.parse tasks (i.source text.toList) =
      .ok ⟨i.source text.toList, [{ i with line := 1, offset := 0 }]⟩ := by
  obtain ⟨scan', is, hscan', his, rfl⟩ := parse_eq_ok.1 h
  cases hscan'.symm.trans hscan
  obtain ⟨k, hk, rfl⟩ := List.mem_map.1 hi
  obtain ⟨before, group, after, htokens, -, hgroup⟩ := his.stretch hk
  cases hgroup with
  | expression => cases hd
  | @definition t ts _ d' stop hdefinition =>
    obtain ⟨last, hlast, rfl⟩ := hdefinition.getLast?
    obtain ⟨front, cut, back, u, us, ends, htext, hstart, hstop, hruns, hu, hus⟩ :=
      (Scanner.run_eq_ok.1 hscan).cut hplain htokens hdefinition.kind_name hlast
    obtain ⟨j, hread, hline, hoffset, hlength, hform⟩ :=
      hdefinition.items_displaced hus hruns.within
    have hlength' : last.stop - t.start.offset = cut.length := by omega
    have hscan' : Scan.ofText (String.ofList cut) = .ok ⟨u :: us, ends⟩ := by
      rw [Scan.ofText, String.toList_ofList]
      exact Scanner.run_eq_ok.2 hruns
    have hexcerpt : (Form.definition d').map (Span.excerpt text.toList) =
        j.form.map (Span.excerpt cut) := by
      refine hform.map_eq ?_
      rintro _ s ⟨rfl, hs⟩
      rw [htext]
      exact excerpt_displaced hs
    have hsource : Item.source text.toList (Item.map (Span.excerpt text.toList)
        (itemAt t last.stop (.definition d'))) = String.ofList cut := by
      rw [htext]
      exact Item.source_eq hstart hlength'
    rw [hsource]
    refine parse_eq_ok.2 ⟨_, [j], hscan', items_eq_ok.1 hread, ?_⟩
    rw [String.toList_ofList]
    simp only [List.map_cons, List.map_nil, Item.map, itemAt, hline, hoffset, hu, hlength, hexcerpt]
    rfl

/-- An alias of a type without arguments. -/
def plainAlias : Item String :=
  ⟨2, 3, 10, .definition (.typeAlias "A" "B")⟩

/-- It stands in code: what comes before it ends an operand, and the brackets behind it are not its
own. -/
def aliasInCode : Manifest :=
  ⟨"1\n type A = B [2]", [⟨1, 0, 1, .expression⟩, plainAlias, ⟨2, 14, 3, .expression⟩]⟩

/-- The tokens of alias and code. -/
def aliasInCodeScan : Scan :=
  ⟨[⟨.number, "1", ⟨0, 1, 1⟩, 1⟩, ⟨.name, "type", ⟨3, 2, 2⟩, 7⟩, ⟨.typeName, "A", ⟨8, 2, 7⟩, 9⟩,
    ⟨.operator .assign, "=", ⟨10, 2, 9⟩, 11⟩, ⟨.typeName, "B", ⟨12, 2, 11⟩, 13⟩,
    ⟨opening .square, "[", ⟨14, 2, 13⟩, 15⟩, ⟨.number, "2", ⟨15, 2, 14⟩, 16⟩,
    ⟨closing .square, "]", ⟨16, 2, 15⟩, 17⟩], ⟨17, 2, 16⟩⟩

/-- The alias is a manifest of its own. -/
theorem aliasInCode_alone :
    Manifest.parse true aliasInCode.text = .ok aliasInCode ∧
      Scan.ofText aliasInCode.text = .ok aliasInCodeScan ∧
      (∀ t ∈ aliasInCodeScan.tokens, t.kind ≠ .heredoc) ∧
      plainAlias.source aliasInCode.text.toList = "type A = B" ∧
      Manifest.parse true "type A = B" =
        .ok ⟨"type A = B", [⟨1, 0, 10, .definition (.typeAlias "A" "B")⟩]⟩ := by
  have hparse : Manifest.parse true aliasInCode.text = .ok aliasInCode := by decide +kernel
  have hscan : Scan.ofText aliasInCode.text = .ok aliasInCodeScan := by decide +kernel
  have hplain : ∀ t ∈ aliasInCodeScan.tokens, t.kind ≠ .heredoc := by decide
  have hitem : plainAlias ∈ aliasInCode.items := by simp [aliasInCode]
  have hsource : plainAlias.source aliasInCode.text.toList = "type A = B" := by decide +kernel
  have halone := definition_self_contained hparse hscan hplain hitem rfl
  rw [hsource] at halone
  exact ⟨hparse, hscan, hplain, hsource, halone⟩

end ManifestDocs
