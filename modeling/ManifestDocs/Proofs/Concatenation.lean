/-
Manifests one after the other. If a manifest ends with a closing brace, what is read after it does
not depend on it: the brace ends whatever it is part of, and no definition is told by tokens across
the seam. So a manifest, a line break and a text give the items of the manifest and then those of
the text, further on, with code on both sides of the seam as one stretch; and if the text is
rejected, so are the two together, for the same cause. Only a manifest whose heredocs need the end
of the text, so that not even a comment may follow it, is not like that.
-/
import ManifestDocs.Proofs.Correspondence
import ManifestDocs.Proofs.Fusion
import ManifestDocs.Proofs.Resumption
import ManifestDocs.Proofs.RoundTrip

namespace ManifestDocs

/-- Items one after the other. Code at the end of the first and code at the start of the others is
one stretch. -/
def joinItems {ε : Type} : List (Item ε) → List (Item ε) → List (Item ε)
  | [], js => js
  | [i], js =>
    match i.form with
    | .expression => i.codeBefore js
    | .definition _ => i :: js
  | i :: is, js => i :: joinItems is js

/-- An item `d` characters and `l` lines further on. -/
def Item.shift {ε : Type} (d l : Nat) (i : Item ε) : Item ε :=
  ⟨i.line + l, i.offset + d, i.length, i.form⟩

namespace Grammar

variable {tasks : Bool} {ts us rest : List Token}

/-! ## Across the seam -/

/-- The last token is a closing brace. -/
def EndsWithBrace (ts : List Token) : Prop :=
  ∃ last, ts.getLast? = some last ∧ last.kind = closing .curly

theorem EndsWithBrace.of_append (h : EndsWithBrace (us ++ ts)) (hne : ts ≠ []) :
    EndsWithBrace ts := by
  obtain ⟨last, hlast, hkind⟩ := h
  refine ⟨last, ?_, hkind⟩
  rwa [List.getLast?_append_of_ne_nil _ hne] at hlast

theorem leading?_append (tasks : Bool) (h : EndsWithBrace ts) (us : List Token) :
    leading? tasks (ts ++ us) = leading? tasks ts := by
  obtain ⟨last, hlast, hkind⟩ := h
  obtain ⟨front, rfl⟩ := List.getLast?_eq_some_iff.1 hlast
  rw [List.append_assoc, List.singleton_append, leading?_closing tasks hkind,
    leading?_closing tasks hkind]

theorem NoStop.seam (h : NoStop (startsDefinition tasks) ts []) (hends : EndsWithBrace ts)
    (us : List Token) : NoStop (startsDefinition tasks) ts us := by
  intro before t after he hbefore
  have hend : EndsWithBrace (t :: after) := (he ▸ hends).of_append (List.cons_ne_nil _ _)
  have hnone := h before t after he hbefore
  rw [List.append_nil] at hnone
  rw [startsDefinition, ← List.cons_append, leading?_append tasks hend]
  exact hnone

/-- An alias that ends with a brace ends there whatever follows. -/
theorem IsAliased.ends_of_brace {s : Span} (h : IsAliased ts s) (hends : EndsWithBrace ts)
    (us : List Token) : AliasEnds ts us := by
  cases h with
  | braced htype hbraces => exact htype.aliasEnds_braces hbraces us
  | alone _ h => exact h.aliasEnds us
  | type htype =>
    obtain ⟨last, hlast, hkind⟩ := hends
    obtain ⟨last', hlast', -, hkind'⟩ := htype.getLast?
    rw [hlast] at hlast'
    cases hlast'
    rw [hkind] at hkind'
    rcases hkind' with hkind' | hkind' <;> simp [closing] at hkind'

/-- A definition that ends with a brace is one whatever follows. -/
theorem IsDefinition.of_brace {r : Definition Span × Nat} (h : IsDefinition tasks ts rest r)
    (hends : EndsWithBrace ts) (us : List Token) : IsDefinition tasks ts us r := by
  refine h.of_rest fun front us' s he halias _ => halias.ends_of_brace ?_ us
  obtain ⟨last, hlast, -⟩ := halias.getLast?
  refine (he ▸ hends).of_append fun hnil => ?_
  rw [hnil] at hlast
  cases hlast

/-- There are items just where there are tokens. -/
theorem AreItems.eq_nil_iff {is : List (Item Span)} (h : AreItems tasks ts is) :
    is = [] ↔ ts = [] := by
  cases h with
  | nil => simp
  | cons h _ =>
    obtain ⟨t, more, rfl, -⟩ := h.item_eq
    simp

/-- **Tokens behind a closing brace** are read after the items that end with it. -/
theorem AreItems.items_append {is : List (Item Span)} (h : AreItems tasks ts is)
    (hends : EndsWithBrace ts) (hus : InOrder us) :
    items tasks (ts ++ us) = (items tasks us).map (joinItems is) := by
  induction h with
  | nil =>
    obtain ⟨last, hlast, -⟩ := hends
    cases hlast
  | @cons ts rest i is h more ih =>
    cases rest with
    | nil =>
      obtain rfl := more.eq_nil_iff.2 rfl
      rw [List.append_nil] at hends ⊢
      cases h with
      | definition h => exact (IsItem.definition (h.of_brace hends us)).items_append
      | expression balanced hno _ hlast =>
        exact items_code balanced (hno.seam hends us) hlast hus
    | cons t rest =>
      have hrest : EndsWithBrace (t :: rest) := hends.of_append (List.cons_ne_nil _ _)
      obtain ⟨j, is, rfl⟩ := List.exists_cons_of_ne_nil (mt more.eq_nil_iff.1 (List.cons_ne_nil _ _))
      have hitem : IsItem tasks ts (t :: rest ++ us) i :=
        h.of_rest (List.cons_ne_nil _ _) (.inr rfl) fun hstarts => startsDefinition_append hstarts us
      rw [List.append_assoc, hitem.items_append, ih hrest]
      cases items tasks us <;> rfl

/-! ## Items elsewhere in a text -/

/-- Tokens `d` characters and `l` lines further on. -/
def further (d l : Nat) : Correspondence where
  tokens t u := u = t.shift d l
  spans s s' := s' = shiftSpan d s
  kind h := by rw [h, Token.shift_kind]
  value h := by rw [h, Token.shift_value]
  outer h h' := by rw [h, h']; rfl
  inner h h' := by rw [h, h']; rfl

theorem lists_further (d l : Nat) (ts : List Token) :
    (further d l).Lists ts (ts.map (·.shift d l)) := by
  induction ts with
  | nil => exact .nil
  | cons t ts ih =>
    refine .cons rfl (fun _ => ?_) ih
    cases ts with
    | nil => simp [ArgumentsFollow]
    | cons u ts => simp [ArgumentsFollow]

theorem eq_of_further {d l : Nat} (h : (further d l).Lists ts us) :
    us = ts.map (·.shift d l) := by
  induction h with
  | nil => rfl
  | cons h _ _ ih => rw [List.map_cons, h, ih]

/-- Corresponding items are the same item in two places, if the excerpts are the same. -/
theorem items_further_map {ε : Type} {d l : Nat} {is js : List (Item Span)}
    (h : List.Forall₂ (further d l).Items is js) {f g : Span → ε}
    (hfg : ∀ s, f s = g (shiftSpan d s)) :
    js.map (·.map g) = (is.map (·.map f)).map (Item.shift d l) := by
  have hspans : ∀ s s', (further d l).spans s s' → f s = g s' := by
    rintro s _ rfl
    exact hfg s
  rw [List.map_map]
  refine (map_eq_of_forall₂ (fun i j hitem => ?_) h).symm
  obtain ⟨rfl, rfl, hform⟩ := hitem
  simp only [Function.comp_apply, Item.map, Item.shift, itemAt, hform.map_eq hspans, Token.shift,
    Nat.add_sub_add_right]

/-! ## Excerpts of the first text -/

/-- Tokens of a text with `n` characters. -/
def within (n : Nat) : Correspondence where
  tokens t u := u = t ∧ t.start.offset ≤ n ∧ t.stop ≤ n
  spans s s' := s' = s ∧ s.stop ≤ n
  kind h := by rw [h.1]
  value h := by rw [h.1]
  outer h h' := ⟨by rw [h.1, h'.1], h'.2.2⟩
  inner h h' := ⟨by rw [h.1, h'.1], h'.2.1⟩

theorem lists_within {n : Nat} (h : ∀ t ∈ ts, t.start.offset ≤ n ∧ t.stop ≤ n) :
    (within n).Lists ts ts := by
  induction ts with
  | nil => exact .nil
  | cons t ts ih =>
    exact .cons ⟨rfl, h t (List.mem_cons_self ..)⟩ (fun _ => Iff.rfl)
      (ih fun u hu => h u (List.mem_cons_of_mem _ hu))

theorem items_within_map {ε : Type} {n : Nat} {is js : List (Item Span)}
    (h : List.Forall₂ (within n).Items is js) {f g : Span → ε} (hfg : ∀ s, s.stop ≤ n → f s = g s) :
    is.map (·.map f) = js.map (·.map g) := by
  have hspans : ∀ s s', (within n).spans s s' → f s = g s' := by
    rintro _ s ⟨rfl, hs⟩
    exact hfg s hs
  refine map_eq_of_forall₂ (fun i j hitem => ?_) h
  obtain ⟨⟨rfl, -⟩, ⟨rfl, -⟩, hform⟩ := hitem
  simp only [Item.map, itemAt, hform.map_eq hspans]

theorem excerpt_append {x : List Char} {s : Span} (hs : s.stop ≤ x.length) (y : List Char) :
    Span.excerpt x s = Span.excerpt (x ++ y) s := by
  rw [Span.excerpt, Span.excerpt, List.drop_append, List.take_append_of_le_length]
  rw [List.length_drop]
  omega

theorem excerpt_shift (x y : List Char) (s : Span) :
    Span.excerpt y s = Span.excerpt (x ++ '\n' :: y) (shiftSpan (x.length + 1) s) := by
  have hdrop : (x ++ '\n' :: y).drop (s.start + (x.length + 1)) = y.drop s.start := by
    rw [Nat.add_comm, ← List.drop_drop, List.drop_length_add_append]
    rfl
  simp only [Span.excerpt, shiftSpan, hdrop, Nat.add_sub_add_right]

theorem InOrder.shift {d l : Nat} (h : InOrder ts) : InOrder (ts.map (·.shift d l)) := by
  constructor
  · intro t ht
    obtain ⟨u, hu, rfl⟩ := List.mem_map.1 ht
    exact Nat.add_lt_add_right (h.nonempty u hu) d
  · rw [List.pairwise_map]
    exact h.ordered.imp fun hle => Nat.add_le_add_right hle d

end Grammar

theorem Item.codeBefore_map {ε ζ : Type} (f : ε → ζ) (i : Item ε) (js : List (Item ε)) :
    (i.codeBefore js).map (·.map f) = (i.map f).codeBefore (js.map (·.map f)) := by
  cases js with
  | nil => rfl
  | cons j js =>
    obtain ⟨line, offset, length, form⟩ := j
    cases form <;> rfl

theorem joinItems_map {ε ζ : Type} (f : ε → ζ) (is js : List (Item ε)) :
    (joinItems is js).map (·.map f) = joinItems (is.map (·.map f)) (js.map (·.map f)) := by
  match is with
  | [] => rfl
  | [⟨line, offset, length, .expression⟩] => exact Item.codeBefore_map f _ js
  | [⟨line, offset, length, .definition d⟩] => rfl
  | i :: j :: is => exact congrArg (i.map f :: ·) (joinItems_map f (j :: is) js)

/-! ## Manifests -/

open Grammar

section Parse

variable {tasks : Bool} {text : String} {m : Manifest} {scan : Scan}

/-- What scans with a comment on the next line needs no end to close it. -/
theorem closed_of_scan_comment (hscan : Scan.ofText text = .ok scan) {scan' : Scan}
    (hscan' : Scan.ofText (text ++ "\n#") = .ok scan') :
    Scanner.Closed (Scanner.start text.toList) scan.tokens := by
  have hruns := Scanner.run_eq_ok.1 hscan
  have htext : (text ++ "\n#").toList = text.toList ++ Scanner.commentLine := by simp; rfl
  have hruns' := Scanner.run_eq_ok.1 hscan'
  rw [htext] at hruns'
  refine Scanner.closed_of_comment ⟨scan'.stop, ?_⟩
  rw [← hruns.tokens_comment hruns']
  exact hruns'

theorem scan_append (hscan : Scan.ofText text = .ok scan) (hends : EndsWithBrace scan.tokens)
    (closed : Scanner.Closed (Scanner.start text.toList) scan.tokens) (more : String) :
    Scan.ofText (text ++ "\n" ++ more) =
      (((Scan.ofText more).map (Scan.shift (text.length + 1) scan.stop.line)).map fun behind =>
        { behind with tokens := scan.tokens ++ behind.tokens }).mapError
          (SyntaxError.shift scan.stop.line) := by
  have htext : (text ++ "\n" ++ more).toList = text.toList ++ '\n' :: more.toList := by simp
  have hoperand : scan.tokens.getLast?.all (!·.endsOperand) = true := by
    obtain ⟨last, hlast, hkind⟩ := hends
    simp [hlast, Token.endsOperand, hkind, closing]
  rw [Scan.ofText, htext, Scanner.run_newline (Scanner.run_eq_ok.1 hscan) closed hoperand]
  rfl

/-- The excerpts of a text are there with more text behind it, too. -/
theorem excerpts_append (hscan : Scan.ofText text = .ok scan) {is : List (Item Span)}
    (his : items tasks scan.tokens = .ok is) (y : List Char) :
    is.map (·.map (Span.excerpt text.toList)) = is.map (·.map (Span.excerpt (text.toList ++ y))) := by
  have hwithin := (Scanner.run_eq_ok.1 hscan).within
  rcases items_alike (lists_within hwithin) tasks with ⟨js, js', hjs, hjs', hsame⟩ |
    ⟨rejected, _, hrejected, -, -⟩
  · rw [his] at hjs hjs'
    cases hjs
    cases hjs'
    exact items_within_map hsame fun s hs => excerpt_append hs y
  · rw [his] at hrejected
    cases hrejected

/-- **A manifest and a text behind it.** If the last token of the manifest is a closing brace, and a
comment may follow the manifest, then the manifest, a line break and a text give what the manifest
and the text give alone: the items of both, those of the text further on, or the error of the
text. -/
theorem parse_append (h : Manifest.parse tasks text = .ok m) (hscan : Scan.ofText text = .ok scan)
    (hends : EndsWithBrace scan.tokens)
    (hcomment : ∃ m', Manifest.parse tasks (text ++ "\n#") = .ok m') (more : String) :
    Manifest.parse tasks (text ++ "\n" ++ more) =
      match Manifest.parse tasks more with
      | .error e => .error (e.shift scan.stop.line)
      | .ok m' => .ok ⟨text ++ "\n" ++ more,
          joinItems m.items (m'.items.map (Item.shift (text.length + 1) scan.stop.line))⟩ := by
  obtain ⟨scan₁, is, hscan₁, his, rfl⟩ := parse_eq_ok.1 h
  cases hscan₁.symm.trans hscan
  obtain ⟨_, hm'⟩ := hcomment
  obtain ⟨_, _, hscan', -, -⟩ := parse_eq_ok.1 hm'
  have hwhole := scan_append hscan hends (closed_of_scan_comment hscan hscan') more
  rw [Manifest.parse, Manifest.parse, hwhole]
  cases hmore : Scan.ofText more with
  | error e => rfl
  | ok behind =>
    have hread : items tasks (scan.tokens ++ (behind.tokens.map _)) = _ :=
      his.items_append hends ((inOrder_of_scan hmore).shift (d := text.length + 1) (l := scan.stop.line))
    have hfront := excerpts_append hscan (items_eq_ok.2 his) ('\n' :: more.toList)
    have htext : (text ++ "\n" ++ more).toList = text.toList ++ '\n' :: more.toList := by simp
    simp only [Except.map, Except.mapError, Scan.shift, hread]
    rcases items_alike (lists_further (text.length + 1) scan.stop.line behind.tokens) tasks with
      ⟨js, js', hjs, hjs', hsame⟩ | ⟨rejected, rejected', hrejected, hrejected', hsame⟩
    · have hback := items_further_map hsame (excerpt_shift text.toList more.toList)
      simp only [hjs, hjs', joinItems_map, htext, ← hfront, hback]
    · obtain rfl := eq_of_further hsame
      simp only [hrejected, hrejected']
      cases rejected <;> rfl

end Parse

/-- A class and braces, on two lines. -/
def classAndBraces : Manifest :=
  ⟨"class a \x7b\x7d\n\x7b \x7d",
   [⟨1, 0, 10, .definition (.hostClass "a" [] none "")⟩, ⟨2, 11, 3, .expression⟩]⟩

/-- Its tokens. -/
def classAndBracesScan : Scan :=
  ⟨[⟨.name, "class", ⟨0, 1, 1⟩, 5⟩, ⟨.name, "a", ⟨6, 1, 7⟩, 7⟩, ⟨opening .curly, "\x7b", ⟨8, 1, 9⟩, 9⟩,
    ⟨closing .curly, "\x7d", ⟨9, 1, 10⟩, 10⟩, ⟨opening .curly, "\x7b", ⟨11, 2, 1⟩, 12⟩,
    ⟨closing .curly, "\x7d", ⟨13, 2, 3⟩, 14⟩], ⟨14, 2, 4⟩⟩

/-- After the braces a slash starts a regular expression, as it does at the start of a text, and the
braces and the expression are one stretch of code. -/
theorem classAndBraces_before_regex :
    EndsWithBrace classAndBracesScan.tokens ∧
      Manifest.parse true (classAndBraces.text ++ "\n" ++ "/x/ class b \x7b\x7d") =
        .ok ⟨classAndBraces.text ++ "\n" ++ "/x/ class b \x7b\x7d",
          [⟨1, 0, 10, .definition (.hostClass "a" [] none "")⟩, ⟨2, 11, 7, .expression⟩,
           ⟨3, 19, 10, .definition (.hostClass "b" [] none "")⟩]⟩ := by
  have hends : EndsWithBrace classAndBracesScan.tokens := ⟨_, rfl, rfl⟩
  have hparse : Manifest.parse true classAndBraces.text = .ok classAndBraces := by decide +kernel
  have hscan : Scan.ofText classAndBraces.text = .ok classAndBracesScan := by decide +kernel
  have hcomment : Manifest.parse true (classAndBraces.text ++ "\n#") =
      .ok { classAndBraces with text := classAndBraces.text ++ "\n#" } := by decide +kernel
  have hmore : Manifest.parse true "/x/ class b \x7b\x7d" = .ok ⟨"/x/ class b \x7b\x7d",
      [⟨1, 0, 3, .expression⟩, ⟨1, 4, 10, .definition (.hostClass "b" [] none "")⟩]⟩ := by
    decide +kernel
  have happend := parse_append hparse hscan hends ⟨_, hcomment⟩ "/x/ class b \x7b\x7d"
  rw [hmore] at happend
  exact ⟨hends, happend⟩

/-- Two heredocs with blank tags in braces, and an empty line that closes both. -/
def bracedHeredocs : String := "\x7b@( )@( )\x7d\n"

/-- Their tokens. -/
def bracedHeredocsScan : Scan :=
  ⟨[⟨opening .curly, "\x7b", ⟨0, 1, 1⟩, 1⟩, ⟨.heredoc, "@( )", ⟨1, 1, 2⟩, 5⟩,
    ⟨.heredoc, "@( )", ⟨5, 1, 6⟩, 9⟩, ⟨closing .curly, "\x7d", ⟨9, 1, 10⟩, 10⟩], ⟨11, 2, 1⟩⟩

section BracedHeredocs

open Scanner

/-- The scanner behind the closing brace, before the end of the line. -/
def behindBrace (rest : List Char) : Scanner :=
  ⟨'\n' :: rest, ⟨10, 1, 0⟩, [⟨[], 1, 2⟩, ⟨[], 1, 6⟩],
    some ⟨closing .curly, "\x7d", ⟨9, 1, 10⟩, 10⟩⟩

/-- Whatever follows, the scanner comes behind the closing brace with both heredocs open. -/
theorem run_bracedHeredocs (rest : List Char) :
    (start ("\x7b@( )@( )\x7d\n".toList ++ rest)).run =
      (behindBrace rest).run.map fun scan =>
        { scan with tokens := bracedHeredocsScan.tokens ++ scan.tokens } := by
  let s₁ : Scanner := ⟨"@( )@( )\x7d\n".toList ++ rest, ⟨1, 1, 0⟩, [],
    some ⟨opening .curly, "\x7b", ⟨0, 1, 1⟩, 1⟩⟩
  let s₂ : Scanner := ⟨"@( )\x7d\n".toList ++ rest, ⟨5, 1, 0⟩, [⟨[], 1, 2⟩],
    some ⟨.heredoc, "@( )", ⟨1, 1, 2⟩, 5⟩⟩
  let s₃ : Scanner := ⟨"\x7d\n".toList ++ rest, ⟨9, 1, 0⟩, [⟨[], 1, 2⟩, ⟨[], 1, 6⟩],
    some ⟨.heredoc, "@( )", ⟨5, 1, 6⟩, 9⟩⟩
  have h₁ : (start ("\x7b@( )@( )\x7d\n".toList ++ rest)).step '\x7b' s₁.rest =
      .ok (s₁.previous, s₁) := by rfl
  have h₂ : s₁.step '@' ("( )".toList ++ s₂.rest) = .ok (s₂.previous, s₂) := by rfl
  have h₃ : s₂.step '@' ("( )".toList ++ s₃.rest) = .ok (s₃.previous, s₃) := by rfl
  have h₄ : s₃.step '\x7d' ('\n' :: rest) = .ok ((behindBrace rest).previous, behindBrace rest) := by
    rfl
  rw [run_step rfl h₁, run_step rfl h₂, run_step rfl h₃, run_step rfl h₄]
  cases (behindBrace rest).run <;> rfl

/-- At the end of the text, both are closed. -/
theorem scan_bracedHeredocs : Scan.ofText bracedHeredocs = .ok bracedHeredocsScan := by
  have hbody : Heredoc.body [] [] = some ([], []) := by
    rw [Heredoc.body]
    rfl
  have hstep : (behindBrace []).step '\n' [] =
      .ok (none, { behindBrace [] with rest := [], cursor := ⟨11, 2, 11⟩, pending := [] }) := by
    simp only [step, Piece.first, Scanner.pass, passBodies, behindBrace, if_true, hbody]
    rfl
  have hrun : (start bracedHeredocs.toList).run = _ := run_bracedHeredocs []
  rw [Scan.ofText, hrun, run_step rfl hstep, run_of_nil rfl]
  rfl

/-- Before another line, the empty line closes the first only. -/
theorem scan_bracedHeredocs_before_name :
    Scan.ofText (bracedHeredocs ++ "\n" ++ "a") = .error ⟨.unclosedHeredoc "", 1, 6⟩ := by
  have hbody : Heredoc.body [] "\na".toList = some (['\n'], ['a']) := by
    rw [Heredoc.body]
    rfl
  have hnone : Heredoc.body [] ['a'] = none := by
    rw [Heredoc.body]
    rfl
  have hstep : (behindBrace "\na".toList).step '\n' "\na".toList =
      .error ⟨.unclosedHeredoc "", 1, 6⟩ := by
    simp only [step, Piece.first, Scanner.pass, passBodies, behindBrace, if_true, hbody,
      Heredoc.endsLine]
    simp [hnone]
  have hrun : (start (bracedHeredocs ++ "\n" ++ "a").toList).run = _ :=
    run_bracedHeredocs "\na".toList
  rw [Scan.ofText, hrun, run_of_error rfl hstep]
  rfl

end BracedHeredocs

/-- **Not every manifest that ends with a brace can stand before another text**: here the end of the
first text is needed to close a heredoc, so that the two texts are accepted one by one and rejected
together. -/
theorem bracedHeredocs_not_before_name :
    Manifest.parse false bracedHeredocs = .ok ⟨bracedHeredocs, [⟨1, 0, 10, .expression⟩]⟩ ∧
      Scan.ofText bracedHeredocs = .ok bracedHeredocsScan ∧
      EndsWithBrace bracedHeredocsScan.tokens ∧
      Manifest.parse false "a" = .ok ⟨"a", [⟨1, 0, 1, .expression⟩]⟩ ∧
      Manifest.parse false (bracedHeredocs ++ "\n" ++ "a") = .error ⟨.unclosedHeredoc "", 1, 6⟩ := by
  have hitems : items false bracedHeredocsScan.tokens = .ok [⟨1, 0, 10, .expression⟩] := by
    decide +kernel
  refine ⟨?_, scan_bracedHeredocs, ⟨_, rfl, rfl⟩, by decide +kernel, ?_⟩
  · rw [Manifest.parse, scan_bracedHeredocs]
    simp only [hitems]
    rfl
  · rw [Manifest.parse, scan_bracedHeredocs_before_name]

end ManifestDocs
