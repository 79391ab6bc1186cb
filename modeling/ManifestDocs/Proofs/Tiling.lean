/-
Tokens and what stands between them. A text that scans is tiled by its tokens and by trivia: blanks,
line breaks, comments, and the bodies of the heredocs whose headers stand on the line that a line
break ends. `Tiles` gives this tiling token by token, with the tags of the headers whose bodies are
still to come; that every scan is one is shown step by step (`trivium_of_pass`) and then for whole
runs.
-/
import ManifestDocs.Proofs.Bodies

namespace ManifestDocs.Lexeme

/-- A block comment ends with the first `*/` after its start. -/
theorem closed_of_blockComment {cs : List Char} {s : Split} (h : blockComment cs = some s) :
    ∃ inner, s.1 = inner ++ ['*', '/'] ∧ ¬ ['*', '/'] <:+: inner ++ ['*'] := by
  fun_induction blockComment cs generalizing s with
  | case1 cs =>
    cases h
    exact ⟨[], rfl, by decide⟩
  | case2 c cs hmark ih =>
    obtain ⟨t, ht, rfl⟩ := Option.map_eq_some_iff.1 h
    obtain ⟨inner, hinner, hnone⟩ := ih ht
    refine ⟨c :: inner, by simp [Split.extend, hinner], fun hinfix => ?_⟩
    rcases List.infix_cons_iff.1 hinfix with hprefix | hinfix
    · -- then the comment would have ended with `c`
      have hwhole : t.1 ++ t.2 = cs := whole_of_blockComment ht
      obtain ⟨rfl, hslash⟩ := List.cons_prefix_cons.1 hprefix
      cases inner with
      | nil => simp at hslash
      | cons d ds =>
        have hd := (List.cons_prefix_cons.1 hslash).1
        refine hmark (ds ++ ['*', '/'] ++ t.2) rfl ?_
        rw [← hwhole, hinner, ← hd]
        simp
    · exact hnone hinfix
  | case3 => cases h

end ManifestDocs.Lexeme

namespace ManifestDocs.Scanner

open ManifestDocs.Piece ManifestDocs.Heredoc

/-! ## Trivia -/

/-- `Trivium tags x rest tags'`: where heredocs with `tags` wait for their bodies, `x` with `rest`
after it is passed without a token, and then `tags'` wait. -/
inductive Trivium : List (List Char) → List Char → List Char → List (List Char) → Prop
  | blank {tags : List (List Char)} {c : Char} {rest : List Char}
      (hc : c ∈ [' ', '\t', '\r', '\x0c', '\x0b']) : Trivium tags [c] rest tags
  | lineComment {tags : List (List Char)} {line rest : List Char} (unbroken : '\n' ∉ line)
      (ends : rest = [] ∨ rest.head? = some '\n') : Trivium tags ('#' :: line) rest tags
  | blockComment {tags : List (List Char)} {inner rest : List Char}
      (first : ¬ ['*', '/'] <:+: inner ++ ['*']) :
      Trivium tags ('/' :: '*' :: (inner ++ ['*', '/'])) rest tags
  | newline {tags : List (List Char)} {bodies rest : List Char} (h : Bodies tags bodies rest) :
      Trivium tags ('\n' :: bodies) rest []

/-- `Trivia tags gap rest tags'`: the stretch `gap`, with `rest` after it, is all trivia. -/
inductive Trivia : List (List Char) → List Char → List Char → List (List Char) → Prop
  | nil {tags : List (List Char)} {rest : List Char} : Trivia tags [] rest tags
  | cons {tags tags₁ tags' : List (List Char)} {x gap rest : List Char}
      (h : Trivium tags x (gap ++ rest) tags₁) (more : Trivia tags₁ gap rest tags') :
      Trivia tags (x ++ gap) rest tags'

/-- The tag of a header; other tokens have none. -/
def headerTags (t : Token) : List (List Char) :=
  if t.kind = .heredoc then ((Heredoc.header t.value.toList).map (·.1)).toList else []

/-- `Tiles tags offset cs ts`: the text `cs`, which starts at `offset` and where heredocs with
`tags` wait for their bodies, is made of the tokens `ts` with trivia before, between and after them.
In the end no heredoc waits. -/
inductive Tiles : List (List Char) → Nat → List Char → List Token → Prop
  | stop {tags : List (List Char)} {offset : Nat} {gap : List Char}
      (trivia : Trivia tags gap [] []) : Tiles tags offset gap []
  | token {tags tags' : List (List Char)} {offset : Nat} {gap rest : List Char} {t : Token}
      {ts : List Token} (trivia : Trivia tags gap (t.value.toList ++ rest) tags')
      (start : t.start.offset = offset + gap.length)
      (stop : t.stop = t.start.offset + t.value.toList.length) (nonempty : t.value.toList ≠ [])
      (more : Tiles (tags' ++ headerTags t) t.stop rest ts) :
      Tiles tags offset (gap ++ (t.value.toList ++ rest)) (t :: ts)

/-- What is passed without a token stands before the next one, or before the end. -/
theorem Trivium.tiles {tags tags' : List (List Char)} {x rest : List Char} {offset : Nat}
    {ts : List Token} (h : Trivium tags x rest tags')
    (more : Tiles tags' (offset + x.length) rest ts) : Tiles tags offset (x ++ rest) ts := by
  cases more with
  | stop trivia =>
    rw [← List.append_nil rest] at h
    exact .stop (.cons h trivia)
  | token trivia start stop nonempty more =>
    rw [← List.append_assoc]
    refine .token (.cons h trivia) ?_ stop nonempty more
    rw [start, List.length_append, Nat.add_assoc]

/-! ## One step -/

/-- The tags of the heredocs that wait for their bodies. -/
def tags (s : Scanner) : List (List Char) :=
  s.pending.map (·.tag)

/-- No tag that waits starts with a space or a tab. -/
def TagsUnindented (s : Scanner) : Prop :=
  ∀ p ∈ s.pending, Unindented p.tag

theorem mem_gaps_of_isGap {c : Char} (h : isGap c = true) :
    c ∈ [' ', '\t', '\r', '\x0c', '\x0b'] := by
  simpa [isGap, or_assoc] using h

/-- A step without a token passes a trivium. -/
theorem trivium_of_pass {s s' : Scanner} {p : Piece} {rest : List Char}
    (hfirst : First s.wantsOperand s.rest p rest) (hpass : s.pass rest p = .ok (none, s'))
    (htags : s.TagsUnindented) :
    ∃ x, s.rest = x ++ s'.rest ∧ Trivium s.tags x s'.rest s'.tags := by
  obtain ⟨cs, hcs⟩ : ∃ cs, s.rest = cs := ⟨_, rfl⟩
  rw [hcs] at hfirst ⊢
  cases hfirst with
  | newline =>
    obtain ⟨cursor, after, hbodies, -, rfl⟩ := pass_newline_eq_ok.1 hpass
    obtain ⟨bodies, rfl, h⟩ := bodies_of_passBodies htags hbodies
    exact ⟨'\n' :: bodies, rfl, .newline h⟩
  | @gap c cs hc =>
    cases hpass
    exact ⟨[c], rfl, .blank (mem_gaps_of_isGap hc)⟩
  | @lineComment cs =>
    cases hpass
    refine ⟨'#' :: cs.takeWhile (· != '\n'), ?_, .lineComment ?_ ?_⟩
    · exact congrArg ('#' :: ·) List.takeWhile_append_dropWhile.symm
    · intro hmem
      simpa using List.mem_takeWhile_imp hmem
    · exact dropLine_cases cs
  | @blockComment cs split h =>
    cases hpass
    obtain ⟨inner, hinner, hfirst⟩ := Lexeme.closed_of_blockComment h
    have hwhole : split.1 ++ split.2 = cs := Lexeme.whole_of_blockComment h
    refine ⟨'/' :: '*' :: split.1, by rw [← hwhole]; rfl, ?_⟩
    rw [hinner]
    exact .blockComment hfirst
  | _ => cases hpass

/-- A step with a token leaves the tags that wait, and adds that of a header. -/
theorem tags_of_pass {s s' : Scanner} {p : Piece} {rest : List Char} {t : Token}
    (hfirst : First s.wantsOperand s.rest p rest) (hpass : s.pass rest p = .ok (some t, s')) :
    s'.tags = s.tags ++ headerTags t := by
  cases p with
  | newline =>
    obtain ⟨_, _, _, he, _⟩ := pass_newline_eq_ok.1 hpass
    cases he
  | gap c => cases hpass
  | comment text => cases hpass
  | lexeme kind text =>
    cases hpass
    simp [headerTags, Scanner.token, hfirst.kind_ne_heredoc, Scanner.tags]
  | header tag text =>
    cases hpass
    obtain ⟨cs, hcs⟩ : ∃ cs, s.rest = cs := ⟨_, rfl⟩
    rw [hcs] at hfirst
    cases hfirst with
    | header h =>
      have hfound := header_found h []
      rw [List.append_nil] at hfound
      simp [headerTags, Scanner.token, hfound, Scanner.tags]

theorem TagsUnindented.pass {s s' : Scanner} {p : Piece} {rest : List Char} {t : Option Token}
    (h : s.TagsUnindented) (hfirst : First s.wantsOperand s.rest p rest)
    (hpass : s.pass rest p = .ok (t, s')) : s'.TagsUnindented := by
  cases p with
  | newline =>
    obtain ⟨_, _, _, _, rfl⟩ := pass_newline_eq_ok.1 hpass
    intro p hp
    cases hp
  | gap c => cases hpass; exact h
  | comment text => cases hpass; exact h
  | lexeme kind text => cases hpass; exact h
  | header tag text =>
    cases hpass
    obtain ⟨cs, hcs⟩ : ∃ cs, s.rest = cs := ⟨_, rfl⟩
    rw [hcs] at hfirst
    cases hfirst with
    | header hheader =>
      intro p hp
      rcases List.mem_append.1 hp with hp | hp
      · exact h p hp
      · rw [List.mem_singleton.1 hp]
        exact unindented_of_header hheader

/-! ## Whole runs -/

/-- Every run tiles the rest of the text. -/
theorem Runs.tiles {s : Scanner} {scan : Scan} (h : Runs s scan) (htags : s.TagsUnindented) :
    Tiles s.tags s.cursor.offset s.rest scan.tokens := by
  induction h with
  | @stop s ended noPending =>
    rw [ended, Scanner.tags, noPending]
    exact .stop .nil
  | @step s s' p rest t scan hfirst hpass more ih =>
    obtain ⟨passed, hpasses⟩ := passes_of_step hfirst hpass
    have hmore := ih (htags.pass hfirst hpass)
    have hoffset := hpasses.offset
    cases t with
    | none =>
      obtain ⟨x, hx, htrivium⟩ := trivium_of_pass hfirst hpass htags
      have he : passed = x := List.append_cancel_right (hpasses.rest.symm.trans hx)
      subst he
      rw [hoffset] at hmore
      rw [hx]
      exact htrivium.tiles hmore
    | some t =>
      have htoken := hpasses.token t rfl
      have hvalue : t.value.toList = passed := by
        rw [htoken]
        simp [Scanner.token]
      have hstart : t.start.offset = s.cursor.offset := by
        rw [htoken]
        rfl
      have hstop : t.stop = t.start.offset + t.value.toList.length := by
        rw [hvalue, hstart, htoken]
        rfl
      rw [tags_of_pass hfirst hpass, hoffset, ← hstart, ← hvalue, ← hstop] at hmore
      rw [hpasses.rest, ← hvalue]
      have hnone : Trivia s.tags [] (t.value.toList ++ s'.rest) s.tags := .nil
      refine .token hnone ?_ hstop ?_ hmore
      · simpa using hstart
      · rw [hvalue]
        exact hpasses.ne_nil

/-! ## The tokens of a text -/

theorem Stands.value_eq {cs : List Char} {t : Token} (h : Stands 0 cs t) :
    t.value.toList = (cs.drop t.start.offset).take (t.stop - t.start.offset) := by
  obtain ⟨before, after, rfl, hstart, hstop, -⟩ := h
  rw [Nat.zero_add] at hstart
  rw [hstop, Nat.add_sub_cancel_left, hstart, List.drop_left, List.take_left]

/-- **Tokens tile the text.** In every text that scans, each token is a non-empty stretch of the
text and its value is that stretch; the tokens stand one after the other, and the scan ends where
the text does; and between the tokens there are only blanks, line breaks, comments and, after a
line break, the bodies of the heredocs that wait for them, in the order of their headers. -/
theorem tokens_tile {text : String} {scan : Scan} (h : Scan.ofText text = .ok scan) :
    (∀ t ∈ scan.tokens, t.start.offset < t.stop ∧ t.stop ≤ text.toList.length ∧
      t.value.toList = (text.toList.drop t.start.offset).take (t.stop - t.start.offset)) ∧
    scan.tokens.Pairwise (fun t u => t.stop ≤ u.start.offset) ∧
    scan.stop.offset = text.toList.length ∧
    Tiles [] 0 text.toList scan.tokens := by
  have hruns : Runs (start text.toList) scan := run_eq_ok.1 h
  refine ⟨fun t ht => ?_, hruns.pairwise, ?_, ?_⟩
  · have hstands : Stands 0 text.toList t := hruns.stands t ht
    obtain ⟨-, hlt, hle⟩ := hstands.lt
    rw [Nat.zero_add] at hle
    exact ⟨hlt, hle, hstands.value_eq⟩
  · simpa [start, Cursor.start] using hruns.stop_offset
  · exact hruns.tiles (s := start text.toList) (by simp [TagsUnindented, start])

/-- A heredoc with a comment before and after its header, and a number after that. -/
def headerAmongComments : String := "# c\n@(E) /* x */ 1\n\x7d\n | E\n"

/-- Its body, with the brace in it, stands between the number and the end. -/
theorem headerAmongComments_tiled :
    ∃ scan, Scan.ofText headerAmongComments = .ok scan ∧
      scan.tokens.map (·.value) = ["@(E)", "1"] ∧
      Tiles [] 0 headerAmongComments.toList scan.tokens := by
  have hscan : Scan.ofText headerAmongComments = .ok ⟨[⟨.heredoc, "@(E)", ⟨4, 2, 1⟩, 8⟩,
      ⟨.number, "1", ⟨17, 2, 14⟩, 18⟩], ⟨26, 5, 1⟩⟩ := by
    decide +kernel
  obtain ⟨-, -, -, htiles⟩ := tokens_tile hscan
  exact ⟨_, hscan, rfl, htiles⟩

end ManifestDocs.Scanner
