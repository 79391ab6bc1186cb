/-
A line break after a text. Scanning a text that is followed by a line break gives the tokens of the
text alone and then goes on at the start of the next line. There is one exception: any
number of heredocs with blank tags may end with the text, while the line break after it ends only
one of them. `Closed` leaves this case out.
-/
import Mathlib.Data.List.TakeWhile
import ManifestDocs.Proofs.Shift

namespace ManifestDocs.Heredoc

open ManifestDocs.Lexeme

/-! ## Bodies -/

/-- A text is one line, or a line with a line break and the text after it. -/
theorem lines_induction {P : List Char → Prop} (last : ∀ line, '\n' ∉ line → P line)
    (line : ∀ line rest, '\n' ∉ line → P rest → P (line ++ '\n' :: rest)) (cs : List Char) : P cs := by
  by_cases hmem : '\n' ∈ cs
  · obtain ⟨front, rest, hcs, hfront⟩ := List.eq_append_cons_of_mem hmem
    rw [hcs]
    exact line front rest hfront (lines_induction last line rest)
  · exact last cs hmem
termination_by cs.length
decreasing_by
  rw [hcs, List.length_append, List.length_cons]
  omega

/-- What is left of a text after its first line is nothing or starts with a line break. -/
theorem dropLine_cases (cs : List Char) :
    cs.dropWhile (· != '\n') = [] ∨ (cs.dropWhile (· != '\n')).head? = some '\n' := by
  cases hrest : cs.dropWhile (· != '\n') with
  | nil => exact .inl rfl
  | cons c more =>
    have hnot := List.head?_dropWhile_not (· != '\n') cs
    rw [hrest] at hnot
    simp only [List.head?_cons, bne_eq_false_iff_eq] at hnot
    rw [hnot]
    exact .inr rfl

theorem body_line {tag line rest : List Char} (hline : '\n' ∉ line) :
    body tag (line ++ '\n' :: rest) =
      if isEndLine tag line then some (line ++ ['\n'], rest)
      else (body tag rest).map (Split.extend (line ++ ['\n'])) := by
  have hall : ∀ c ∈ line, (c != '\n') = true := by
    intro c hc
    simpa using fun he : c = '\n' => hline (he ▸ hc)
  have htake : (line ++ '\n' :: rest).takeWhile (· != '\n') = line := by
    rw [List.takeWhile_append_of_pos hall]
    simp
  have hdrop : (line ++ '\n' :: rest).dropWhile (· != '\n') = '\n' :: rest := by
    rw [List.dropWhile_append_of_pos hall]
    simp
  rw [body]
  simp only [htake]
  split
  · next he => simp [hdrop] at he
  · next newline rest' he =>
    rw [hdrop] at he
    cases he
    rfl

theorem body_lastLine {tag line : List Char} (hline : '\n' ∉ line) :
    body tag line = if isEndLine tag line then some (line, []) else none := by
  have hall : ∀ c ∈ line, (c != '\n') = true := by
    intro c hc
    simpa using fun he : c = '\n' => hline (he ▸ hc)
  have htake : line.takeWhile (· != '\n') = line := List.takeWhile_eq_self_iff.2 hall
  have hdrop : line.dropWhile (· != '\n') = [] := List.dropWhile_eq_nil_iff.2 hall
  rw [body]
  simp only [htake]
  split
  · rfl
  · next newline rest' he => simp [hdrop] at he

theorem tag_of_isEndLine_nil {tag : List Char} (h : isEndLine tag [] = true) : tag = [] := by
  have hboth : tag = [] ∧ isLineEnd [] = true := by
    simpa [isEndLine, afterMarks, afterMark] using h
  exact hboth.1

/-- A body is found again if a line break follows the text, unless it reaches to the end of the
text: then it takes this line break. -/
theorem body_newline {tag cs b rest : List Char} (h : body tag cs = some (b, rest)) :
    (∀ more, body tag (cs ++ '\n' :: more) = some (b, rest ++ '\n' :: more)) ∨
      rest = [] ∧ ∀ more, body tag (cs ++ '\n' :: more) = some (b ++ ['\n'], more) := by
  induction cs using lines_induction generalizing b with
  | last line hline =>
    rw [body_lastLine hline] at h
    split at h
    · next hend =>
      cases h
      refine .inr ⟨rfl, fun more => ?_⟩
      rw [body_line hline, if_pos hend]
    · cases h
  | line line rest' hline ih =>
    have hbody (more : List Char) : body tag (line ++ '\n' :: rest' ++ '\n' :: more) =
        if isEndLine tag line then some (line ++ ['\n'], rest' ++ '\n' :: more)
        else (body tag (rest' ++ '\n' :: more)).map (Split.extend (line ++ ['\n'])) := by
      rw [List.append_assoc, List.cons_append, body_line hline]
    rw [body_line hline] at h
    split at h
    · next hend =>
      cases h
      exact .inl fun more => by rw [hbody, if_pos hend]
    · next hend =>
      obtain ⟨⟨b', rest₁⟩, hfound, he⟩ := Option.map_eq_some_iff.1 h
      cases he
      rcases ih hfound with hmore | ⟨rfl, hmore⟩
      · refine .inl fun more => ?_
        rw [hbody, if_neg hend, hmore]
        rfl
      · refine .inr ⟨rfl, fun more => ?_⟩
        rw [hbody, if_neg hend, hmore]
        simp [Split.extend]

/-- Only heredocs with blank tags can end where nothing is left. -/
theorem tag_of_body_nil {tag b rest : List Char} (h : body tag [] = some (b, rest)) : tag = [] := by
  rw [body_lastLine (by simp)] at h
  split at h
  · next hend => exact tag_of_isEndLine_nil hend
  · cases h

end ManifestDocs.Heredoc

namespace ManifestDocs.Scanner

open ManifestDocs.Piece ManifestDocs.Heredoc

/-! ## Pending bodies -/

/-- A comment on the next line. -/
def commentLine : List Char :=
  ['\n', '#']

/-- Where nothing is left, only heredocs with blank tags can end. -/
theorem tag_of_passBodies_nil {lineStart : Bool} {cursor cursor' : Cursor} {rest : List Char}
    {p : Pending} {ps : List Pending}
    (h : passBodies lineStart cursor [] (p :: ps) = .ok (cursor', rest)) : p.tag = [] := by
  cases lineStart with
  | false => cases h
  | true =>
    rw [passBodies, if_pos rfl] at h
    split at h
    · cases h
    · next hbody => exact tag_of_body_nil hbody

/-- A comment does not end a heredoc with a blank tag. -/
theorem passBodies_comment {lineStart : Bool} {cursor : Cursor} {p : Pending} {ps : List Pending}
    {r : Cursor × List Char} (hp : p.tag = []) :
    passBodies lineStart cursor ['#'] (p :: ps) ≠ .ok r := by
  have hnone : body [] ['#'] = none := by
    rw [body_lastLine (by decide)]
    rfl
  cases lineStart with
  | false =>
    intro h
    cases h
  | true =>
    rw [passBodies, if_pos rfl, hp, hnone]
    intro h
    cases h

/-- The bodies of heredocs are passed again if a line break follows the text. They take it if they
reach to the end of the text. -/
theorem passBodies_newline {lineStart : Bool} {cursor cursor' : Cursor} {cs rest : List Char}
    {pending : List Pending} (h : passBodies lineStart cursor cs pending = .ok (cursor', rest))
    (closes : rest = [] → ∃ r, passBodies lineStart cursor (cs ++ commentLine) pending = .ok r) :
    (∀ more, passBodies lineStart cursor (cs ++ '\n' :: more) pending =
        .ok (cursor', rest ++ '\n' :: more)) ∨
      rest = [] ∧ ∀ more, passBodies lineStart cursor (cs ++ '\n' :: more) pending =
        .ok (cursor'.next '\n', more) := by
  induction pending generalizing lineStart cursor cs with
  | nil =>
    cases h
    exact .inl fun _ => rfl
  | cons p ps ih =>
    cases lineStart with
    | false => cases h
    | true =>
      simp only [passBodies, if_true] at h closes ⊢
      split at h
      · cases h
      · next b after hbody =>
        rcases body_newline hbody with hfound | ⟨rfl, hfound⟩
        · simp only [commentLine, hfound] at closes ⊢
          exact ih h closes
        · simp only [commentLine, hfound] at closes ⊢
          cases ps with
          | nil =>
            cases h
            refine .inr ⟨rfl, fun more => ?_⟩
            show Except.ok (cursor.past (b ++ ['\n']), more) = _
            rw [Cursor.past_append]
            rfl
          | cons q qs =>
            -- the next body ends with the text, too, so that its tag is blank, and then the comment
            -- would not close it
            have hnil : rest = [] := by
              have hle := passBodies_length h
              exact List.eq_nil_of_length_eq_zero (Nat.le_zero.1 hle)
            obtain ⟨r, hr⟩ := closes hnil
            exact absurd hr (passBodies_comment (tag_of_passBodies_nil h))

/-! ## Runs -/

/-- After a line break a scanner stands at the start of a line. -/
theorem next_newline (c : Cursor) : c.next '\n' = Cursor.start.shift (c.offset + 1) c.line := by
  simp [Cursor.next, Cursor.start, Cursor.shift]
  omega

theorem Runs.eq_of_nil {s : Scanner} {scan : Scan} (h : Runs s scan) (ended : s.rest = []) :
    scan = ⟨[], s.cursor.place⟩ := by
  cases h with
  | stop => rfl
  | step hfirst _ _ => exact absurd ended (ne_nil_of_first hfirst)

/-- A piece that is no line break is passed the same whatever follows the text. -/
theorem pass_append {s s' : Scanner} {p : Piece} {rest : List Char} {t : Option Token}
    (hp : p ≠ .newline) (h : s.pass rest p = .ok (t, s')) (more : List Char) :
    Scanner.pass { s with rest := s.rest ++ more } (rest ++ more) p =
      .ok (t, { s' with rest := s'.rest ++ more }) := by
  cases p with
  | newline => exact absurd rfl hp
  | _ =>
    cases h
    rfl

/-- The first step of a run. -/
theorem Runs.of_first {s : Scanner} {p : Piece} {rest : List Char} {scan : Scan} (h : Runs s scan)
    (hfirst : First s.wantsOperand s.rest p rest) :
    ∃ t s' scan', s.pass rest p = .ok (t, s') ∧ Runs s' scan' ∧
      scan.tokens = t.toList ++ scan'.tokens := by
  obtain ⟨c, cs, hrest⟩ := List.exists_cons_of_ne_nil (ne_nil_of_first hfirst)
  cases h with
  | stop ended _ => exact absurd ended (ne_nil_of_first hfirst)
  | step hfirst' hpass more =>
    rw [hrest] at hfirst hfirst'
    have he := (first_eq_ok.2 hfirst).symm.trans (first_eq_ok.2 hfirst')
    cases he
    exact ⟨_, _, _, hpass, more, rfl⟩

/-- The rest of a text, with these tokens, ends with its last token, or a comment on the next line
changes no token: the end of the text is not needed to close heredocs. -/
def Closed (s : Scanner) (ts : List Token) : Prop :=
  (s.rest ≠ [] → ∃ last, ts.getLast? = some last ∧ last.stop = s.cursor.offset + s.rest.length) ∨
    ∃ stop, Runs { s with rest := s.rest ++ commentLine } ⟨ts, stop⟩

theorem Closed.next {s s' : Scanner} {p : Piece} {rest : List Char} {t : Option Token}
    {ts : List Token} (h : Closed s (t.toList ++ ts))
    (hfirst : First s.wantsOperand s.rest p rest) (hpass : s.pass rest p = .ok (t, s'))
    (hpass' : Scanner.pass { s with rest := s.rest ++ commentLine } (rest ++ commentLine) p =
      .ok (t, { s' with rest := s'.rest ++ commentLine })) : Closed s' ts := by
  rcases h with hlast | ⟨stop, hruns⟩
  · refine .inl fun hne => ?_
    obtain ⟨last, hlast, hstop⟩ := hlast (ne_nil_of_first hfirst)
    obtain ⟨passed, hpasses⟩ := passes_of_step hfirst hpass
    cases ts with
    | nil =>
      -- then this step made the last token, and nothing is left after it
      rw [List.append_nil] at hlast
      have htoken := hpasses.token last (by simpa using List.mem_of_getLast? hlast)
      have hend : last.stop = s.cursor.offset + passed.length := by
        rw [htoken]
        rfl
      rw [hpasses.rest, List.length_append] at hstop
      exact absurd (List.eq_nil_of_length_eq_zero (by omega)) hne
    | cons u us =>
      refine ⟨last, ?_, ?_⟩
      · rw [← hlast, List.getLast?_append]
        simp [List.getLast?_cons]
      · rw [hstop, hpasses.offset, hpasses.rest, List.length_append]
        omega
  · obtain ⟨t', u, scan', hpass'', hmore, htokens⟩ := hruns.of_first (hfirst.newline_after ['#'])
    have he := hpass'.symm.trans hpass''
    cases he
    rw [List.append_cancel_left htokens]
    exact .inr ⟨scan'.stop, hmore⟩

/-- At a line break, the bodies that reach to the end of the text do without it. -/
theorem Closed.bodies {s s' : Scanner} {rest : List Char} {scan : Scan} (h : Closed s scan.tokens)
    (hfirst : First s.wantsOperand s.rest .newline rest) (hruns : Runs s' scan) (ended : s'.rest = []) :
    ∃ r, passBodies true (s.cursor.next '\n') (rest ++ commentLine) s.pending = .ok r := by
  rcases h with hlast | ⟨stop, hruns'⟩
  · obtain ⟨last, hlast, -⟩ := hlast (ne_nil_of_first hfirst)
    rw [hruns.eq_of_nil ended] at hlast
    cases hlast
  · obtain ⟨t, u, scan', hpass, -, -⟩ := hruns'.of_first (hfirst.newline_after ['#'])
    obtain ⟨cursor, after, hbodies, -⟩ := pass_newline_eq_ok.1 hpass
    exact ⟨_, hbodies⟩

/-- **A line break after a text** changes nothing about its tokens, and the scanner then stands at
the start of the next line. -/
theorem Runs.reads_newline {s : Scanner} {scan : Scan} (h : Runs s scan)
    (closed : Closed s scan.tokens) (more : List Char) :
    ∃ s', Reads { s with rest := s.rest ++ '\n' :: more } scan.tokens s' ∧ s'.rest = more ∧
      s'.pending = [] ∧
      s'.cursor = Cursor.start.shift (s.cursor.offset + s.rest.length + 1) scan.stop.line := by
  induction h with
  | @stop s ended noPending =>
    have hpass : Scanner.pass { s with rest := s.rest ++ '\n' :: more } more .newline = .ok (none,
        { s with rest := more, cursor := s.cursor.next '\n', pending := [] }) := by
      refine pass_newline_eq_ok.2 ⟨s.cursor.next '\n', more, ?_, rfl, rfl⟩
      show passBodies true (s.cursor.next '\n') more s.pending = _
      rw [noPending, passBodies]
    refine ⟨_, .step ?_ hpass .refl, rfl, rfl, ?_⟩
    · rw [ended]
      exact .newline
    · rw [ended]
      exact next_newline s.cursor
  | @step s s₁ p rest t scan hfirst hpass hruns ih =>
    obtain ⟨passed, hpasses⟩ := passes_of_step hfirst hpass
    have hoffset : s₁.cursor.offset + s₁.rest.length = s.cursor.offset + s.rest.length := by
      rw [hpasses.offset, hpasses.rest, List.length_append, Nat.add_assoc]
    by_cases hp : p = .newline
    · subst hp
      obtain ⟨cursor, after, hbodies, rfl, rfl⟩ := pass_newline_eq_ok.1 hpass
      rcases passBodies_newline hbodies (closed.bodies hfirst hruns) with hfound | ⟨hafter, hfound⟩
      · have hpass' (more : List Char) : Scanner.pass { s with rest := s.rest ++ '\n' :: more }
            (rest ++ '\n' :: more) .newline = .ok (none,
              { s with rest := after ++ '\n' :: more, cursor := cursor, pending := [] }) :=
          pass_newline_eq_ok.2 ⟨cursor, after ++ '\n' :: more, hfound more, rfl, rfl⟩
        obtain ⟨s', hreads, hrest, hpending, hcursor⟩ := ih (closed.next hfirst hpass (hpass' _))
        rw [hoffset] at hcursor
        exact ⟨s', .step (hfirst.newline_after more) (hpass' more) hreads, hrest, hpending, hcursor⟩
      · -- the last body took the line break, and nothing but it was left of the text
        obtain rfl := hruns.eq_of_nil hafter
        refine ⟨{ s with rest := more, cursor := cursor.next '\n', pending := [] }, ?_, rfl, rfl, ?_⟩
        · exact .step (hfirst.newline_after more)
            (pass_newline_eq_ok.2 ⟨cursor.next '\n', more, hfound more, rfl, rfl⟩) .refl
        · rw [← hoffset, hafter]
          exact next_newline cursor
    · obtain ⟨s', hreads, hrest, hpending, hcursor⟩ :=
        ih (closed.next hfirst hpass (pass_append hp hpass _))
      rw [hoffset] at hcursor
      exact ⟨s', .step (hfirst.newline_after more) (pass_append hp hpass _) hreads, hrest, hpending,
        hcursor⟩

end ManifestDocs.Scanner
