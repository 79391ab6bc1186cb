/-
Which comment lines are genuine. The lines above a declaration are told to be comment lines by the
sign `#` that they start with, one line at a time, while a scan of the text passes strings, block
comments and heredocs as a whole. So the sign of a line of documentation either starts a line
comment, or it stands inside a string, a block comment, a heredoc header or a heredoc body
(`Hidden`): no other piece of a text can hold a line break and go on. The two exclude each other,
because a scan goes through a text in one way only. A string that reads like a comment stands at the
end.
-/
import ManifestDocs.Proofs.CommentBlocks
import ManifestDocs.Proofs.Documented
import ManifestDocs.Proofs.Lines
import ManifestDocs.Proofs.Partition
import ManifestDocs.Proofs.TokenTexts

namespace ManifestDocs.Scanner

open ManifestDocs.Piece ManifestDocs.Text

/-! ## Pieces of a scan -/

/-- `Passed text first stop p`: a scan of the text passes the piece `p` from the offset `first` up
to `stop`. With a line break it passes the bodies of the heredocs before it. -/
def Passed (text : List Char) (first stop : Nat) (p : Piece) : Prop :=
  ∃ ts s rest t s', Reads (start text) ts s ∧ First s.wantsOperand s.rest p rest ∧
    s.pass rest p = .ok (t, s') ∧ s.cursor.offset = first ∧ s'.cursor.offset = stop

/-- A line comment starts at the offset. -/
def StartsComment (text : List Char) (offset : Nat) : Prop :=
  ∃ stop body, Passed text offset stop (.comment ('#' :: body))

/-- The pieces in which a line can start: a line break with the bodies of heredocs, a string, a
heredoc header and a block comment. -/
inductive Hides : Piece → Prop
  | bodies : Hides .newline
  | string {text : List Char} : Hides (.lexeme .string text)
  | header {tag text : List Char} : Hides (.header tag text)
  | blockComment {text : List Char} : Hides (.comment ('/' :: text))

/-- The offset lies inside a string, a block comment, a heredoc header or a heredoc body. -/
def Hidden (text : List Char) (offset : Nat) : Prop :=
  ∃ first stop p, Passed text first stop p ∧ Hides p ∧ first < offset ∧ offset < stop

/-- Every offset of a text that scans lies in a piece. -/
theorem Runs.exists_piece {s : Scanner} {scan : Scan} (h : Runs s scan) {offset : Nat}
    (hstart : s.cursor.offset ≤ offset) (hstop : offset < s.cursor.offset + s.rest.length) :
    ∃ ts u p rest t u', Reads s ts u ∧ First u.wantsOperand u.rest p rest ∧
      u.pass rest p = .ok (t, u') ∧ u.cursor.offset ≤ offset ∧ offset < u'.cursor.offset := by
  induction h with
  | stop ended _ =>
    rw [ended, List.length_nil] at hstop
    omega
  | @step s s' p rest t scan hfirst hpass _ ih =>
    obtain ⟨passed, hpasses⟩ := passes_of_step hfirst hpass
    by_cases hinside : offset < s'.cursor.offset
    · exact ⟨[], s, p, rest, t, s', .refl, hfirst, hpass, hstart, hinside⟩
    · have hlength : s'.cursor.offset + s'.rest.length = s.cursor.offset + s.rest.length := by
        rw [hpasses.offset, hpasses.rest, List.length_append, Nat.add_assoc]
      obtain ⟨ts, u, q, rest', t', u', hreads, hmore⟩ := ih (by omega) (by omega)
      exact ⟨_, u, q, rest', t', u', .step hfirst hpass hreads, hmore⟩

theorem exists_passed {text : String} {scan : Scan} (h : Scan.ofText text = .ok scan) {offset : Nat}
    (hoffset : offset < text.toList.length) :
    ∃ first stop p, Passed text.toList first stop p ∧ first ≤ offset ∧ offset < stop := by
  have hruns : Runs (start text.toList) scan := run_eq_ok.1 h
  obtain ⟨ts, s, p, rest, t, s', hreads, hfirst, hpass, hle, hlt⟩ :=
    hruns.exists_piece (Nat.zero_le offset) (by simpa [start, Cursor.start] using hoffset)
  exact ⟨_, _, p, ⟨ts, s, rest, t, s', hreads, hfirst, hpass, rfl, rfl⟩, hle, hlt⟩

/-! ## One way through a text -/

theorem step_unique {s s₁ s₂ : Scanner} {p q : Piece} {rest rest' : List Char} {t u : Option Token}
    (hfirst : First s.wantsOperand s.rest p rest) (hpass : s.pass rest p = .ok (t, s₁))
    (hfirst' : First s.wantsOperand s.rest q rest') (hpass' : s.pass rest' q = .ok (u, s₂)) :
    s₁ = s₂ := by
  obtain ⟨c, cs, hrest⟩ := List.exists_cons_of_ne_nil (ne_nil_of_first hfirst)
  rw [hrest] at hfirst hfirst'
  have hpieces := (first_eq_ok.2 hfirst).symm.trans (first_eq_ok.2 hfirst')
  cases hpieces
  have hstates := hpass.symm.trans hpass'
  cases hstates
  rfl

/-- A scan stands nowhere inside of a piece that it passes. -/
theorem Reads.not_inside {a s s' u : Scanner} {ts us : List Token} {p : Piece} {rest : List Char}
    {t : Option Token} (hs : Reads a ts s) (hfirst : First s.wantsOperand s.rest p rest)
    (hpass : s.pass rest p = .ok (t, s')) (hu : Reads a us u) :
    u.cursor.offset ≤ s.cursor.offset ∨ s'.cursor.offset ≤ u.cursor.offset := by
  have hle {a b : Scanner} {ts : List Token} (h : Reads a ts b) :
      a.cursor.offset ≤ b.cursor.offset := by
    obtain ⟨passed, -, hoffset⟩ := h.passed
    omega
  induction hs generalizing us with
  | refl =>
    cases hu with
    | refl => exact .inl (Nat.le_refl _)
    | step hfirst' hpass' more =>
      rw [step_unique hfirst hpass hfirst' hpass']
      exact .inr (hle more)
  | step hfirst' hpass' more ih =>
    cases hu with
    | refl => exact .inl (hle (.step hfirst' hpass' more))
    | step hfirst'' hpass'' more' =>
      rw [← step_unique hfirst' hpass' hfirst'' hpass''] at more'
      exact ih hfirst hpass more'

theorem not_hidden_of_startsComment {text : List Char} {offset : Nat}
    (h : StartsComment text offset) : ¬ Hidden text offset := by
  obtain ⟨-, -, us, u, -, -, -, hu, -, -, rfl, -⟩ := h
  rintro ⟨-, -, p, ⟨ts, s, rest, t, s', hs, hfirst, hpass, rfl, rfl⟩, -, hlt, hgt⟩
  rcases hs.not_inside hfirst hpass hu with hle | hle <;> omega

/-! ## A sign at the start of a line -/

theorem first_of_sign {operand : Bool} {cs rest : List Char} {p : Piece}
    (h : First operand ('#' :: cs) p rest) : ∃ body, p = .comment ('#' :: body) := by
  cases h with
  | lineComment => exact ⟨_, rfl⟩
  | gap hc => exact absurd hc (by decide)
  | number plain _ _ | word plain _ _ _ | operator plain _ _ _ _ =>
    exact absurd rfl (told_eq_false plain).2.2.1

/-- A piece in which no line can start has no line break. -/
theorem hides_or_unbroken {operand : Bool} {cs rest : List Char} {p : Piece}
    (h : First operand cs p rest) : Hides p ∨ '\n' ∉ p.text := by
  cases p with
  | newline => exact .inl .bodies
  | header tag text => exact .inl .header
  | gap c =>
    cases h with
    | gap hc =>
      right
      rintro hmem
      rw [← List.mem_singleton.1 hmem] at hc
      exact absurd hc (by decide)
  | comment text =>
    generalize hp : Piece.comment text = p at h
    cases h with
    | @lineComment cs =>
      right
      simp only [Piece.text, List.mem_cons, not_or]
      refine ⟨by decide, fun hmem => ?_⟩
      simpa using List.mem_takeWhile_imp (l := cs) hmem
    | blockComment => exact .inl .blockComment
    | _ => cases hp
  | lexeme kind text =>
    by_cases hstring : kind = .string
    · rw [hstring]
      exact .inl .string
    · exact .inr (h.unbroken hstring)

/-- A piece that is no line break is passed alone. -/
theorem rest_of_pass {s s' : Scanner} {p : Piece} {rest : List Char} {t : Option Token}
    (hp : p ≠ .newline) (h : s.pass rest p = .ok (t, s')) : s'.rest = rest := by
  cases p with
  | newline => exact absurd rfl hp
  | _ =>
    cases h
    rfl

/-- A piece without a line break that starts before the first sign of a line and reaches over it
would start with a blank of the line's indent. -/
theorem blank_of_unbroken {front piece rest before indent more : List Char} {c : Char}
    (hwhole : front ++ (piece ++ rest) = before ++ (indent ++ '#' :: more))
    (hbefore : Listing.EndsLine before) (hindent : ∀ c ∈ indent, isBlank c = true)
    (hlt : front.length < (before ++ indent).length)
    (hgt : (before ++ indent).length < front.length + piece.length) (hunbroken : '\n' ∉ piece)
    (hc : piece.head? = some c) : isBlank c = true := by
  rw [List.length_append] at hlt hgt
  have hstarts : before.length ≤ front.length := by
    by_contra hinside
    rcases hbefore with rfl | hlast
    · simp at hinside
    · -- the line break before the line would be in the piece
      have hbreak : (before ++ (indent ++ '#' :: more))[before.length - 1]? = some '\n' := by
        rw [List.getElem?_append_left (by omega), ← List.getLast?_eq_getElem?, hlast]
      rw [← hwhole, List.getElem?_append_right (by omega),
        List.getElem?_append_left (by omega)] at hbreak
      exact hunbroken (List.mem_of_getElem? hbreak)
  have hfirst : (front ++ (piece ++ rest))[front.length]? = some c := by
    rw [List.getElem?_append_right (Nat.le_refl _), Nat.sub_self,
      List.getElem?_append_left (by omega), ← List.head?_eq_getElem?, hc]
  rw [hwhole, List.getElem?_append_right hstarts, List.getElem?_append_left (by omega)] at hfirst
  exact hindent c (List.mem_of_getElem? hfirst)

/-- **A piece over the first sign of a line** is a line comment that starts there, or one in which
the line starts. -/
theorem comment_or_hides {text before indent more : List Char} {first stop : Nat} {p : Piece}
    (htext : text = before ++ (indent ++ '#' :: more)) (hbefore : Listing.EndsLine before)
    (hindent : ∀ c ∈ indent, isBlank c = true) (h : Passed text first stop p)
    (hle : first ≤ (before ++ indent).length) (hlt : (before ++ indent).length < stop) :
    (first = (before ++ indent).length ∧ ∃ body, p = .comment ('#' :: body)) ∨
      (first < (before ++ indent).length ∧ Hides p) := by
  obtain ⟨ts, s, rest, t, s', hreads, hfirst, hpass, rfl, rfl⟩ := h
  obtain ⟨front, hfront, hoffset⟩ := hreads.passed
  obtain ⟨passed, hpasses⟩ := passes_of_step hfirst hpass
  have hlength : s.cursor.offset = front.length := by
    rw [hoffset]
    exact Nat.zero_add _
  have hwhole : front ++ s.rest = before ++ (indent ++ '#' :: more) := hfront.symm.trans htext
  rcases Nat.lt_or_eq_of_le hle with hinside | hat
  · refine .inr ⟨hinside, ?_⟩
    rcases hides_or_unbroken hfirst with hhides | hunbroken
    · exact hhides
    · -- such a piece cannot be there: it would be a gap, and a gap is one character
      exfalso
      have hp : p ≠ .newline := by
        rintro rfl
        simp [Piece.text] at hunbroken
      have htext := (append_of_first hfirst).1
      have hpassed : passed = p.text := by
        have hrest := hpasses.rest
        rw [rest_of_pass hp hpass, htext] at hrest
        exact (List.append_cancel_right hrest).symm
      obtain ⟨c, cs, hcs⟩ := List.exists_cons_of_ne_nil (append_of_first hfirst).2
      rw [htext] at hwhole
      rw [hpasses.offset, hpassed, hlength] at hlt
      rw [hlength] at hinside
      have hblank :=
        blank_of_unbroken hwhole hbefore hindent hinside hlt hunbroken (by rw [hcs]; rfl)
      rw [htext, hcs] at hfirst
      rcases hfirst.of_blank hblank with he | rfl
      · exact hp he
      · simp only [Piece.text, List.length_singleton] at hlt
        omega
  · left
    have hrest : s.rest = '#' :: more := by
      rw [← List.append_assoc] at hwhole
      exact (List.append_inj hwhole (hlength.symm.trans hat)).2
    rw [hrest] at hfirst
    exact ⟨hat, first_of_sign hfirst⟩

/-- **The first sign of a line** of a text that scans starts a line comment if and only if it is not
inside a string, a block comment or a heredoc. -/
theorem startsComment_iff_not_hidden {text : String} {scan : Scan} {n : Nat}
    {before indent more after : List Char} (hscan : Scan.ofText text = .ok scan)
    (hline : Listing.LineAt text.toList n before (indent ++ '#' :: more) after)
    (hindent : ∀ c ∈ indent, isBlank c = true) :
    StartsComment text.toList (before ++ indent).length ↔
      ¬ Hidden text.toList (before ++ indent).length := by
  refine ⟨not_hidden_of_startsComment, fun hnot => ?_⟩
  have htext : text.toList = before ++ (indent ++ '#' :: (more ++ after)) := by
    rw [hline.whole]
    simp
  have hinside : (before ++ indent).length < text.toList.length := by
    rw [htext]
    simp only [List.length_append, List.length_cons]
    omega
  obtain ⟨first, stop, p, hpassed, hle, hlt⟩ := exists_passed hscan hinside
  rcases comment_or_hides htext hline.starts hindent hpassed hle hlt with
    ⟨rfl, body, rfl⟩ | ⟨hbefore, hhides⟩
  · exact ⟨stop, body, hpassed⟩
  · exact absurd ⟨first, stop, p, hpassed, hhides, hbefore, hlt⟩ hnot

end ManifestDocs.Scanner

namespace ManifestDocs.DocComment

open ManifestDocs.Listing ManifestDocs.Scanner ManifestDocs.Text

/-! ## The lines of a comment -/

/-- A comment line starts with a sign, perhaps after an indent. -/
theorem sign_of_isComment {row : List Char}
    (h : isComment (String.ofList (dropReturns row)) = true) :
    ∃ indent more, row = indent ++ '#' :: more ∧ ∀ c ∈ indent, isBlank c = true := by
  rw [isComment, String.toList_ofList, content?] at h
  split at h
  · next cs htrim =>
    have hindent : (dropReturns row).takeWhile isBlank ++ '#' :: cs = dropReturns row := by
      rw [← htrim]
      exact List.takeWhile_append_dropWhile
    have hreturns : dropReturns row ++ row.rtakeWhile (· == '\r') = row :=
      List.rdropWhile_append_rtakeWhile
    refine ⟨(dropReturns row).takeWhile isBlank, cs ++ row.rtakeWhile (· == '\r'), ?_,
      fun c hc => List.mem_takeWhile_imp hc⟩
    rw [← List.cons_append, ← List.append_assoc, hindent, hreturns]
  · cases h

/-- Every line of a comment stands in the text and starts with a sign. -/
theorem lineAt_of_above {file source : String} {number maxBlank : Int} {c : DocComment}
    (h : above (Listing.ofText file source) number maxBlank = some c) {n : Nat}
    (hfirst : c.first ≤ n) (hlast : n ≤ c.last) :
    ∃ before indent more after, LineAt source.toList n before (indent ++ '#' :: more) after ∧
      ∀ c ∈ indent, isBlank c = true := by
  have hattached := above_eq_some_iff.1 h
  have hpos := hattached.bounds.1
  obtain ⟨line, hline, hcomment⟩ := hattached.isComment hfirst hlast
  have hlisted : (Listing.ofText file source).lines[n - 1]? = some line := by
    rw [List.getElem?_take] at hline
    split at hline
    · exact hline
    · cases hline
  rw [Listing.ofText, List.getElem?_map, Option.map_eq_some_iff] at hlisted
  obtain ⟨row, hrow, rfl⟩ := hlisted
  obtain ⟨indent, more, rfl, hindent⟩ := sign_of_isComment hcomment
  obtain ⟨before, after, hat, -⟩ := lineAt_of_getElem? hrow
  rw [Nat.sub_add_cancel (Nat.le_trans hpos hfirst)] at hat
  exact ⟨before, indent, more, after, hat, hindent⟩

/-- **Documentation is made of comments, or of what hides in strings, block comments and heredocs**:
on each line of the comment of an entry, the first character that is not blank is a sign, and it
starts a line comment if and only if it is not inside one of these. -/
theorem comment_lines_genuine_iff {source file : String} {options : Options} {runtime : Runtime}
    {report : Report} {records : List LogRecord}
    (h : extract source file options runtime = (.ok report, records)) {e : Entry}
    (he : e ∈ report.entries) {first last : Int} (hlines : e.commentLines = some (first, last))
    {n : Nat} (hfirst : first ≤ n) (hlast : n ≤ last) :
    ∃ before indent more after, LineAt source.toList n before (indent ++ '#' :: more) after ∧
      (∀ c ∈ indent, isBlank c = true) ∧
      (StartsComment source.toList (before ++ indent).length ↔
        ¬ Hidden source.toList (before ++ indent).length) := by
  rcases entries_of_extract h with hnone | ⟨m, hparse, hentries⟩
  · rw [hnone] at he
    cases he
  · obtain ⟨scan, is, hscan, -, rfl⟩ := Grammar.parse_eq_ok.1 hparse
    rw [hentries] at he
    obtain ⟨i, -, hi⟩ := List.mem_filterMap.1 he
    rw [(Entry.of_ofItem? hi).2, Option.map_eq_some_iff] at hlines
    obtain ⟨c, hc, hrange⟩ := hlines
    obtain ⟨rfl, rfl⟩ := Prod.mk.inj hrange
    obtain ⟨before, indent, more, after, hat, hindent⟩ :=
      lineAt_of_above hc (n := n) (by omega) (by omega)
    exact ⟨before, indent, more, after, hat, hindent,
      startsComment_iff_not_hidden hscan hat hindent⟩

/-! ## A string that reads like a comment -/

/-- A string with a sign at the start of its second line, before a class. -/
def signInString : String :=
  "\"\n# note\n\" class a \x7b\x7d"

/-- The entry of the class, with the second line of the string for its documentation. -/
def signInStringEntry : Entry :=
  ⟨"class", "a", "init.pp", 3, "class a \x7b\x7d", "note", some (2, 2), .hostClass [] none⟩

theorem extract_signInString :
    extract signInString "init.pp" usualOptions Runtime.default =
      (.ok ⟨[signInStringEntry], none⟩, []) := by
  have hparse : Manifest.parse true signInString = .ok ⟨signInString,
      [⟨1, 0, 10, .expression⟩, ⟨3, 11, 10, .definition (.hostClass "a" [] none "")⟩]⟩ := by
    decide +kernel
  have hentries : List.filterMap (Entry.ofItem? "init.pp" usualOptions.maxBlankLines signInString)
      [⟨1, 0, 10, .expression⟩, ⟨3, 11, 10, .definition (.hostClass "a" [] none "")⟩] =
        [signInStringEntry] := by
    decide +kernel
  simp only [extract_usual hparse, hentries]

/-- The string is passed as a whole. -/
theorem hidden_signInString : Hidden signInString.toList 2 := by
  have hfirst : Piece.first true '"' "\n# note\n\" class a \x7b\x7d".toList =
      .ok (.lexeme .string "\"\n# note\n\"".toList, " class a \x7b\x7d".toList) := by
    rfl
  refine ⟨0, 10, .lexeme .string "\"\n# note\n\"".toList, ?_, .string, by decide, by decide⟩
  exact ⟨[], start signInString.toList, _, _, _, .refl, Piece.first_eq_ok.1 hfirst, rfl, rfl, rfl⟩

/-- The sign in the string is a comment or hidden, and it is hidden. -/
theorem signInString_hidden_sign :
    signInStringEntry.commentLines = some (2, 2) ∧
    ∃ before indent more after,
      LineAt signInString.toList 2 before (indent ++ '#' :: more) after ∧
      (∀ c ∈ indent, isBlank c = true) ∧
      (StartsComment signInString.toList (before ++ indent).length ↔
        ¬ Hidden signInString.toList (before ++ indent).length) :=
  ⟨rfl, comment_lines_genuine_iff extract_signInString (List.mem_singleton.2 rfl) rfl
    (Int.le_refl 2) (Int.le_refl 2)⟩

/-- **Documentation need not be a comment**: the documentation of the class is the second line of
the string, where no comment starts. -/
theorem documentation_not_comment :
    extract signInString "init.pp" usualOptions Runtime.default =
        (.ok ⟨[signInStringEntry], none⟩, []) ∧
      LineAt signInString.toList 2 ['"', '\n'] "# note".toList "\n\" class a \x7b\x7d".toList ∧
      ¬ StartsComment signInString.toList 2 := by
  refine ⟨extract_signInString, ⟨rfl, rfl, .inr rfl, by decide, .inr rfl⟩, fun hstarts => ?_⟩
  exact not_hidden_of_startsComment hstarts hidden_signInString

end ManifestDocs.DocComment
