/-
Heredocs are opaque. Several headers stand on one line, and after that line their bodies, each
through the line with its tag. Whatever the lines of a body hold, be it quotes, brackets, comments,
other tags or further headers, scanning passes the bodies in the order of their headers
(`passBodies_blocks`) and then goes on as at the start of a text, but for one thing: the last token
is a header, so that a slash divides. What came before matters for nothing else (`run_previous`).
-/
import ManifestDocs.Proofs.Lines
import ManifestDocs.Proofs.Resumption
import ManifestDocs.Proofs.Bodies

namespace ManifestDocs.Heredoc

open ManifestDocs.Text ManifestDocs.Lexeme ManifestDocs.Listing

/-! ## What is written -/

/-- A heredoc: its tag and the lines of its body. -/
structure Block where
  tag : String
  lines : List String
deriving DecidableEq, Repr

namespace Block

/-- The header of a heredoc. -/
def opening (b : Block) : String :=
  "@(" ++ b.tag ++ ")"

/-- The lines of a heredoc, with the line that ends it. -/
def text (b : Block) : String :=
  String.join ((b.lines ++ [b.tag]).map (· ++ "\n"))

/-- The headers of heredocs on one line, and after it their lines, one heredoc after the other. -/
def writeAll (bs : List Block) : String :=
  " ".intercalate (bs.map opening) ++ ("\n" ++ String.join (bs.map text))

/-- The tag is one that a header can have, without blanks around it, and no line of the body has a
line break in it or ends the body. -/
structure WellFormed (b : Block) : Prop where
  tagged : b.tag ≠ ""
  tagChars : ∀ c ∈ b.tag.toList, c ∉ ['"', ':', '/', ')', '\r', '\n']
  trimmed : trim b.tag.toList = b.tag.toList
  unbroken : ∀ l ∈ b.lines, '\n' ∉ l.toList
  goesOn : ∀ l ∈ b.lines, ¬ EndsBody b.tag.toList l.toList

theorem WellFormed.isTagChar {b : Block} (h : b.WellFormed) :
    ∀ c ∈ b.tag.toList, Heredoc.isTagChar c = true := by
  intro c hc
  simpa [Heredoc.isTagChar, and_assoc] using h.tagChars c hc

theorem WellFormed.tag_unbroken {b : Block} (h : b.WellFormed) : '\n' ∉ b.tag.toList := by
  intro hmem
  exact h.tagChars '\n' hmem (by simp)

theorem WellFormed.head_tag {b : Block} (h : b.WellFormed) :
    ∃ c cs, b.tag.toList = c :: cs ∧ isBlank c = false ∧ c ≠ '"' := by
  have hne : b.tag.toList ≠ [] := by
    simpa [String.toList_eq_nil_iff] using h.tagged
  obtain ⟨c, cs, htag⟩ := List.exists_cons_of_ne_nil hne
  have hhead : (trim b.tag.toList).head? = some c := by
    rw [h.trimmed, htag, List.head?_cons]
  refine ⟨c, cs, htag, head?_trim hhead, ?_⟩
  intro hc
  exact h.tagChars c (by simp [htag]) (by simp [hc])

theorem WellFormed.unindented {b : Block} (h : b.WellFormed) : Unindented b.tag.toList :=
  h.trimmed ▸ unindented_trim b.tag.toList

theorem WellFormed.isEndLine {b : Block} (h : b.WellFormed) {l : String} (hl : l ∈ b.lines) :
    isEndLine b.tag.toList l.toList = false := by
  by_contra hend
  rw [Bool.not_eq_false] at hend
  exact h.goesOn l hl ((isEndLine_iff h.unindented).1 hend)

instance (b : Block) : Decidable b.WellFormed :=
  decidable_of_iff (b.tag ≠ "" ∧ b.tag.toList.all Heredoc.isTagChar = true ∧
      trim b.tag.toList = b.tag.toList ∧ (∀ l ∈ b.lines, '\n' ∉ l.toList) ∧
      ∀ l ∈ b.lines, Heredoc.isEndLine b.tag.toList l.toList = false) <| by
    constructor
    · intro ⟨htagged, hchars, htrimmed, hunbroken, hgoesOn⟩
      refine ⟨htagged, fun c hc => ?_, htrimmed, hunbroken, fun l hl hends => ?_⟩
      · simpa [Heredoc.isTagChar, and_assoc] using List.all_eq_true.1 hchars c hc
      · have hunindented : Unindented b.tag.toList := htrimmed ▸ unindented_trim b.tag.toList
        have hend := (isEndLine_iff hunindented).2 hends
        rw [hgoesOn l hl] at hend
        cases hend
    · intro h
      exact ⟨h.tagged, List.all_eq_true.2 h.isTagChar, h.trimmed, h.unbroken,
        fun l hl => h.isEndLine hl⟩

/-! ## Headers -/

theorem toList_opening (b : Block) : b.opening.toList = '@' :: '(' :: (b.tag.toList ++ [')']) := by
  simp [opening]

theorem headerEnd_parenthesis (rest : List Char) : headerEnd (')' :: rest) = some ([')'], rest) :=
  rfl

/-- The header of a heredoc is read with its tag. -/
theorem header_opening {b : Block} (h : b.WellFormed) (rest : List Char) :
    header (b.opening.toList ++ rest) = some (b.tag.toList, b.opening.toList, rest) := by
  obtain ⟨c, cs, htag, hblank, hquote⟩ := h.head_tag
  have hgap : run isBlank (b.tag.toList ++ ')' :: rest) = ([], b.tag.toList ++ ')' :: rest) := by
    simp [run, htag, hblank]
  have hrun : run Heredoc.isTagChar (b.tag.toList ++ ')' :: rest) = (b.tag.toList, ')' :: rest) := by
    have hstop : Heredoc.isTagChar ')' = false := by decide
    simp only [run]
    rw [List.takeWhile_append_of_pos h.isTagChar, List.dropWhile_append_of_pos h.isTagChar]
    simp [hstop]
  have htext : b.opening.toList ++ rest = '@' :: '(' :: (b.tag.toList ++ ')' :: rest) := by
    simp [toList_opening]
  have hplain : plainTag [] (b.tag.toList ++ ')' :: rest) =
      some (b.tag.toList, b.tag.toList ++ [')'], rest) := by
    have hne : b.tag.toList.isEmpty = false := by simp [htag]
    simp [plainTag, hrun, hne, Split.andThen?, headerEnd_parenthesis, Split.extend]
  rw [htext, header]
  simp only [hgap]
  split
  · next more he =>
    rw [htag] at he
    cases he
    exact absurd rfl hquote
  · rw [hplain]
    simp [h.trimmed, Split.extend, toList_opening]

/-! ## Bodies -/

theorem toList_text (b : Block) :
    b.text.toList = ended (b.lines.map String.toList ++ [b.tag.toList]) := by
  simp [text, ended, String.toList_join, List.flatMap_map]

/-- The body of a heredoc is its lines, whatever they hold, through the line with its tag. -/
theorem body_text {b : Block} (h : b.WellFormed) (rest : List Char) :
    body b.tag.toList (b.text.toList ++ rest) = some (b.text.toList, rest) := by
  have hends : EndsBody b.tag.toList b.tag.toList := by
    have hnone : IsIndent [] := by simp [IsIndent]
    simpa using @EndsBody.mk b.tag.toList _ _ _ _ _ hnone .absent .absent hnone (.inl rfl)
  have hlast := (isEndLine_iff h.unindented).2 hends
  have hgoesOn : ∀ l ∈ b.lines, isEndLine b.tag.toList l.toList = false :=
    fun l hl => h.isEndLine hl
  have hunbroken := h.unbroken
  rw [toList_text]
  generalize b.lines = lines at hgoesOn hunbroken
  induction lines with
  | nil =>
    simp only [List.map_nil, List.nil_append, ended_cons, ended_nil, List.append_assoc,
      List.cons_append]
    rw [body_line h.tag_unbroken, if_pos hlast]
  | cons l ls ih =>
    simp only [List.map_cons, List.cons_append, ended_cons, List.append_assoc]
    rw [body_line (hunbroken l (by simp)), if_neg (by simp [hgoesOn l (by simp)])]
    rw [ih (fun l' hl' => hgoesOn l' (by simp [hl'])) fun l' hl' => hunbroken l' (by simp [hl'])]
    simp [Split.extend]

theorem endsLine_text (b : Block) : endsLine b.text.toList = true := by
  rw [toList_text, ended_append]
  simp [endsLine]

end Block

end ManifestDocs.Heredoc

namespace ManifestDocs.Scanner

open ManifestDocs.Piece ManifestDocs.Heredoc ManifestDocs.Listing

/-! ## Passing heredocs -/

/-- The tokens of headers on the first line, from this offset on, with a space between them. -/
def headerTokens : Nat → List Block → List Token
  | _, [] => []
  | n, b :: bs =>
    ⟨.heredoc, b.opening, ⟨n, 1, n + 1⟩, n + b.opening.toList.length⟩ ::
      headerTokens (n + b.opening.toList.length + 1) bs

/-- Headers with a space between them. -/
def headerLine (bs : List Block) : List Char :=
  [' '].intercalate (bs.map (·.opening.toList))

/-- A header makes its token, and its heredoc waits after those that wait. -/
theorem reads_opening {b : Block} (h : b.WellFormed) (n : Nat) (tail : List Char)
    (pending : List Pending) (previous : Option Token) :
    ∃ t p, Reads ⟨b.opening.toList ++ tail, ⟨n, 1, 0⟩, pending, previous⟩ [t]
        ⟨tail, ⟨n + b.opening.toList.length, 1, 0⟩, pending ++ [p], some t⟩ ∧
      t = ⟨.heredoc, b.opening, ⟨n, 1, n + 1⟩, n + b.opening.toList.length⟩ ∧
      p.tag = b.tag.toList := by
  have hfirst : ∀ operand, First operand (b.opening.toList ++ tail)
      (.header b.tag.toList b.opening.toList) tail := by
    intro operand
    have hfound := Block.header_opening h tail
    simp only [Block.toList_opening, List.cons_append] at hfound ⊢
    exact .header hfound
  refine ⟨_, ⟨b.tag.toList, 1, n + 1⟩, .step (t := some _) (hfirst _) rfl .refl, ?_, rfl⟩
  simp [Scanner.token, Cursor.place, Cursor.column]

theorem reads_space (n : Nat) (tail : List Char) (pending : List Pending)
    (previous : Option Token) :
    Reads ⟨' ' :: tail, ⟨n, 1, 0⟩, pending, previous⟩ []
      ⟨tail, ⟨n + 1, 1, 0⟩, pending, previous⟩ :=
  .step (t := none) (.gap (by decide)) rfl .refl

/-- The line of headers makes their tokens, and all of them wait for their bodies, in order. -/
theorem reads_headerLine {bs : List Block} (h : ∀ b ∈ bs, b.WellFormed) (n : Nat)
    (tail : List Char) (pending : List Pending) (previous : Option Token) :
    ∃ waiting previous', Reads ⟨headerLine bs ++ tail, ⟨n, 1, 0⟩, pending, previous⟩
        (headerTokens n bs)
        ⟨tail, ⟨n + (headerLine bs).length, 1, 0⟩, pending ++ waiting, previous'⟩ ∧
      waiting.map (·.tag) = bs.map (·.tag.toList) := by
  induction bs generalizing n pending previous with
  | nil => exact ⟨[], previous, by simpa [headerLine, headerTokens] using Reads.refl, rfl⟩
  | cons b bs ih =>
    cases bs with
    | nil =>
      obtain ⟨t, p, hreads, rfl, hp⟩ := reads_opening (h b (by simp)) n tail pending previous
      exact ⟨[p], _, by simpa [headerLine, headerTokens] using hreads, by simp [hp]⟩
    | cons c cs =>
      obtain ⟨t, p, hreads, rfl, hp⟩ := reads_opening (h b (by simp)) n
        (' ' :: (headerLine (c :: cs) ++ tail)) pending previous
      obtain ⟨waiting, previous', hmore, htags⟩ := ih (fun d hd => h d (by simp [hd]))
        (n + b.opening.toList.length + 1) (pending ++ [p]) _
      have hwhole := hreads.trans ((reads_space ..).trans hmore)
      have hline : headerLine (b :: c :: cs) =
          b.opening.toList ++ ' ' :: headerLine (c :: cs) := by
        simp [headerLine]
      refine ⟨p :: waiting, previous', ?_, by simp [hp, htags]⟩
      rw [hline]
      simpa [headerTokens, Nat.add_assoc, Nat.add_comm 1] using hwhole

/-- The bodies of heredocs are passed in the order of their headers. -/
theorem passBodies_blocks {bs : List Block} (h : ∀ b ∈ bs, b.WellFormed) {waiting : List Pending}
    (htags : waiting.map (·.tag) = bs.map (·.tag.toList)) (cursor : Cursor) (rest : List Char) :
    passBodies true cursor (bs.flatMap (·.text.toList) ++ rest) waiting =
      .ok (cursor.past (bs.flatMap (·.text.toList)), rest) := by
  induction bs generalizing waiting cursor with
  | nil =>
    have hnone : waiting = [] := by simpa using htags
    rw [hnone]
    rfl
  | cons b bs ih =>
    obtain ⟨p, ps, rfl, hp, hps⟩ := List.map_eq_cons_iff.1 htags
    have hbody := Block.body_text (h b (by simp)) (bs.flatMap (·.text.toList) ++ rest)
    rw [List.flatMap_cons, List.append_assoc, passBodies, hp, if_pos rfl, hbody]
    simp only [Block.endsLine_text, Cursor.past_append]
    exact ih (fun c hc => h c (by simp [hc])) hps _

/-! ## What came before -/

/-- The first character of a text outside blanks, line breaks and comments. -/
def firstOutside : List Char → Option Char
  | [] => none
  | c :: cs =>
    if c = '\n' || isGap c then firstOutside cs
    else if c = '#' then firstOutside (cs.dropWhile (· != '\n'))
    else if c = '/' && cs.head? == some '*' then
      match _h : Lexeme.blockComment cs.tail with
      | some split => firstOutside split.2
      | none => none
    else some c
termination_by cs => cs.length
decreasing_by
  · simp
  · have hle := (List.dropWhile_suffix (· != '\n') (l := cs)).length_le
    simp only [List.length_cons]
    omega
  · have hwhole := congrArg List.length (Lexeme.whole_of_blockComment _h)
    simp only [Lexeme.Split.whole, List.length_append, List.length_tail] at hwhole
    simp only [List.length_cons]
    omega

theorem firstOutside_newline (cs : List Char) : firstOutside ('\n' :: cs) = firstOutside cs := by
  rw [firstOutside]
  simp

theorem firstOutside_gap {c : Char} (hc : isGap c = true) (cs : List Char) :
    firstOutside (c :: cs) = firstOutside cs := by
  rw [firstOutside]
  simp [hc]

theorem firstOutside_lineComment (cs : List Char) :
    firstOutside ('#' :: cs) = firstOutside (Lexeme.run (· != '\n') cs).2 := by
  rw [firstOutside]
  simp [isGap, Lexeme.run]

theorem firstOutside_blockComment {cs : List Char} {split : Lexeme.Split}
    (h : Lexeme.blockComment cs = some split) :
    firstOutside ('/' :: '*' :: cs) = firstOutside split.2 := by
  rw [firstOutside]
  simp only [isGap, List.head?_cons, List.tail_cons]
  split
  · next hc => simp at hc
  · split
    · next hc => simp at hc
    · split
      · split
        · next split' hfound =>
          rw [h] at hfound
          cases hfound
          rfl
        · next hnone => simp [h] at hnone
      · next hc => simp at hc

/-- A slash that comes first opens a comment, unless it is outside comments. -/
theorem slash_of_firstOutside {c : Char} {cs : List Char} (h : firstOutside (c :: cs) ≠ some '/') :
    c = '/' → cs.head? = some '*' := by
  intro hc
  subst hc
  by_contra hstar
  refine h ?_
  rw [firstOutside]
  simp [isGap, hstar]

/-- What comes first outside blanks and comments still does after one of them. -/
theorem firstOutside_step {s s' : Scanner} {c : Char} {cs : List Char} (hs : s.pending = [])
    (hstep : s.step c cs = .ok (none, s')) :
    firstOutside s'.rest = firstOutside (c :: cs) ∧ s'.pending = [] := by
  obtain ⟨p, rest, hfirst, hpass⟩ := step_eq_ok.1 hstep
  cases hfirst with
  | newline =>
    obtain ⟨cursor, after, hbodies, -, rfl⟩ := pass_newline_eq_ok.1 hpass
    rw [hs] at hbodies
    cases hbodies
    exact ⟨(firstOutside_newline cs).symm, rfl⟩
  | gap hc =>
    cases hpass
    exact ⟨(firstOutside_gap hc cs).symm, hs⟩
  | lineComment =>
    cases hpass
    exact ⟨(firstOutside_lineComment cs).symm, hs⟩
  | blockComment h =>
    cases hpass
    exact ⟨(firstOutside_blockComment h).symm, hs⟩
  | _ => cases hpass

/-- Where no slash comes first but one that opens a comment, the first piece is the same whether an
operand can stand there. -/
theorem first_operand {c : Char} {cs : List Char} (h : c = '/' → cs.head? = some '*')
    (operand operand' : Bool) : first operand c cs = first operand' c cs := by
  by_cases hc : c = '/'
  · subst hc
    simp [first, h rfl, isGap]
  · simp [first, hc]

/-- The outcome of a step, with this token before the scanner unless the step made one. -/
def withPrevious (previous : Option Token) (r : Option Token × Scanner) : Option Token × Scanner :=
  (r.1, { r.2 with previous := r.1.or previous })

theorem pass_with_previous (s : Scanner) (p : Piece) (rest : List Char) (previous : Option Token) :
    Scanner.pass { s with previous := previous } rest p =
      (s.pass rest p).map (withPrevious previous) := by
  cases p with
  | newline =>
    rw [pass, pass]
    cases passBodies true (s.cursor.next '\n') rest s.pending <;> rfl
  | _ => rfl

theorem step_with_previous {s : Scanner} {c : Char} {cs : List Char}
    (h : c = '/' → cs.head? = some '*') (previous : Option Token) :
    Scanner.step { s with previous := previous } c cs =
      (s.step c cs).map (withPrevious previous) := by
  rw [step, step, first_operand h _ s.wantsOperand]
  cases first s.wantsOperand c cs with
  | error cause => rfl
  | ok r => exact pass_with_previous s r.1 r.2 previous

/-- **What came before** matters only for a slash, and only until the first token. -/
theorem run_previous {s : Scanner} (hs : s.pending = []) (h : firstOutside s.rest ≠ some '/')
    (previous : Option Token) : Scanner.run { s with previous := previous } = s.run := by
  by_cases hnil : s.rest = []
  · rw [run_of_nil hnil, run_of_nil (s := { s with previous := previous }) hnil]
    rfl
  obtain ⟨c, cs, hrest⟩ := List.exists_cons_of_ne_nil hnil
  rw [hrest] at h
  have hstep := step_with_previous (s := s) (slash_of_firstOutside h) previous
  cases hfound : s.step c cs with
  | error e =>
    rw [hfound] at hstep
    rw [run_of_error hrest hfound, run_of_error (s := { s with previous := previous }) hrest hstep]
  | ok r =>
    obtain ⟨t, s'⟩ := r
    rw [hfound] at hstep
    rw [run_step hrest hfound, run_step (s := { s with previous := previous }) hrest hstep]
    cases t with
    | none =>
      -- no token yet: what came before still counts, and the text still starts without a slash
      obtain ⟨houtside, hpending⟩ := firstOutside_step hs hfound
      have hlength : s'.rest.length < s.rest.length := hrest ▸ step_length hfound
      have hmore : Scanner.run { s' with previous := previous } = s'.run :=
        run_previous hpending (houtside ▸ h) previous
      exact congrArg _ hmore
    | some t =>
      obtain ⟨p, rest, -, hpass⟩ := step_eq_ok.1 hfound
      have hprevious : s'.previous = some t := pass_previous hpass
      have hsame : { s' with previous := some t } = s' := by rw [← hprevious]
      exact congrArg _ (congrArg Scanner.run hsame)
termination_by s.rest.length

/-! ## Heredocs and what follows them -/

theorem toList_writeAll (bs : List Block) :
    (Block.writeAll bs).toList = headerLine bs ++ '\n' :: bs.flatMap (·.text.toList) := by
  simp [Block.writeAll, headerLine, String.toList_intercalate, String.toList_join, List.flatMap_map,
    Function.comp_def]

theorem headerLine_unbroken {bs : List Block} (h : ∀ b ∈ bs, b.WellFormed) :
    '\n' ∉ headerLine bs := by
  have hopening : ∀ b ∈ bs, '\n' ∉ b.opening.toList := by
    intro b hb
    simpa [Block.toList_opening] using (h b hb).tag_unbroken
  clear h
  induction bs with
  | nil => simp [headerLine]
  | cons b bs ih =>
    have hb := hopening b (by simp)
    have hbs := ih fun c hc => hopening c (by simp [hc])
    cases bs with
    | nil => simpa [headerLine] using hb
    | cons c cs => simp_all [headerLine]

/-- Behind whole lines a cursor stands at the start of a line again. -/
theorem past_ended (d l : Nat) (lines : List (List Char)) :
    (Cursor.start.shift d l).past (ended lines) =
      Cursor.start.shift (d + (ended lines).length) (l + (ended lines).count '\n') := by
  induction lines generalizing d l with
  | nil => rfl
  | cons line lines ih =>
    have hstart : ((Cursor.start.shift d l).past line).next '\n' =
        Cursor.start.shift (d + line.length + 1) (l + line.count '\n' + 1) := by
      rw [next_newline, Cursor.past_offset, Cursor.past_line]
      simp [Cursor.start, Cursor.shift]
      omega
    rw [ended_cons, Cursor.past_append, Cursor.past_cons, hstart, ih]
    simp only [List.length_append, List.length_cons, List.count_append, List.count_cons_self]
    congr 1 <;> omega

theorem text_eq_ended (bs : List Block) :
    bs.flatMap (·.text.toList) =
      ended (bs.flatMap fun b => b.lines.map String.toList ++ [b.tag.toList]) := by
  induction bs with
  | nil => rfl
  | cons b bs ih => rw [List.flatMap_cons, List.flatMap_cons, ended_append, ih, Block.toList_text]

/-- Heredocs are read as the tokens of their headers, and the scanner then stands at the start of the
line after them. -/
theorem reads_blocks {bs : List Block} (h : ∀ b ∈ bs, b.WellFormed) (rest : List Char) :
    ∃ previous, Reads (start ((Block.writeAll bs).toList ++ rest)) (headerTokens 0 bs)
      ⟨rest, Cursor.start.shift (Block.writeAll bs).toList.length
        ((Block.writeAll bs).toList.count '\n'), [], previous⟩ := by
  obtain ⟨waiting, previous, hheaders, htags⟩ := reads_headerLine h 0
    ('\n' :: (bs.flatMap (·.text.toList) ++ rest)) [] none
  rw [Nat.zero_add] at hheaders
  have hbodies := passBodies_blocks h htags
    ((Cursor.mk (headerLine bs).length 1 0).next '\n') rest
  have hnewline := hheaders.trans
    (.step (t := none) .newline (pass_newline_eq_ok.2 ⟨_, _, hbodies, rfl, rfl⟩) .refl)
  have hcursor : ((Cursor.mk (headerLine bs).length 1 0).next '\n').past
      (bs.flatMap (·.text.toList)) = Cursor.start.shift (Block.writeAll bs).toList.length
        ((Block.writeAll bs).toList.count '\n') := by
    have hnone := List.count_eq_zero.2 (headerLine_unbroken h)
    rw [next_newline, text_eq_ended, past_ended, ← text_eq_ended, toList_writeAll, List.count_append,
      hnone, List.length_append, List.length_cons, List.count_cons_self]
    simp only
    congr 1 <;> omega
  have htext : (Block.writeAll bs).toList ++ rest =
      headerLine bs ++ '\n' :: (bs.flatMap (·.text.toList) ++ rest) := by
    simp [toList_writeAll]
  rw [hcursor, Option.toList_none, List.append_nil, List.append_nil] at hnewline
  exact ⟨previous, htext ▸ hnewline⟩

/-- **Heredocs are opaque and passed in the order of their headers.** Behind the headers of any
number of heredocs on one line, and their bodies after it, a text scans as it does alone, so many
characters and lines further on; before its tokens stand those of the headers. If the text does not
scan, neither does the whole, for the same cause in the same column so many lines further on. A
slash that starts the text would divide after a header, and so none may. -/
theorem scan_blocks {bs : List Block} (h : ∀ b ∈ bs, b.WellFormed) {rest : String}
    (hrest : firstOutside rest.toList ≠ some '/') :
    Scan.ofText (Block.writeAll bs ++ rest) =
      match Scan.ofText rest with
      | .ok scan =>
        let further := scan.shift (Block.writeAll bs).toList.length
          ((Block.writeAll bs).toList.count '\n')
        .ok { further with tokens := headerTokens 0 bs ++ further.tokens }
      | .error e => .error (e.shift ((Block.writeAll bs).toList.count '\n')) := by
  obtain ⟨previous, hreads⟩ := reads_blocks h rest.toList
  have hprevious := run_previous (s := ⟨rest.toList, Cursor.start.shift
    (Block.writeAll bs).toList.length ((Block.writeAll bs).toList.count '\n'), [], none⟩) rfl hrest
    previous
  have hmoved : Moved (Block.writeAll bs).toList.length ((Block.writeAll bs).toList.count '\n')
      (start rest.toList) ⟨rest.toList, Cursor.start.shift (Block.writeAll bs).toList.length
        ((Block.writeAll bs).toList.count '\n'), [], none⟩ := ⟨rfl, rfl, rfl⟩
  rw [Scan.ofText, Scan.ofText, String.toList_append, hreads.run, hprevious, hmoved.run rfl]
  cases (start rest.toList).run <;> rfl

/-- Two heredocs with quotes, brackets, comments, a header and each other's tag in their lines. -/
def entangled : List Block :=
  [⟨"A", ["it's [", "# @(C)", "B", "| - A b"]⟩, ⟨"|B", ["A", "B", "\"$\x7b /*"]⟩]

/-- The scan of a text that divides. -/
def dividedScan : Scan :=
  ⟨[⟨.variable, "$a", ⟨5, 2, 2⟩, 7⟩, ⟨.operator .slash, "/", ⟨8, 2, 5⟩, 9⟩,
    ⟨.number, "2", ⟨10, 2, 7⟩, 11⟩], ⟨11, 2, 8⟩⟩

/-- The text that divides starts 51 characters and 10 lines further on after the two heredocs. -/
theorem entangled_scan :
    (∀ b ∈ entangled, b.WellFormed) ∧ firstOutside "# /\n $a / 2".toList ≠ some '/' ∧
    Scan.ofText "# /\n $a / 2" = .ok dividedScan ∧
    Scan.ofText (Block.writeAll entangled ++ "# /\n $a / 2") =
      .ok ⟨[⟨.heredoc, "@(A)", ⟨0, 1, 1⟩, 4⟩, ⟨.heredoc, "@(|B)", ⟨5, 1, 6⟩, 10⟩] ++
        (dividedScan.shift 51 10).tokens, ⟨62, 12, 8⟩⟩ := by
  have hformed : ∀ b ∈ entangled, b.WellFormed := by decide +kernel
  have houtside : firstOutside "# /\n $a / 2".toList ≠ some '/' := by
    simp [firstOutside, isGap]
  have halone : Scan.ofText "# /\n $a / 2" = .ok dividedScan := by decide +kernel
  have hlength : (Block.writeAll entangled).toList.length = 51 := by decide +kernel
  have hlines : (Block.writeAll entangled).toList.count '\n' = 10 := by decide +kernel
  have hwhole := scan_blocks hformed houtside
  rw [halone, hlength, hlines] at hwhole
  exact ⟨hformed, houtside, halone, hwhole⟩

end ManifestDocs.Scanner
