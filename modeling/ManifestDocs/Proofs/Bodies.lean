/-
The bodies of heredocs, as they are written. `EndsBody` says which line ends a body: the tag with an
indent, the marks `|` and `-` before it, and blanks after it, each of them optional. A body
(`IsBody`) is made of lines that do not end it and one that does, and `Bodies` puts the bodies of
several headers side by side, each at the start of a line. This is what scanning passes over.
-/
import ManifestDocs.Proofs.Seam

namespace ManifestDocs.Heredoc

open ManifestDocs.Text ManifestDocs.Lexeme

/-! ## The line that ends a body -/

/-- Nothing but spaces and tabs. -/
def IsIndent (cs : List Char) : Prop :=
  ∀ c ∈ cs, isIndent c = true

/-- A mark with the indent after it, or nothing. -/
inductive IsMark (mark : Char) : List Char → Prop
  | absent : IsMark mark []
  | present {indent : List Char} (h : IsIndent indent) : IsMark mark (mark :: indent)

/-- The line ends the body of a heredoc with this tag. -/
inductive EndsBody (tag : List Char) : List Char → Prop
  | mk {indent bar dash after ending : List Char} (hindent : IsIndent indent)
      (hbar : IsMark '|' bar) (hdash : IsMark '-' dash) (hafter : IsIndent after)
      (hending : ending = [] ∨ ending = ['\r']) :
      EndsBody tag (indent ++ (bar ++ (dash ++ (tag ++ (after ++ ending)))))

theorem dropWhile_indent {indent : List Char} (h : IsIndent indent) (cs : List Char) :
    (indent ++ cs).dropWhile isIndent = cs.dropWhile isIndent :=
  List.dropWhile_append_of_pos h

theorem isIndent_takeWhile (cs : List Char) : IsIndent (cs.takeWhile isIndent) :=
  fun _ hc => List.mem_takeWhile_imp hc

/-- Leaving out the marks before `l` leaves `l`, up to an indent that it starts with. -/
theorem mem_afterMarks {indent bar dash : List Char} (hindent : IsIndent indent)
    (hbar : IsMark '|' bar) (hdash : IsMark '-' dash) (l : List Char) :
    l.dropWhile isIndent ∈ afterMarks (indent ++ (bar ++ (dash ++ l))) := by
  have hdropBar (cs : List Char) : ('|' :: cs).dropWhile isIndent = '|' :: cs := rfl
  have hdropDash (cs : List Char) : ('-' :: cs).dropWhile isIndent = '-' :: cs := rfl
  rw [afterMarks, dropWhile_indent hindent]
  cases hbar with
  | absent =>
    cases hdash with
    | absent => simp
    | present h => simp [hdropDash, afterMark, dropWhile_indent h]
  | present h =>
    cases hdash with
    | absent => simp [hdropBar, afterMark, dropWhile_indent h]
    | present h' => simp [hdropBar, hdropDash, afterMark, dropWhile_indent h, dropWhile_indent h']

theorem afterMark_eq_some {mark : Char} {line l : List Char} (h : afterMark mark line = some l) :
    ∃ marks, IsMark mark marks ∧ line = marks ++ l := by
  cases line with
  | nil => cases h
  | cons c cs =>
    rw [afterMark] at h
    split at h
    · next hc =>
      cases h
      refine ⟨c :: cs.takeWhile isIndent, hc ▸ .present (isIndent_takeWhile cs), ?_⟩
      rw [List.cons_append, List.takeWhile_append_dropWhile]
    · cases h

theorem of_mem_afterMarks {line l : List Char} (h : l ∈ afterMarks line) :
    ∃ indent bar dash, IsIndent indent ∧ IsMark '|' bar ∧ IsMark '-' dash ∧
      line = indent ++ (bar ++ (dash ++ l)) := by
  have hsplit : line.takeWhile isIndent ++ line.dropWhile isIndent = line :=
    List.takeWhile_append_dropWhile
  -- what is left of the line after its indent and perhaps a bar
  have hbars : ∀ l', l' ∈ line.dropWhile isIndent ::
      (afterMark '|' (line.dropWhile isIndent)).toList →
      ∃ bar, IsMark '|' bar ∧ line = line.takeWhile isIndent ++ (bar ++ l') := by
    intro l' hl'
    rcases List.mem_cons.1 hl' with rfl | hl'
    · exact ⟨[], .absent, hsplit.symm⟩
    · obtain ⟨bar, hbar, he⟩ := afterMark_eq_some (Option.mem_toList.1 hl')
      exact ⟨bar, hbar, by rw [← he, hsplit]⟩
  rw [afterMarks] at h
  rcases List.mem_append.1 h with h | h
  · obtain ⟨bar, hbar, he⟩ := hbars l h
    exact ⟨_, bar, [], isIndent_takeWhile line, hbar, .absent, he⟩
  · obtain ⟨l', hl', hmark⟩ := List.mem_filterMap.1 h
    obtain ⟨bar, hbar, he⟩ := hbars l' hl'
    obtain ⟨dash, hdash, rfl⟩ := afterMark_eq_some hmark
    exact ⟨_, bar, dash, isIndent_takeWhile line, hbar, hdash, he⟩

theorem isLineEnd_iff {cs : List Char} :
    isLineEnd cs = true ↔
      ∃ after ending, IsIndent after ∧ (ending = [] ∨ ending = ['\r']) ∧ cs = after ++ ending := by
  simp only [isLineEnd, Bool.or_eq_true, beq_iff_eq]
  constructor
  · intro h
    exact ⟨cs.takeWhile isIndent, cs.dropWhile isIndent, isIndent_takeWhile cs, h,
      List.takeWhile_append_dropWhile.symm⟩
  · rintro ⟨after, ending, hafter, hending, rfl⟩
    rw [dropWhile_indent hafter]
    rcases hending with rfl | rfl
    · exact .inl rfl
    · exact .inr rfl

/-- A tag that does not start with a space or a tab, as no tag of a header does. -/
def Unindented (tag : List Char) : Prop :=
  ∀ c ∈ tag.head?, isIndent c = false

/-- **Which line ends a body.** -/
theorem isEndLine_iff {tag line : List Char} (htag : Unindented tag) :
    isEndLine tag line = true ↔ EndsBody tag line := by
  simp only [isEndLine, List.any_eq_true, Bool.and_eq_true, List.isPrefixOf_iff_prefix]
  constructor
  · rintro ⟨l, hl, ⟨tail, rfl⟩, hend⟩
    obtain ⟨indent, bar, dash, hindent, hbar, hdash, rfl⟩ := of_mem_afterMarks hl
    rw [List.drop_left] at hend
    obtain ⟨after, ending, hafter, hending, rfl⟩ := isLineEnd_iff.1 hend
    exact .mk hindent hbar hdash hafter hending
  · rintro ⟨hindent, hbar, hdash, hafter, hending⟩
    refine ⟨_, mem_afterMarks hindent hbar hdash _, ?_⟩
    cases tag with
    | nil =>
      refine ⟨List.nil_prefix, ?_⟩
      rw [List.nil_append, List.length_nil, List.drop_zero, dropWhile_indent hafter]
      rcases hending with rfl | rfl <;> rfl
    | cons c cs =>
      have hc : isIndent c = false := htag c rfl
      rw [List.cons_append, List.dropWhile_cons_of_neg (by simp [hc]), ← List.cons_append]
      refine ⟨List.prefix_append _ _, ?_⟩
      rw [List.drop_left]
      exact isLineEnd_iff.2 ⟨_, _, hafter, hending, rfl⟩

/-! ## Bodies -/

/-- `IsBody tag body rest`: where a line starts, `body` is the body of a heredoc with this tag and
`rest` follows it. It reaches through the first line that ends it, with the line break of that line
unless the text ends there. -/
inductive IsBody (tag : List Char) : List Char → List Char → Prop
  | last {line : List Char} (unbroken : '\n' ∉ line) (ends : EndsBody tag line) : IsBody tag line []
  | closed {line rest : List Char} (unbroken : '\n' ∉ line) (ends : EndsBody tag line) :
      IsBody tag (line ++ ['\n']) rest
  | line {line body rest : List Char} (unbroken : '\n' ∉ line) (goesOn : ¬ EndsBody tag line)
      (more : IsBody tag body rest) : IsBody tag (line ++ '\n' :: body) rest

theorem isBody_of_body {tag cs b rest : List Char} (htag : Unindented tag)
    (h : body tag cs = some (b, rest)) : IsBody tag b rest := by
  induction cs using lines_induction generalizing b with
  | last line hline =>
    rw [body_lastLine hline] at h
    split at h
    · next hend =>
      cases h
      exact .last hline ((isEndLine_iff htag).1 hend)
    · cases h
  | line line rest' hline ih =>
    rw [body_line hline] at h
    split at h
    · next hend =>
      cases h
      exact .closed hline ((isEndLine_iff htag).1 hend)
    · next hend =>
      obtain ⟨⟨b', rest₁⟩, hfound, he⟩ := Option.map_eq_some_iff.1 h
      cases he
      rw [List.append_assoc]
      exact .line hline (fun hends => hend ((isEndLine_iff htag).2 hends)) (ih hfound)

/-- `Bodies tags bodies rest`: the bodies of heredocs with these tags, in order, where `rest`
follows. Each starts a line. -/
inductive Bodies : List (List Char) → List Char → List Char → Prop
  | nil {rest : List Char} : Bodies [] [] rest
  | cons {tag b bodies rest : List Char} {tags : List (List Char)}
      (h : IsBody tag b (bodies ++ rest)) (next : tags ≠ [] → endsLine b = true)
      (more : Bodies tags bodies rest) : Bodies (tag :: tags) (b ++ bodies) rest

/-! ## The tag of a header -/

theorem isBlank_of_isIndent {c : Char} (h : isIndent c = true) : isBlank c = true := by
  simp only [isIndent, Bool.or_eq_true, beq_iff_eq] at h
  rcases h with rfl | rfl <;> decide

theorem head?_trim {cs : List Char} {c : Char} (h : (trim cs).head? = some c) :
    isBlank c = false := by
  -- the end is trimmed last, which leaves the first character if it leaves any
  have hprefix : trim cs <+: trimStart cs := by
    rw [trim, trimEnd, ← List.reverse_suffix, List.reverse_reverse]
    exact List.dropWhile_suffix _
  obtain ⟨more, hmore⟩ := List.head?_eq_some_iff.1 h
  obtain ⟨tail, htail⟩ := hprefix
  rw [hmore, List.cons_append] at htail
  by_contra hblank
  rw [Bool.not_eq_false] at hblank
  have hhead := List.head?_dropWhile_not isBlank cs
  rw [← trimStart, ← htail] at hhead
  simp [hblank] at hhead

theorem unindented_trim (cs : List Char) : Unindented (trim cs) := by
  intro c hc
  rw [← Bool.not_eq_true]
  intro hindent
  have hblank := head?_trim hc
  rw [isBlank_of_isIndent hindent] at hblank
  cases hblank

/-- The tag of a header does not start with a space or a tab. -/
theorem unindented_of_header {cs tag : List Char} {s : Split} (h : header cs = some (tag, s)) :
    Unindented tag := by
  obtain ⟨inner, rfl⟩ : ∃ inner, tag = trim inner := by
    unfold header at h
    split at h
    · dsimp only at h
      split at h <;>
      · obtain ⟨⟨inner, split⟩, -, he⟩ := Option.map_eq_some_iff.1 h
        cases he
        exact ⟨inner, rfl⟩
    · cases h
  exact unindented_trim inner

end ManifestDocs.Heredoc

namespace ManifestDocs.Scanner

open ManifestDocs.Heredoc

/-- What is passed for pending heredocs is their bodies. -/
theorem bodies_of_passBodies {lineStart : Bool} {cursor cursor' : Cursor} {cs rest : List Char}
    {pending : List Pending} (htags : ∀ p ∈ pending, Unindented p.tag)
    (h : passBodies lineStart cursor cs pending = .ok (cursor', rest)) :
    ∃ bodies, cs = bodies ++ rest ∧ Bodies (pending.map (·.tag)) bodies rest := by
  induction pending generalizing lineStart cursor cs with
  | nil =>
    cases h
    exact ⟨[], rfl, .nil⟩
  | cons p ps ih =>
    cases lineStart with
    | false => cases h
    | true =>
      simp only [passBodies, if_true] at h
      split at h
      · cases h
      · next b after hbody =>
        obtain ⟨bodies, hafter, hbodies⟩ := ih (fun q hq => htags q (by simp [hq])) h
        have hb : IsBody p.tag b (bodies ++ rest) :=
          hafter ▸ isBody_of_body (htags p (by simp)) hbody
        have hnext : ps.map (·.tag) ≠ [] → endsLine b = true := by
          intro hne
          by_contra hline
          rw [Bool.not_eq_true] at hline
          rw [hline] at h
          cases ps with
          | nil => exact hne rfl
          | cons q qs => cases h
        refine ⟨b ++ bodies, ?_, .cons hb hnext hbodies⟩
        rw [List.append_assoc, ← hafter]
        exact (whole_of_body hbody).symm

end ManifestDocs.Scanner
