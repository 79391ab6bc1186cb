/-
A heredoc header is told by its own characters: it is found with the same tag whatever follows its
closing parenthesis (`header_found`). The header is read as runs of characters one after the other,
each of which stops at the same character again, because the next part of the header starts there.
-/
import ManifestDocs.Proofs.Lexemes

namespace ManifestDocs.Heredoc

open ManifestDocs.Text ManifestDocs.Lexeme

/-- The reading `f` splits `s` off `cs`, a lexeme with a mark at its end: nothing is lost, it is not
empty, and it is found whatever follows. -/
structure Marked (f : List Char → Option Split) (cs : List Char) (s : Split) : Prop where
  whole : s.whole = cs
  ne_nil : s.1 ≠ []
  found : ∀ rest, f (s.1 ++ rest) = some (s.1, rest)

/-- A run of characters stops where it did if the next character is still the same. -/
theorem run_replace {p : Char → Bool} {cs xs : List Char} {x : Char}
    (h : (run p cs).2 = x :: xs) (ys : List Char) :
    run p ((run p cs).1 ++ x :: ys) = ((run p cs).1, x :: ys) := by
  have hx : p x = false := by
    have hhead := List.head?_dropWhile_not p cs
    rw [show cs.dropWhile p = x :: xs from h] at hhead
    simpa using hhead
  have hall : ∀ c ∈ cs.takeWhile p, p c = true := List.all_eq_true.1 List.all_takeWhile
  simp only [run]
  rw [List.takeWhile_append_of_pos hall, List.dropWhile_append_of_pos hall]
  simp [hx]

/-- A run before a lexeme with a mark is found again with it. -/
theorem Marked.run_eq {g : List Char → Option Split} {p : Char → Bool} {cs : List Char} {t : Split}
    (h : Marked g (run p cs).2 t) (rest : List Char) :
    run p ((run p cs).1 ++ (t.1 ++ rest)) = ((run p cs).1, t.1 ++ rest) := by
  obtain ⟨x, xs, hx⟩ := List.exists_cons_of_ne_nil h.ne_nil
  have hnext : (run p cs).2 = x :: (xs ++ t.2) := by
    rw [← h.whole, Split.whole, hx, List.cons_append]
  rw [hx, List.cons_append]
  exact run_replace hnext (xs ++ rest)

/-- A lexeme with a mark, and a run of characters before it. -/
theorem Marked.afterRun {g : List Char → Option Split} {p : Char → Bool} {cs : List Char} {s : Split}
    (hg : ∀ {ds : List Char} {t : Split}, g ds = some t → Marked g ds t)
    (h : (run p cs).andThen? g = some s) : Marked (fun cs => (run p cs).andThen? g) cs s := by
  obtain ⟨t, ht, rfl⟩ := Option.map_eq_some_iff.1 h
  have hmarked := hg ht
  refine ⟨?_, by simp [Split.extend, hmarked.ne_nil], fun rest => ?_⟩
  · rw [Split.whole_extend, hmarked.whole]
    exact whole_run p cs
  · rw [Split.extend, List.append_assoc, Split.andThen?, hmarked.run_eq, hmarked.found]
    rfl

/-- A lexeme with a mark, and fixed characters before it. -/
theorem Marked.extend {f g : List Char → Option Split} {front cs : List Char} {t : Split}
    (h : Marked g cs t) (hf : ∀ ds, f (front ++ ds) = (g ds).map (Split.extend front)) :
    Marked f (front ++ cs) (t.extend front) := by
  refine ⟨by rw [Split.whole_extend, h.whole], by simp [Split.extend, h.ne_nil], fun rest => ?_⟩
  rw [Split.extend, List.append_assoc, hf, h.found]
  rfl

/-! ## The end of a header -/

@[simp] theorem extend_fst (front : List Char) (s : Split) : (s.extend front).1 = front ++ s.1 := rfl

@[simp] theorem extend_snd (front : List Char) (s : Split) : (s.extend front).2 = s.2 := rfl

@[simp] theorem extend_comp_extend (front front' : List Char) :
    Split.extend front ∘ Split.extend front' = Split.extend (front ++ front') := by
  funext s
  simp [Split.extend]

theorem map_extend_nil (found : Option Split) : found.map (Split.extend []) = found := by
  cases found <;> rfl

/-- The closing parenthesis of a header. -/
def parenthesis : List Char → Option Split
  | ')' :: rest => some ([')'], rest)
  | _ => none

theorem parenthesis_marked {cs : List Char} {s : Split} (h : parenthesis cs = some s) :
    Marked parenthesis cs s := by
  unfold parenthesis at h
  split at h
  · cases h
    exact ⟨rfl, by simp, fun rest => rfl⟩
  · cases h

/-- The escapes after their slash, through the closing parenthesis. -/
def afterSlash (cs : List Char) : Option Split :=
  (run isBlank cs).andThen? fun cs =>
    (run isEscapeChar cs).andThen? fun cs => (run isBlank cs).andThen? parenthesis

theorem afterSlash_marked {cs : List Char} {s : Split} (h : afterSlash cs = some s) :
    Marked afterSlash cs s :=
  .afterRun (.afterRun (.afterRun parenthesis_marked)) h

theorem closing_eq (cs : List Char) : closing cs = (escapes cs).andThen? parenthesis := by
  rw [closing]
  congr 1

theorem closing_slash (cs : List Char) :
    closing (['/'] ++ cs) = (afterSlash cs).map (Split.extend ['/']) := by
  simp [closing_eq, escapes, afterSlash, Split.andThen, Split.andThen?]

theorem closing_plain {cs : List Char} (h : ∀ ds, cs ≠ '/' :: ds) :
    closing cs = parenthesis cs := by
  rw [closing_eq, escapes]
  · exact map_extend_nil _
  · exact fun ds he => h ds he

theorem closing_marked {cs : List Char} {s : Split} (h : closing cs = some s) :
    Marked closing cs s := by
  by_cases hslash : ∃ ds, cs = '/' :: ds
  · obtain ⟨ds, rfl⟩ := hslash
    obtain ⟨t, ht, rfl⟩ := Option.map_eq_some_iff.1 ((closing_slash ds).symm.trans h)
    exact (afterSlash_marked ht).extend closing_slash
  · have hplain : ∀ ds, cs ≠ '/' :: ds := fun ds he => hslash ⟨ds, he⟩
    rw [closing_plain hplain] at h
    have hmarked := parenthesis_marked h
    refine ⟨hmarked.whole, hmarked.ne_nil, fun rest => ?_⟩
    have hfound := hmarked.found rest
    rw [closing_plain, hfound]
    intro ds he
    rw [he] at hfound
    cases hfound

/-- The name of a syntax checker, through the closing parenthesis. -/
def afterColon (cs : List Char) : Option Split :=
  if (run isCheckerChar cs).1.isEmpty then none
  else (run isCheckerChar cs).andThen? fun cs => (run isBlank cs).andThen? closing

theorem afterColon_marked {cs : List Char} {s : Split} (h : afterColon cs = some s) :
    Marked afterColon cs s := by
  unfold afterColon at h
  split at h
  · cases h
  · next hname =>
    have hmarked := Marked.afterRun (Marked.afterRun closing_marked) h
    refine ⟨hmarked.whole, hmarked.ne_nil, fun rest => ?_⟩
    obtain ⟨t, ht, rfl⟩ := Option.map_eq_some_iff.1 h
    have hrun := (Marked.afterRun closing_marked ht).run_eq (p := isCheckerChar) rest
    have hfound := hmarked.found rest
    rw [Split.extend, List.append_assoc] at hfound ⊢
    rw [afterColon, hrun, if_neg hname]
    rw [hrun] at hfound
    exact hfound

/-- A syntax checker, if there is one, and what follows it. -/
def checkerEnd (cs : List Char) : Option Split :=
  (checker cs).bind (·.andThen? closing)

theorem checkerEnd_colon (cs : List Char) :
    checkerEnd ([':'] ++ cs) =
      ((run isBlank cs).andThen? afterColon).map (Split.extend [':']) := by
  simp only [checkerEnd, List.singleton_append, checker, checkerName, afterColon, Split.andThen?]
  by_cases hname : (run isCheckerChar (run isBlank cs).2).1.isEmpty = true
  · simp [hname]
  · simp [Split.andThen, hname]

theorem checkerEnd_plain {cs : List Char} (h : ∀ ds, cs ≠ ':' :: ds) :
    checkerEnd cs = closing cs := by
  rw [checkerEnd, checker]
  · exact map_extend_nil _
  · exact fun ds he => h ds he

theorem checkerEnd_marked {cs : List Char} {s : Split} (h : checkerEnd cs = some s) :
    Marked checkerEnd cs s := by
  by_cases hcolon : ∃ ds, cs = ':' :: ds
  · obtain ⟨ds, rfl⟩ := hcolon
    obtain ⟨t, ht, rfl⟩ := Option.map_eq_some_iff.1 ((checkerEnd_colon ds).symm.trans h)
    exact (Marked.afterRun afterColon_marked ht).extend checkerEnd_colon
  · have hplain : ∀ ds, cs ≠ ':' :: ds := fun ds he => hcolon ⟨ds, he⟩
    rw [checkerEnd_plain hplain] at h
    have hmarked := closing_marked h
    refine ⟨hmarked.whole, hmarked.ne_nil, fun rest => ?_⟩
    rw [checkerEnd_plain, hmarked.found rest]
    -- the lexeme starts as the text did, so no colon can stand there
    intro ds he
    obtain ⟨x, xs, hx⟩ := List.exists_cons_of_ne_nil hmarked.ne_nil
    rw [hx] at he
    cases he
    refine hplain (xs ++ s.2) ?_
    rw [← hmarked.whole, Split.whole, hx, List.cons_append]

theorem headerEnd_eq (cs : List Char) :
    headerEnd cs = (run isBlank cs).andThen? checkerEnd := by
  simp only [headerEnd, Split.andThen?, checkerEnd]
  cases checker (run isBlank cs).2 with
  | none => rfl
  | some u => simp

theorem headerEnd_marked {cs : List Char} {s : Split} (h : headerEnd cs = some s) :
    Marked headerEnd cs s := by
  have hmarked := Marked.afterRun checkerEnd_marked (headerEnd_eq cs ▸ h)
  exact ⟨hmarked.whole, hmarked.ne_nil, fun rest => by rw [headerEnd_eq]; exact hmarked.found rest⟩

/-! ## The whole header -/

theorem quotedTag_found {cs tag : List Char} {s : Split} (h : quotedTag cs = some (tag, s))
    (rest : List Char) : quotedTag (s.1 ++ rest) = some (tag, s.1, rest) := by
  unfold quotedTag at h
  dsimp only at h
  split at h
  · cases h
  · next htag =>
    split at h
    · next after hquote =>
      obtain ⟨last, hlast, h⟩ := Option.map_eq_some_iff.1 h
      cases h
      have hrun := run_replace hquote (last.1 ++ rest)
      rw [extend_fst, List.append_assoc, List.append_assoc, List.singleton_append]
      simp only [quotedTag, hrun, htag, (headerEnd_marked hlast).found rest]
      simp [Split.extend]
    · cases h

theorem plainTag_found {gap cs tag : List Char} {s : Split} (h : plainTag gap cs = some (tag, s)) :
    s.1 ≠ [] ∧ ∀ rest, plainTag gap (s.1 ++ rest) = some (tag, s.1, rest) := by
  unfold plainTag at h
  dsimp only at h
  split at h
  · cases h
  · next htag =>
    obtain ⟨t, ht, h⟩ := Option.map_eq_some_iff.1 h
    cases h
    obtain ⟨last, hlast, rfl⟩ := Option.map_eq_some_iff.1 ht
    have hmarked := headerEnd_marked hlast
    refine ⟨by simp [hmarked.ne_nil], fun rest => ?_⟩
    rw [extend_fst, List.append_assoc]
    simp only [plainTag, hmarked.run_eq rest, htag, Split.andThen?, hmarked.found rest]
    simp [Split.extend]

/-- **A header is told by its own characters**: whatever follows it, it is found with its tag. -/
theorem header_found {cs tag : List Char} {s : Split} (h : header cs = some (tag, s))
    (rest : List Char) : header (s.1 ++ rest) = some (tag, s.1, rest) := by
  unfold header at h
  split at h
  · next cs =>
    dsimp only at h
    split at h
    · next after hquote =>
      obtain ⟨⟨tag', t⟩, ht, h⟩ := Option.map_eq_some_iff.1 h
      cases h
      have hrun := run_replace hquote (t.1 ++ rest)
      simp only [extend_fst, List.cons_append, List.append_assoc, List.nil_append, header, hrun,
        quotedTag_found ht rest]
      simp [Split.extend]
    · next hplain =>
      obtain ⟨⟨tag', t⟩, ht, h⟩ := Option.map_eq_some_iff.1 h
      cases h
      obtain ⟨hne, hfound⟩ := plainTag_found ht
      obtain ⟨x, xs, hx⟩ := List.exists_cons_of_ne_nil hne
      have hgap : (run isBlank cs).2 = x :: (xs ++ t.2) := by
        rw [← whole_of_plainTag ht, Split.whole, hx, List.cons_append]
      have hrun := run_replace hgap (xs ++ rest)
      have hfound' := hfound rest
      rw [hx, List.cons_append] at hfound'
      have hquote : x ≠ '"' := by
        rintro rfl
        exact hplain _ hgap
      simp only [extend_fst, List.cons_append, List.append_assoc, hx, header, hrun]
      split
      · next he => cases he; exact absurd rfl hquote
      · simp [hfound', Split.extend]
  · cases h

end ManifestDocs.Heredoc
