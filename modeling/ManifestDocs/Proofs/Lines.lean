/-
The lines of a text. `LineAt` says where the line with a number stands: as many line breaks come
before it as its number says, it has none, and the text ends or a line break follows.
`LineAt.getElem?` and `lineAt_of_getElem?` say that these are the lines that a listing numbers,
except that nothing after the last line break is no line. A character that is no line break stands
on the line that its place says.
-/
import ManifestDocs.Listing
import ManifestDocs.Proofs.Places
import ManifestDocs.Proofs.Seam

namespace ManifestDocs.Listing

open ManifestDocs.Heredoc (lines_induction)

/-! ## Splitting -/

theorem splitLines_line {line : List Char} (h : '\n' ∉ line) (rest : List Char) :
    splitLines (line ++ '\n' :: rest) = line :: splitLines rest := by
  have hsplit : (line ++ '\n' :: rest).splitOn '\n' = line :: rest.splitOn '\n' :=
    List.splitOn_append_cons_self_of_not_mem h rest
  obtain ⟨x, xs, hrest⟩ := List.exists_cons_of_ne_nil (List.splitOn_ne_nil '\n' rest)
  simp only [splitLines, hsplit, hrest, List.getLast?_cons_cons, List.dropLast_cons_cons]
  split <;> rfl

theorem splitLines_last {line : List Char} (h : '\n' ∉ line) :
    splitLines line = if line = [] then [] else [line] := by
  have hsplit : line.splitOn '\n' = [line] := List.splitOn_eq_singleton h
  simp [splitLines, hsplit]

/-- Lines with their line breaks, as they stand in a text. -/
def ended (lines : List (List Char)) : List Char :=
  lines.flatMap (· ++ ['\n'])

@[simp] theorem ended_nil : ended [] = [] := rfl

@[simp] theorem ended_cons (line : List Char) (lines : List (List Char)) :
    ended (line :: lines) = line ++ '\n' :: ended lines := by
  simp [ended]

theorem ended_append (lines lines' : List (List Char)) :
    ended (lines ++ lines') = ended lines ++ ended lines' :=
  List.flatMap_append

theorem splitLines_ended {lines : List (List Char)} (h : ∀ l ∈ lines, '\n' ∉ l)
    (rest : List Char) : splitLines (ended lines ++ rest) = lines ++ splitLines rest := by
  induction lines with
  | nil => rfl
  | cons l ls ih =>
    rw [ended_cons, List.append_assoc, List.cons_append, splitLines_line (h l (by simp)),
      ih fun l' hl' => h l' (by simp [hl']), List.cons_append]

theorem count_ended {lines : List (List Char)} (h : ∀ l ∈ lines, '\n' ∉ l) :
    (ended lines).count '\n' = lines.length := by
  induction lines with
  | nil => rfl
  | cons l ls ih =>
    have hl := List.count_eq_zero.2 (h l (by simp))
    have hls := ih fun l' hl' => h l' (by simp [hl'])
    simp only [ended_cons, List.count_append, List.count_cons_self, List.length_cons, hl, hls]
    omega

/-! ## Where a line stands -/

/-- The text is empty or ends with a line break, so that a line starts after it. -/
def EndsLine (before : List Char) : Prop :=
  before = [] ∨ before.getLast? = some '\n'

/-- `LineAt text n before line after`: the line with number `n` of the text is `line`, and it stands
between `before` and `after`. -/
structure LineAt (text : List Char) (n : Nat) (before line after : List Char) : Prop where
  whole : text = before ++ (line ++ after)
  number : n = 1 + before.count '\n'
  starts : EndsLine before
  unbroken : '\n' ∉ line
  ends : after = [] ∨ after.head? = some '\n'

theorem EndsLine.eq_ended {before : List Char} (h : EndsLine before) :
    ∃ lines, before = ended lines ∧ ∀ l ∈ lines, '\n' ∉ l := by
  induction before using lines_induction with
  | last line hline =>
    rcases h with rfl | hlast
    · exact ⟨[], rfl, by simp⟩
    · exact absurd (List.mem_of_getLast? hlast) hline
  | line line rest hline ih =>
    have hrest : EndsLine rest := by
      rcases h with he | hlast
      · simp at he
      · cases rest with
        | nil => exact .inl rfl
        | cons c cs =>
          rw [List.getLast?_append] at hlast
          simp only [List.getLast?_cons_cons] at hlast
          exact .inr (by simpa [List.getLast?_cons] using hlast)
    obtain ⟨lines, rfl, hlines⟩ := ih hrest
    refine ⟨line :: lines, by rw [ended_cons], fun l hl => ?_⟩
    rcases List.mem_cons.1 hl with rfl | hl
    · exact hline
    · exact hlines l hl

/-- A line of a text is the line that a listing numbers so, unless nothing stands on it and the text
ends there. -/
theorem LineAt.getElem? {text before line after : List Char} {n : Nat}
    (h : LineAt text n before line after) (hne : line ≠ [] ∨ after ≠ []) :
    (splitLines text)[n - 1]? = some line := by
  obtain ⟨rfl, hnumber, hstarts, hline, hends⟩ := h
  obtain ⟨lines, rfl, hlines⟩ := hstarts.eq_ended
  have hindex : n - 1 = lines.length := by
    rw [hnumber, count_ended hlines]
    omega
  have hfirst : (splitLines (line ++ after))[0]? = some line := by
    cases after with
    | nil =>
      have hne : line ≠ [] := by simpa using hne
      rw [List.append_nil, splitLines_last hline, if_neg hne]
      rfl
    | cons c cs =>
      have hc : c = '\n' := by simpa using hends
      rw [hc, splitLines_line hline]
      rfl
  rw [splitLines_ended hlines, hindex, List.getElem?_append_right (Nat.le_refl _), Nat.sub_self,
    hfirst]

/-- Every line of a listing stands somewhere in the text. -/
theorem lineAt_of_getElem? {text line : List Char} {k : Nat}
    (h : (splitLines text)[k]? = some line) :
    ∃ before after, LineAt text (k + 1) before line after ∧ (line ≠ [] ∨ after ≠ []) := by
  induction text using lines_induction generalizing k with
  | last l hl =>
    rw [splitLines_last hl] at h
    split at h
    · cases h
    · next hne =>
      cases k with
      | zero =>
        cases h
        exact ⟨[], [], ⟨by simp, by simp, .inl rfl, hl, .inl rfl⟩, .inl hne⟩
      | succ k => simp at h
  | line l rest hl ih =>
    rw [splitLines_line hl] at h
    cases k with
    | zero =>
      cases h
      exact ⟨[], '\n' :: rest, ⟨by simp, by simp, .inl rfl, hl, .inr rfl⟩, .inr (by simp)⟩
    | succ k =>
      obtain ⟨before, after, ⟨hwhole, hnumber, hstarts, hline, hends⟩, hne⟩ := ih h
      refine ⟨l ++ '\n' :: before, after, ⟨?_, ?_, ?_, hline, hends⟩, hne⟩
      · rw [hwhole]
        simp
      · have hcount := List.count_eq_zero.2 hl
        simp only [List.count_append, List.count_cons_self, hcount]
        omega
      · right
        rcases hstarts with rfl | hlast
        · simp
        · simp [List.getLast?_append, List.getLast?_cons, hlast]

end ManifestDocs.Listing

namespace ManifestDocs.Scanner

open ManifestDocs.Listing

theorem endsLine_rdropWhile (before : List Char) : EndsLine (before.rdropWhile (· != '\n')) := by
  by_cases hne : before.rdropWhile (· != '\n') = []
  · exact .inl hne
  · have hlast := List.rdropWhile_last_not (· != '\n') before hne
    rw [Bool.not_eq_true, bne_eq_false_iff_eq] at hlast
    exact .inr (by rw [List.getLast?_eq_some_getLast hne, hlast])

/-- A character that is no line break stands on the line of its exact place. -/
theorem lineAt_placeAt {before after : List Char} {c : Char} (hc : c ≠ '\n') :
    LineAt (before ++ c :: after) (placeAt (before ++ c :: after) before.length).line
      (before.rdropWhile (· != '\n'))
      (before.rtakeWhile (· != '\n') ++ c :: after.takeWhile (· != '\n'))
      (after.dropWhile (· != '\n')) := by
  have hfront : before.rdropWhile (· != '\n') ++ before.rtakeWhile (· != '\n') = before :=
    List.rdropWhile_append_rtakeWhile
  have hback : after.takeWhile (· != '\n') ++ after.dropWhile (· != '\n') = after :=
    List.takeWhile_append_dropWhile
  have hunbroken : '\n' ∉ before.rtakeWhile (· != '\n') := by
    intro hmem
    simpa using List.mem_rtakeWhile_imp hmem
  refine ⟨?_, ?_, endsLine_rdropWhile before, ?_, ?_⟩
  · rw [List.append_assoc, List.cons_append, hback, ← List.append_assoc, hfront]
  · have hcount := congrArg (List.count '\n') hfront
    rw [List.count_append, List.count_eq_zero.2 hunbroken] at hcount
    simp only [placeAt, List.take_left]
    omega
  · rw [List.mem_append, List.mem_cons, not_or, not_or]
    refine ⟨hunbroken, Ne.symm hc, fun hmem => ?_⟩
    simpa using List.mem_takeWhile_imp hmem
  · exact Heredoc.dropLine_cases after

end ManifestDocs.Scanner
