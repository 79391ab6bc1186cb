/-
The comment above a declaration. `Attached` says which block of lines it is: the lines above the
declaration are some lines, then the comment lines of the block, then at most as many blank lines as
are allowed, and the block is as long as it can be. `above_eq_some_iff` says that this is the
comment that is found, with what its lines say for its text and the numbers of its first and last
line.
-/
import Mathlib.Data.List.DropRight
import ManifestDocs.DocComment

namespace ManifestDocs.DocComment

open ManifestDocs.Text

/-! ## Lines from the last one up -/

/-- Whether a line is a comment line. -/
def isComment (line : String) : Bool :=
  (content? line.toList).isSome

/-- Whether nothing but blanks stands on a line. -/
def isBlankText (line : String) : Bool :=
  isBlankLine line.toList

/-- What a comment line says, without the blanks at its end. -/
def remark (line : String) : List Char :=
  trimEnd ((content? line.toList).getD [])

/-- Things with their numbers, of which the first has the number after `n`, from the last one up. -/
def numbered {α : Type} (n : Nat) (xs : List α) : List (Nat × α) :=
  ((xs.zipIdx (n + 1)).map fun x => (x.2, x.1)).reverse

theorem numbered_concat {α : Type} (n : Nat) (xs : List α) (x : α) :
    numbered n (xs ++ [x]) = (n + xs.length + 1, x) :: numbered n xs := by
  simp [numbered, List.zipIdx_append]
  omega

theorem take_zipIdx {α : Type} (xs : List α) (n k : Nat) :
    (xs.zipIdx n).take k = (xs.take k).zipIdx n := by
  induction xs generalizing n k with
  | nil => simp
  | cons x xs ih =>
    cases k with
    | zero => rfl
    | succ k => simp [ih]

theorem above_eq_numbered (l : Listing) (number : Int) :
    l.above number = numbered 0 (l.lines.take (number - 1).toNat) := by
  rw [Listing.above, numbered, ← take_zipIdx]

/-- The blank lines at the end come first from below, and the others after them. -/
theorem numbered_blanks (p : String → Bool) (n : Nat) (lines : List String) :
    ((numbered n lines).takeWhile fun l => p l.2).length = (lines.rtakeWhile p).length ∧
      (numbered n lines).drop ((numbered n lines).takeWhile fun l => p l.2).length =
        numbered n (lines.rdropWhile p) := by
  induction lines using List.reverseRecOn with
  | nil => exact ⟨rfl, rfl⟩
  | append_singleton lines line ih =>
    rw [numbered_concat]
    by_cases hline : p line = true
    · rw [List.takeWhile_cons_of_pos (p := fun l : Nat × String => p l.2) hline,
        List.rtakeWhile_concat_pos _ _ _ hline, List.rdropWhile_concat_pos _ _ _ hline,
        List.length_cons, List.length_append, ih.1, List.drop_succ_cons]
      exact ⟨rfl, by rw [← ih.1, ih.2]⟩
    · rw [List.takeWhile_cons_of_neg (p := fun l : Nat × String => p l.2) hline,
        List.rtakeWhile_concat_neg _ _ _ hline, List.rdropWhile_concat_neg _ _ _ hline,
        numbered_concat]
      exact ⟨rfl, rfl⟩

/-- The block from below: the comment lines at the end, by what they say. -/
theorem leadingBlock_numbered (n : Nat) (lines : List String) :
    leadingBlock (numbered n lines) =
      numbered (n + (lines.rdropWhile isComment).length)
        ((lines.rtakeWhile isComment).map remark) := by
  induction lines using List.reverseRecOn with
  | nil => rfl
  | append_singleton lines line ih =>
    rw [numbered_concat, leadingBlock]
    cases hcontent : content? line.toList with
    | none =>
      have hline : ¬ isComment line = true := by simp [isComment, hcontent]
      rw [List.rtakeWhile_concat_neg _ _ _ hline]
      rfl
    | some content =>
      have hline : isComment line = true := by simp [isComment, hcontent]
      have hremark : remark line = trimEnd content := by rw [remark, hcontent, Option.getD_some]
      have hlength : lines.length =
          (lines.rdropWhile isComment).length + (lines.rtakeWhile isComment).length := by
        rw [← List.length_append, List.rdropWhile_append_rtakeWhile]
      rw [List.rtakeWhile_concat_pos _ _ _ hline, List.rdropWhile_concat_pos _ _ _ hline,
        List.map_append, List.map_singleton, numbered_concat, List.length_map, hremark, ih]
      simp only [List.cons.injEq, Prod.mk.injEq, and_true]
      omega

/-- The comment of a block of numbered lines. -/
theorem ofBlock_numbered (n : Nat) (contents : List (List Char)) :
    ofBlock (numbered n contents) =
      if dropEmptyEnd contents = [] then none
      else some ⟨String.ofList (['\n'].intercalate (dropEmptyEnd contents)), n + 1,
        n + contents.length⟩ := by
  cases hlast : contents.reverse with
  | nil =>
    rw [List.reverse_eq_nil_iff] at hlast
    rw [hlast]
    rfl
  | cons last more =>
    have hcontents : contents = more.reverse ++ [last] := by
      rw [← List.reverse_reverse contents, hlast, List.reverse_cons]
    have hmap : (numbered n contents).reverse.map (·.2) = contents := by
      simp [numbered, Function.comp_def]
    have hfirst : (numbered n contents).getLast?.map (·.1) = some (n + 1) := by
      rw [numbered, List.getLast?_reverse, List.head?_map, List.head?_zipIdx, Option.map_map,
        Option.map_map]
      simp [hcontents]
    have hnumber : n + contents.length = n + more.reverse.length + 1 := by
      rw [hcontents, List.length_append]
      rfl
    have hcons : numbered n contents = (n + contents.length, last) :: numbered n more.reverse := by
      rw [hnumber]
      conv_lhs => rw [hcontents, numbered_concat]
    rw [hcons] at hmap hfirst
    rw [hcons, ofBlock]
    simp only [hmap, hfirst, Option.getD_some]
    split
    · next he => rw [if_pos he]
    · next hne => rw [if_neg hne]

/-! ## Which block it is -/

/-- The lines above a declaration end with a comment block that belongs to it: at most `maxBlank`
blank lines follow the block, no comment line stands right before it, and it says something. -/
inductive Attached (maxBlank : Int) : List String → DocComment → Prop
  | mk {front block blanks : List String} (blank : ∀ l ∈ blanks, isBlankText l = true)
      (few : blanks.length ≤ maxBlank) (comments : ∀ l ∈ block, isComment l = true)
      (apart : ∀ l ∈ front.getLast?, isComment l = false)
      (saying : dropEmptyEnd (block.map remark) ≠ []) :
      Attached maxBlank (front ++ (block ++ blanks))
        ⟨String.ofList (['\n'].intercalate (dropEmptyEnd (block.map remark))), front.length + 1,
          front.length + block.length⟩

theorem isBlankText_of_isComment {line : String} (h : isComment line = true) :
    isBlankText line = false := by
  rw [← Bool.not_eq_true]
  intro hblank
  have hall : ∀ c ∈ line.toList, isBlank c = true := by
    simpa [isBlankText, isBlankLine] using hblank
  have htrim : trimStart line.toList = [] := List.dropWhile_eq_nil_iff.2 hall
  simp [isComment, content?, htrim] at h

theorem rtakeWhile_append {α : Type} {p : α → Bool} {xs ys : List α} (hys : ∀ y ∈ ys, p y = true)
    (hxs : ∀ x ∈ xs.getLast?, p x = false) :
    (xs ++ ys).rtakeWhile p = ys ∧ (xs ++ ys).rdropWhile p = xs := by
  have htake : xs.reverse.takeWhile p = [] := by
    cases hreverse : xs.reverse with
    | nil => rfl
    | cons x more =>
      have hx := hxs x (by rw [← List.head?_reverse, hreverse]; rfl)
      exact List.takeWhile_cons_of_neg (by simp [hx])
  have hdrop : xs.reverse.dropWhile p = xs.reverse := by
    have hboth := List.takeWhile_append_dropWhile (p := p) (l := xs.reverse)
    rwa [htake, List.nil_append] at hboth
  have hys' : ∀ y ∈ ys.reverse, p y = true := fun y hy => hys y (List.mem_reverse.1 hy)
  constructor
  · rw [List.rtakeWhile, List.reverse_append, List.takeWhile_append_of_pos hys', htake,
      List.append_nil, List.reverse_reverse]
  · rw [List.rdropWhile, List.reverse_append, List.dropWhile_append_of_pos hys', hdrop,
      List.reverse_reverse]

theorem rdropWhile_getLast? {α : Type} (p : α → Bool) (xs : List α) :
    ∀ x ∈ (xs.rdropWhile p).getLast?, p x = false := by
  intro x hx
  rw [List.rdropWhile, List.getLast?_reverse] at hx
  have hnot := List.head?_dropWhile_not p xs.reverse
  rw [hx] at hnot
  simpa using hnot

/-- **The comment above a declaration** is the block that belongs to it. -/
theorem above_eq_some_iff {listing : Listing} {number maxBlank : Int} {c : DocComment} :
    above listing number maxBlank = some c ↔
      Attached maxBlank (listing.lines.take (number - 1).toNat) c := by
  generalize hlines : listing.lines.take (number - 1).toNat = lines
  obtain ⟨hcount, hdrop⟩ := numbered_blanks isBlankText 0 lines
  have habove : above listing number maxBlank =
      if ((lines.rtakeWhile isBlankText).length : Int) > maxBlank then none
      else ofBlock (leadingBlock (numbered 0 (lines.rdropWhile isBlankText))) := by
    rw [← hdrop, ← hcount, ← hlines, ← above_eq_numbered]
    rfl
  rw [habove, leadingBlock_numbered, ofBlock_numbered, List.length_map, Nat.zero_add]
  constructor
  · intro h
    split at h
    · cases h
    · next hfew =>
      split at h
      · cases h
      · next hsaying =>
        cases h
        have hsplit : lines = (lines.rdropWhile isBlankText).rdropWhile isComment ++
            ((lines.rdropWhile isBlankText).rtakeWhile isComment ++
              lines.rtakeWhile isBlankText) := by
          rw [← List.append_assoc, List.rdropWhile_append_rtakeWhile,
            List.rdropWhile_append_rtakeWhile]
        have hblanks : ∀ l ∈ lines.rtakeWhile isBlankText, isBlankText l = true :=
          fun l hl => List.mem_rtakeWhile_imp hl
        have hcomments : ∀ l ∈ (lines.rdropWhile isBlankText).rtakeWhile isComment,
            isComment l = true :=
          fun l hl => List.mem_rtakeWhile_imp hl
        have hattached := Attached.mk hblanks (Int.not_lt.1 hfew) hcomments
          (rdropWhile_getLast? isComment (lines.rdropWhile isBlankText)) hsaying
        rwa [← hsplit] at hattached
  · rintro ⟨blank, few, comments, apart, saying⟩
    rename_i front block blanks
    have hblock : block ≠ [] := by
      rintro rfl
      exact saying rfl
    have hlast : ∀ l ∈ (front ++ block).getLast?, isBlankText l = false := by
      intro l hl
      rw [List.getLast?_append_of_ne_nil _ hblock] at hl
      exact isBlankText_of_isComment (comments l (List.mem_of_getLast? hl))
    have hblanks := rtakeWhile_append blank hlast
    have hcomments := rtakeWhile_append comments apart
    rw [List.append_assoc] at hblanks
    rw [hblanks.1, hblanks.2, hcomments.1, hcomments.2, if_neg (by omega), if_neg saying]

/-! ## The lines of the block -/

section Attached

variable {maxBlank : Int} {lines : List String} {c : DocComment}

/-- The numbers of a block are those of lines above the declaration. -/
theorem Attached.bounds (h : Attached maxBlank lines c) :
    1 ≤ c.first ∧ c.first ≤ c.last ∧ c.last ≤ lines.length := by
  obtain ⟨blank, few, comments, apart, saying⟩ := h
  rename_i front block blanks
  have hblock : 0 < block.length := by
    rw [List.length_pos_iff]
    rintro rfl
    exact saying rfl
  simp only [List.length_append]
  omega

/-- Every line of a block is a comment line. -/
theorem Attached.isComment (h : Attached maxBlank lines c) {n : Nat} (hfirst : c.first ≤ n)
    (hlast : n ≤ c.last) :
    ∃ line, lines[n - 1]? = some line ∧ DocComment.isComment line = true := by
  obtain ⟨blank, few, comments, apart, saying⟩ := h
  rename_i front block blanks
  simp only at hfirst hlast
  have hlt : n - 1 - front.length < block.length := by omega
  refine ⟨block[n - 1 - front.length], ?_, comments _ (List.getElem_mem hlt)⟩
  rw [List.getElem?_append_right (by omega), List.getElem?_append_left hlt,
    List.getElem?_eq_getElem hlt]

/-- A line above a declaration that is neither blank nor a comment line stands above the block. -/
theorem Attached.lt_first (h : Attached maxBlank lines c) {n : Nat} {line : String} (hn : 1 ≤ n)
    (hline : lines[n - 1]? = some line) (hblank : isBlankText line = false)
    (hcomment : DocComment.isComment line = false) : n < c.first := by
  obtain ⟨blank, few, comments, apart, saying⟩ := h
  rename_i front block blanks
  by_contra hge
  simp only [not_lt] at hge
  rw [List.getElem?_append_right (by omega)] at hline
  rcases List.mem_append.1 (List.mem_of_getElem? hline) with hmem | hmem
  · simp [comments line hmem] at hcomment
  · simp [blank line hmem] at hblank

end Attached

end ManifestDocs.DocComment
