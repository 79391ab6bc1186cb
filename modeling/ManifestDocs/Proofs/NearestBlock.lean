/-
The nearest comment block, line by line. What a comment line says is read off its characters
(`Says`): blanks, `#` signs, perhaps one space, and then what it says. Above a declaration there may
be a last line that is not blank; if it is a comment line, it ends a block, which goes up as long as
there are comment lines (`Nearest`). `above_nearest` says that the comment of a declaration is this
block if it is near enough and says something, and that otherwise there is none; it does so for all
lines, and for every line number and every limit, those below zero included.
-/
import Mathlib.Order.Bounds.Defs
import ManifestDocs.Proofs.CommentBlocks

namespace ManifestDocs.DocComment

open ManifestDocs.Text

/-! ## What a comment line says -/

/-- `Says line content`: in front of `content` stand blanks, `#` signs and perhaps a space. All the
signs that stand there are taken, and the space if there is one. -/
inductive Says : List Char → List Char → Prop
  | spaced {indent signs content : List Char} (blank : ∀ c ∈ indent, isBlank c = true)
      (some_sign : signs ≠ []) (sign : ∀ c ∈ signs, c = '#') :
      Says (indent ++ (signs ++ ' ' :: content)) content
  | direct {indent signs content : List Char} (blank : ∀ c ∈ indent, isBlank c = true)
      (some_sign : signs ≠ []) (sign : ∀ c ∈ signs, c = '#') (noSign : content.head? ≠ some '#')
      (noSpace : content.head? ≠ some ' ') : Says (indent ++ (signs ++ content)) content

theorem says_of_content? {line content : List Char} (h : content? line = some content) :
    Says line content := by
  unfold content? at h
  split at h
  · next cs hline =>
    have hwhole : line = line.takeWhile isBlank ++ '#' :: cs := by
      rw [← hline]
      exact List.takeWhile_append_dropWhile.symm
    have hblank : ∀ c ∈ line.takeWhile isBlank, isBlank c = true :=
      fun c hc => List.mem_takeWhile_imp hc
    have hcs : cs = cs.takeWhile (· == '#') ++ cs.dropWhile (· == '#') :=
      List.takeWhile_append_dropWhile.symm
    have hsign : ∀ c ∈ '#' :: cs.takeWhile (· == '#'), c = '#' := by
      intro c hc
      rcases List.mem_cons.1 hc with rfl | hc
      · rfl
      · simpa using List.mem_takeWhile_imp hc
    have hnot := List.head?_dropWhile_not (· == '#') cs
    rw [hwhole, hcs, ← List.cons_append]
    split at h
    · next after hafter =>
      cases h
      rw [hafter]
      exact .spaced hblank (List.cons_ne_nil _ _) hsign
    · next hspace =>
      cases h
      refine .direct hblank (List.cons_ne_nil _ _) hsign (fun hhead => ?_) (fun hhead => ?_)
      · rw [hhead] at hnot
        simp at hnot
      · obtain ⟨more, hmore⟩ := List.head?_eq_some_iff.1 hhead
        exact hspace more hmore
  · cases h

/-- Blanks are passed, and then all signs. -/
theorem pass_signs {indent signs rest : List Char} (blank : ∀ c ∈ indent, isBlank c = true)
    (some_sign : signs ≠ []) (sign : ∀ c ∈ signs, c = '#') (noSign : rest.head? ≠ some '#') :
    ∃ cs, trimStart (indent ++ (signs ++ rest)) = '#' :: cs ∧ cs.dropWhile (· == '#') = rest := by
  obtain ⟨c, signs, rfl⟩ := List.exists_cons_of_ne_nil some_sign
  obtain ⟨rfl, hsigns⟩ := List.forall_mem_cons.1 sign
  refine ⟨signs ++ rest, ?_, ?_⟩
  · rw [trimStart, List.dropWhile_append_of_pos blank, List.cons_append,
      List.dropWhile_cons_of_neg (by decide)]
  · rw [List.dropWhile_append_of_pos fun c hc => by simp [hsigns c hc]]
    cases rest with
    | nil => rfl
    | cons c cs => exact List.dropWhile_cons_of_neg (by simpa using noSign)

/-- What a comment line says is what stands behind its signs. -/
theorem content?_eq_some_iff {line content : List Char} :
    content? line = some content ↔ Says line content := by
  refine ⟨says_of_content?, fun h => ?_⟩
  cases h with
  | spaced blank some_sign sign =>
    obtain ⟨cs, htrim, hdrop⟩ := pass_signs blank some_sign sign
      (by simp : (' ' :: content).head? ≠ some '#')
    rw [content?, htrim]
    simp only [hdrop]
  | direct blank some_sign sign noSign noSpace =>
    obtain ⟨cs, htrim, hdrop⟩ := pass_signs blank some_sign sign noSign
    rw [content?, htrim]
    simp only [hdrop]
    split
    · exact absurd rfl noSpace
    · rfl

theorem isComment_iff {line : String} :
    isComment line = true ↔ ∃ content, Says line.toList content := by
  simp only [isComment, Option.isSome_iff_exists, content?_eq_some_iff]

theorem remark_eq {line : String} {content : List Char} (h : Says line.toList content) :
    remark line = content.rdropWhile isBlank := by
  rw [remark, content?_eq_some_iff.2 h]
  rfl

/-! ## The nearest block -/

section Nearest

variable (listing : Listing) (number maxBlank : Int)

/-- Something that is not blank stands on the line with this number. -/
def Filled (n : Nat) : Prop :=
  ∃ line, listing.line? n = some line ∧ ∃ c ∈ line.toList, isBlank c = false

/-- The line with this number is a comment line. -/
def Commented (n : Nat) : Prop :=
  ∃ line content, listing.line? n = some line ∧ Says line.toList content

/-- How far down the lines above `number` reach. -/
def reach : Int :=
  min (number - 1) listing.size

/-- The lines from `first` through `last` are the nearest comment block above `number`: it ends with
the last line above that is not blank, and at most as many blank lines follow it as are allowed; it
starts with the first of the comment lines that stand there without a gap; and it says something. -/
structure Nearest (first last : Nat) : Prop where
  ends : IsGreatest {n : Nat | n ≤ reach listing number ∧ Filled listing n} last
  starts : IsLeast {m : Nat | 1 ≤ m ∧ m ≤ last ∧ ∀ n, m ≤ n → n ≤ last → Commented listing n} first
  near : reach listing number - last ≤ maxBlank
  saying : ∃ n, first ≤ n ∧ n ≤ last ∧ ∃ line content, listing.line? n = some line ∧
    Says line.toList content ∧ ∃ c ∈ content, isBlank c = false

/-- The lines with the numbers from `first` through `last`. -/
def lineBlock (first last : Nat) : List String :=
  (listing.lines.take last).drop (first - 1)

end Nearest

section Lines

variable {listing : Listing} {number maxBlank : Int} {n first last : Nat} {line : String}

/-- The lines above a number, by their own numbers. -/
theorem getElem?_above (hn : 1 ≤ n) :
    (listing.lines.take (number - 1).toNat)[n - 1]? = some line ↔
      n ≤ reach listing number ∧ listing.line? n = some line := by
  rw [listing.line?_of_pos hn, List.getElem?_take, reach, Listing.size]
  constructor
  · intro h
    split at h
    · next hlt =>
      have hsize := (List.getElem?_eq_some_iff.1 h).1
      exact ⟨by omega, h⟩
    · cases h
  · rintro ⟨hreach, hline⟩
    rw [if_pos (by omega), hline]

theorem length_above (listing : Listing) (number : Int) :
    ((listing.lines.take (number - 1).toNat).length : Int) = max 0 (reach listing number) := by
  rw [List.length_take, reach, Listing.size]
  omega

theorem isBlankText_eq_false_iff :
    isBlankText line = false ↔ ∃ c ∈ line.toList, isBlank c = false := by
  simp [isBlankText, isBlankLine]

theorem commented_iff : Commented listing n ↔
    ∃ line, listing.line? n = some line ∧ isComment line = true := by
  simp only [Commented, isComment_iff, exists_and_left]

theorem Commented.pos (h : Commented listing n) : 1 ≤ n := by
  obtain ⟨line, -, hline, -⟩ := h
  exact_mod_cast (Listing.le_size_of_line? hline).1

theorem filled_iff : n ≤ reach listing number ∧ Filled listing n ↔
    1 ≤ n ∧ ∃ line, (listing.lines.take (number - 1).toNat)[n - 1]? = some line ∧
      isBlankText line = false := by
  constructor
  · rintro ⟨hreach, line, hline, hfilled⟩
    have hn : 1 ≤ n := by exact_mod_cast (Listing.le_size_of_line? hline).1
    exact ⟨hn, line, (getElem?_above hn).2 ⟨hreach, hline⟩, isBlankText_eq_false_iff.2 hfilled⟩
  · rintro ⟨hn, line, hline, hfilled⟩
    obtain ⟨hreach, hline⟩ := (getElem?_above hn).1 hline
    exact ⟨hreach, line, hline, isBlankText_eq_false_iff.1 hfilled⟩

theorem remark_ne_nil_iff {content : List Char} (h : Says line.toList content) :
    remark line ≠ [] ↔ ∃ c ∈ content, isBlank c = false := by
  rw [remark_eq h, ne_eq, List.rdropWhile_eq_nil_iff]
  simp

theorem dropEmptyEnd_eq (lines : List (List Char)) :
    dropEmptyEnd lines = lines.rdropWhile List.isEmpty := rfl

/-- A block says something if one of its lines does. -/
theorem saying_iff {block : List String} (comments : ∀ l ∈ block, isComment l = true) :
    dropEmptyEnd (block.map remark) ≠ [] ↔
      ∃ l ∈ block, ∃ content, Says l.toList content ∧ ∃ c ∈ content, isBlank c = false := by
  rw [dropEmptyEnd_eq, ne_eq, List.rdropWhile_eq_nil_iff]
  simp only [List.mem_map, forall_exists_index, and_imp, forall_apply_eq_imp_iff₂,
    List.isEmpty_iff, not_forall]
  constructor
  · rintro ⟨l, hl, hremark⟩
    obtain ⟨content, hcontent⟩ := isComment_iff.1 (comments l hl)
    exact ⟨l, hl, content, hcontent, (remark_ne_nil_iff hcontent).1 hremark⟩
  · rintro ⟨l, hl, content, hcontent, hfilled⟩
    exact ⟨l, hl, (remark_ne_nil_iff hcontent).2 hfilled⟩

end Lines

/-! ## The block that is found -/

section Found

variable {listing : Listing} {number maxBlank : Int} {lines : List String} {c : DocComment}
  {n first last : Nat} {line : String}

theorem Attached.le_last (h : Attached maxBlank lines c) (hn : 1 ≤ n)
    (hline : lines[n - 1]? = some line) (hblank : isBlankText line = false) : n ≤ c.last := by
  obtain ⟨blank, few, comments, apart, saying⟩ := h
  rename_i front block blanks
  by_contra hgt
  simp only [not_le] at hgt
  rw [List.getElem?_append_right (by omega), List.getElem?_append_right (by omega)] at hline
  simp [blank line (List.mem_of_getElem? hline)] at hblank

theorem Attached.not_isComment_before (h : Attached maxBlank lines c) (hn : n + 1 = c.first)
    (hpos : 1 ≤ n) (hline : lines[n - 1]? = some line) : DocComment.isComment line = false := by
  obtain ⟨blank, few, comments, apart, saying⟩ := h
  rename_i front block blanks
  simp only [Nat.add_right_cancel_iff] at hn
  rw [List.getElem?_append_left (by omega), hn, ← List.getLast?_eq_getElem?] at hline
  exact apart line hline

theorem Attached.near (h : Attached maxBlank lines c) :
    (lines.length : Int) - c.last ≤ maxBlank := by
  obtain ⟨blank, few, comments, apart, saying⟩ := h
  simp only [List.length_append]
  omega

/-- The block that is found is the nearest one. -/
theorem Attached.nearest (h : Attached maxBlank (listing.lines.take (number - 1).toNat) c) :
    Nearest listing number maxBlank c.first c.last := by
  obtain ⟨hfirst, hle, hlast⟩ := h.bounds
  have hcommented : ∀ n, c.first ≤ n → n ≤ c.last → Commented listing n := by
    intro n hn hn'
    obtain ⟨line, hline, hcomment⟩ := h.isComment hn hn'
    exact commented_iff.2 ⟨line, ((getElem?_above (by omega)).1 hline).2, hcomment⟩
  refine ⟨⟨?_, ?_⟩, ⟨⟨hfirst, hle, hcommented⟩, ?_⟩, ?_, ?_⟩
  · obtain ⟨line, hline, hcomment⟩ := h.isComment hle le_rfl
    exact filled_iff.2 ⟨by omega, line, hline, isBlankText_of_isComment hcomment⟩
  · intro n hn
    obtain ⟨hn, line, hline, hfilled⟩ := filled_iff.1 hn
    exact h.le_last hn hline hfilled
  · rintro m ⟨hm, hm', hall⟩
    by_contra hlt
    -- the line right before the block would be a comment line
    obtain ⟨line, hline, hcomment⟩ := commented_iff.1 (hall (c.first - 1) (by omega) (by omega))
    have hreach := length_above listing number
    have hbefore := h.not_isComment_before (n := c.first - 1) (by omega) (by omega)
      ((getElem?_above (by omega)).2 ⟨by omega, hline⟩)
    rw [hcomment] at hbefore
    cases hbefore
  · have hreach := length_above listing number
    have hnear := h.near
    omega
  · generalize hlines : listing.lines.take (number - 1).toNat = lines at h
    obtain ⟨blank, few, comments, apart, saying⟩ := h
    rename_i front block blanks
    obtain ⟨l, hl, content, hcontent, hfilled⟩ := (saying_iff comments).1 saying
    obtain ⟨i, hi, rfl⟩ := List.getElem_of_mem hl
    have hindex : (listing.lines.take (number - 1).toNat)[front.length + 1 + i - 1]? =
        some block[i] := by
      rw [hlines, List.getElem?_append_right (by omega), List.getElem?_append_left (by omega),
        List.getElem?_eq_getElem (by omega)]
      congr 2
      omega
    exact ⟨front.length + 1 + i, by simp, by simp only; omega, _, content,
      ((getElem?_above (by omega)).1 hindex).2, hcontent, hfilled⟩

theorem mem_lineBlock_iff (hfirst : 1 ≤ first) :
    line ∈ lineBlock listing first last ↔
      ∃ n, first ≤ n ∧ n ≤ last ∧ listing.line? n = some line := by
  rw [lineBlock, List.mem_iff_getElem?]
  constructor
  · rintro ⟨i, hi⟩
    rw [List.getElem?_drop, List.getElem?_take] at hi
    split at hi
    · refine ⟨first + i, by omega, by omega, ?_⟩
      rw [listing.line?_of_pos (by omega), ← hi]
      congr 1
      omega
    · cases hi
  · rintro ⟨n, hn, hn', hline⟩
    refine ⟨n - first, ?_⟩
    rw [listing.line?_of_pos (by omega)] at hline
    rw [List.getElem?_drop, List.getElem?_take, if_pos (by omega), ← hline]
    congr 1
    omega

theorem Nearest.le_reach (h : Nearest listing number maxBlank first last) :
    1 ≤ first ∧ first ≤ last ∧ last ≤ number - 1 ∧ last ≤ listing.lines.length := by
  have hreach := h.ends.1.1
  obtain ⟨hfirst, hle, -⟩ := h.starts.1
  simp only [reach, Listing.size] at hreach
  omega

theorem Nearest.comments (h : Nearest listing number maxBlank first last) :
    ∀ l ∈ lineBlock listing first last, isComment l = true := by
  obtain ⟨hfirst, -, hall⟩ := h.starts.1
  intro l hl
  obtain ⟨n, hn, hn', hline⟩ := (mem_lineBlock_iff hfirst).1 hl
  obtain ⟨l', hline', hcomment⟩ := commented_iff.1 (hall n hn hn')
  rw [hline] at hline'
  cases hline'
  exact hcomment

theorem Nearest.remarks_ne_nil (h : Nearest listing number maxBlank first last) :
    dropEmptyEnd ((lineBlock listing first last).map remark) ≠ [] := by
  obtain ⟨hfirst, -, -⟩ := h.starts.1
  obtain ⟨n, hn, hn', line, content, hline, hcontent, hfilled⟩ := h.saying
  exact (saying_iff h.comments).2
    ⟨line, (mem_lineBlock_iff hfirst).2 ⟨n, hn, hn', hline⟩, content, hcontent, hfilled⟩

/-- With a comment line right before it, the block would start further up. -/
theorem Nearest.not_commented_before (h : Nearest listing number maxBlank first last) :
    ¬ Commented listing (first - 1) := by
  obtain ⟨-, hle, hall⟩ := h.starts.1
  intro hcommented
  have hmore : ∀ n, first - 1 ≤ n → n ≤ last → Commented listing n := by
    intro n hn hn'
    rcases Nat.eq_or_lt_of_le hn with rfl | hlt
    · exact hcommented
    · exact hall n (by omega) hn'
  have hpos := hcommented.pos
  have hle' := h.starts.2 ⟨hpos, by omega, hmore⟩
  omega

theorem Nearest.isBlankText_below (h : Nearest listing number maxBlank first last) :
    ∀ l ∈ (listing.lines.take (number - 1).toNat).drop last, isBlankText l = true := by
  intro l hl
  by_contra hfilled
  obtain ⟨i, hi⟩ := List.mem_iff_getElem?.1 hl
  rw [List.getElem?_drop] at hi
  have hle : last + i + 1 ≤ last :=
    h.ends.2 (filled_iff.2 ⟨by omega, l, hi, by simpa using hfilled⟩)
  omega

/-- The nearest block is found: above the declaration stand some lines, those of the block, and
blank ones. -/
theorem Nearest.attached (h : Nearest listing number maxBlank first last) :
    Attached maxBlank (listing.lines.take (number - 1).toNat)
      ⟨String.ofList (['\n'].intercalate
        (dropEmptyEnd ((lineBlock listing first last).map remark))), first, last⟩ := by
  obtain ⟨hfirst, hle, hlast, hsize⟩ := h.le_reach
  have hapart : ∀ l ∈ (listing.lines.take (first - 1)).getLast?, isComment l = false := by
    intro l hl
    rw [← Bool.not_eq_true]
    intro hcomment
    rw [List.getLast?_eq_getElem?, List.length_take, Nat.min_eq_left (by omega),
      List.getElem?_take] at hl
    split at hl
    · refine h.not_commented_before (commented_iff.2 ⟨l, ?_, hcomment⟩)
      rwa [listing.line?_of_pos (by omega)]
    · cases hl
  have hfew : (((listing.lines.take (number - 1).toNat).drop last).length : Int) ≤ maxBlank := by
    have hreach := length_above listing number
    have hends := h.ends.1.1
    have hnear := h.near
    rw [List.length_drop]
    omega
  have hattached := Attached.mk h.isBlankText_below hfew h.comments hapart h.remarks_ne_nil
  have hsplit : listing.lines.take (first - 1) ++ (lineBlock listing first last ++
      (listing.lines.take (number - 1).toNat).drop last) =
        listing.lines.take (number - 1).toNat := by
    have htake : listing.lines.take last = (listing.lines.take (number - 1).toNat).take last := by
      rw [List.take_take, Nat.min_eq_left (by omega)]
    have hfront : listing.lines.take (first - 1) = (listing.lines.take last).take (first - 1) := by
      rw [List.take_take, Nat.min_eq_left (by omega)]
    rw [lineBlock, ← List.append_assoc, hfront, List.take_append_drop, htake,
      List.take_append_drop]
  have hfront : (listing.lines.take (first - 1)).length + 1 = first := by
    rw [List.length_take]
    omega
  have hblock : (listing.lines.take (first - 1)).length + (lineBlock listing first last).length =
      last := by
    rw [lineBlock, List.length_drop, List.length_take, List.length_take]
    omega
  rwa [hsplit, hfront, hblock] at hattached

end Found

/-! ## Its text -/

/-- Lines joined by line breaks end as the last of them does, unless it is empty. -/
theorem getLast?_intercalate {lines : List (List Char)} {last : List Char} (hlast : last ≠ []) :
    (['\n'].intercalate (lines ++ [last])).getLast? = last.getLast? := by
  induction lines with
  | nil => rw [List.nil_append, List.intercalate_singleton]
  | cons line lines ih =>
    obtain ⟨next, more, hmore⟩ := List.exists_cons_of_ne_nil
      (List.append_ne_nil_of_right_ne_nil lines (List.cons_ne_nil last []))
    have hne : ['\n'].intercalate (lines ++ [last]) ≠ [] := by
      intro hnil
      rw [hnil, List.getLast?_nil, eq_comm, List.getLast?_eq_none_iff] at ih
      exact hlast ih
    rw [List.cons_append, hmore, List.intercalate_cons_cons, ← hmore,
      List.getLast?_append_of_ne_nil _ hne, ih]

/-- The text of a block that says something ends with a character that is not blank. -/
theorem text_of_block {block : List String} (saying : dropEmptyEnd (block.map remark) ≠ []) :
    ∃ c, (['\n'].intercalate (dropEmptyEnd (block.map remark))).getLast? = some c ∧
      isBlank c = false := by
  rw [dropEmptyEnd_eq] at saying ⊢
  have hkept := List.rdropWhile_prefix List.isEmpty (l := block.map remark)
  have hfilled := rdropWhile_getLast? List.isEmpty (block.map remark)
  rcases List.eq_nil_or_concat' ((block.map remark).rdropWhile List.isEmpty) with hnil | hconcat
  · exact absurd hnil saying
  · obtain ⟨lines, last, hlines⟩ := hconcat
    rw [hlines] at hkept hfilled ⊢
    have hlast : last ≠ [] := by simpa using hfilled last (by simp)
    obtain ⟨line, -, hremark⟩ : ∃ line ∈ block, remark line = last :=
      List.mem_map.1 (hkept.subset (by simp))
    rw [getLast?_intercalate hlast]
    obtain ⟨c, hc⟩ := Option.ne_none_iff_exists'.1 (mt List.getLast?_eq_none_iff.1 hlast)
    refine ⟨c, hc, ?_⟩
    rw [← hremark] at hc
    exact rdropWhile_getLast? isBlank _ c hc

/-- What the lines of a block say, line by line. -/
theorem exists_contents {block : List String} (comments : ∀ l ∈ block, isComment l = true) :
    ∃ contents, List.Forall₂ (fun line content => Says line.toList content) block contents ∧
      block.map remark = contents.map (·.rdropWhile isBlank) := by
  induction block with
  | nil => exact ⟨[], .nil, rfl⟩
  | cons line block ih =>
    obtain ⟨hline, hblock⟩ := List.forall_mem_cons.1 comments
    obtain ⟨content, hcontent⟩ := isComment_iff.1 hline
    obtain ⟨contents, hall, hmap⟩ := ih hblock
    refine ⟨content :: contents, .cons hcontent hall, ?_⟩
    rw [List.map_cons, List.map_cons, remark_eq hcontent, hmap]

/-- **The comment of a declaration is the nearest block above it.** If there is one, no comment line
stands right before it, and the comment has its numbers, and for its text what its lines say,
without the blanks at their ends and the empty lines at the end. This text is not empty and does not
end with a blank. If there is none, there is no comment. -/
theorem above_nearest (listing : Listing) (number maxBlank : Int) :
    (∀ first last, Nearest listing number maxBlank first last →
      ¬ Commented listing (first - 1) ∧ ∃ contents text,
        List.Forall₂ (fun line content => Says line.toList content)
          (lineBlock listing first last) contents ∧
        text = String.ofList (['\n'].intercalate
          ((contents.map (·.rdropWhile isBlank)).rdropWhile List.isEmpty)) ∧
        text ≠ "" ∧ (∀ c ∈ text.toList.getLast?, isBlank c = false) ∧
        above listing number maxBlank = some ⟨text, first, last⟩) ∧
    ((∀ first last, ¬ Nearest listing number maxBlank first last) →
      above listing number maxBlank = none) := by
  constructor
  · intro first last h
    have habove := above_eq_some_iff.2 h.attached
    obtain ⟨c, hc, hfilled⟩ := text_of_block h.remarks_ne_nil
    obtain ⟨contents, hall, hmap⟩ := exists_contents h.comments
    rw [hmap] at habove hc
    refine ⟨h.not_commented_before, contents, _, hall, rfl, ?_, ?_, habove⟩
    · intro hempty
      have hnil := congrArg String.toList hempty
      rw [String.toList_ofList] at hnil
      rw [dropEmptyEnd_eq, hnil] at hc
      cases hc
    · intro c' hc'
      rw [String.toList_ofList] at hc'
      cases hc.symm.trans hc'
      exact hfilled
  · intro hnone
    cases habove : above listing number maxBlank with
    | none => rfl
    | some c => exact absurd (above_eq_some_iff.1 habove).nearest (hnone c.first c.last)

/-- A block of three lines, two of them bare, with one blank line below it: it is near enough if one
blank line is allowed, and too far up if none is. -/
theorem above_nearest_bare_lines :
    let listing : Listing := ⟨"k.pp", ["class j;", " ## a ", "#", "\t#", "", "class k;"]⟩
    (Nearest listing 6 1 2 4 ∧ ¬ Commented listing 1 ∧
        above listing 6 1 = some ⟨"a", 2, 4⟩) ∧
      (∀ first last, ¬ Nearest listing 6 0 first last) ∧ above listing 6 0 = none := by
  intro listing
  have hone : above listing 6 1 = some ⟨"a", 2, 4⟩ := by decide +kernel
  have hzero : above listing 6 0 = none := by decide +kernel
  have hnearest : Nearest listing 6 1 2 4 := (above_eq_some_iff.1 hone).nearest
  have hnone : ∀ first last, ¬ Nearest listing 6 0 first last := by
    intro first last h
    have hsome := above_eq_some_iff.2 h.attached
    rw [hzero] at hsome
    cases hsome
  exact ⟨⟨hnearest, ((above_nearest listing 6 1).1 2 4 hnearest).1, hone⟩, hnone,
    (above_nearest listing 6 0).2 hnone⟩

end ManifestDocs.DocComment
