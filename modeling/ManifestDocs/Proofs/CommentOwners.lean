/-
Which declarations a comment belongs to. A comment is attached by the line of its declaration alone,
and so it belongs to every declaration of that line, even if a part of it stands inside of an item
that ends there. Nothing else can be amiss in a text that reads line by line as it does token by
token (`Legible`): two declarations share lines of their comments only if they start on the same
line, and a comment reaches into an earlier item only if the item ends on the declaration's line
(`comment_shared_iff`). The reason is that the last line of an item is neither blank nor a comment
line, and a comment is not looked for above such a line. A comment in the body of a class that two
others on the line of its brace share stands at the end.
-/
import ManifestDocs.Proofs.CommentBlocks
import ManifestDocs.Proofs.Documented
import ManifestDocs.Proofs.Lines
import ManifestDocs.Proofs.Partition
import ManifestDocs.Proofs.TokenTexts

namespace ManifestDocs

open ManifestDocs.Scanner ManifestDocs.Listing ManifestDocs.Text

/-! ## The lines of an item -/

section Lines

variable {ε : Type}

/-- The line on which an item starts. -/
def Item.firstLine (text : List Char) (i : Item ε) : Nat :=
  (placeAt text i.offset).line

/-- The line on which an item ends, that of its last character. -/
def Item.lastLine (text : List Char) (i : Item ε) : Nat :=
  (placeAt text (i.offset + i.length - 1)).line

end Lines

/-- A manifest that reads line by line as it does token by token: no heredoc header has a line break
in it, and no item starts or ends on a line that looks like a comment. -/
structure Manifest.Legible (file : String) (m : Manifest) : Prop where
  headers : ∀ scan, Scan.ofText m.text = .ok scan →
    ∀ t ∈ scan.tokens, t.kind = .heredoc → '\n' ∉ t.value.toList
  code : ∀ i ∈ m.items, ∀ n ∈ [i.firstLine m.text.toList, i.lastLine m.text.toList],
    ∀ line, (Listing.ofText file m.text).lines[n - 1]? = some line →
      DocComment.isComment line = false

/-- Two stretches of lines have a line in common. -/
def Overlap (r s : Int × Int) : Prop :=
  ∃ n, r.1 ≤ n ∧ n ≤ r.2 ∧ s.1 ≤ n ∧ n ≤ s.2

/-! ## Lines that are not blank -/

theorem placeAt_line_mono (text : List Char) {m n : Nat} (h : m ≤ n) :
    (placeAt text m).line ≤ (placeAt text n).line := by
  have hsublist : (text.take m).Sublist (text.take n) := (List.take_prefix_take_left h).sublist
  have hcount := hsublist.count_le '\n'
  simp only [placeAt]
  omega

theorem mem_dropReturns {row : List Char} {c : Char} (hc : c ∈ row) (hreturn : c ≠ '\r') :
    c ∈ dropReturns row := by
  have hrow : row.rdropWhile (· == '\r') ++ row.rtakeWhile (· == '\r') = row :=
    List.rdropWhile_append_rtakeWhile
  rw [← hrow] at hc
  rcases List.mem_append.1 hc with hc | hc
  · exact hc
  · have he : (c == '\r') = true := List.mem_rtakeWhile_imp (p := (· == '\r')) hc
    exact absurd (beq_iff_eq.1 he) hreturn

theorem ne_newline_of_not_blank {c : Char} (hc : isBlank c = false) : c ≠ '\n' := by
  rintro rfl
  exact absurd hc (by decide)

/-- A character that is not blank stands on a line that is not blank. -/
theorem line_not_blank {source : String} {before after : List Char} {c : Char}
    (hsource : source.toList = before ++ c :: after) (hc : isBlank c = false) (file : String) :
    ∃ line, (Listing.ofText file source).lines[(placeAt source.toList before.length).line - 1]? =
      some line ∧ DocComment.isBlankText line = false := by
  have hreturn : c ≠ '\r' := by
    rintro rfl
    exact absurd hc (by decide)
  have hat := @lineAt_placeAt before after c (ne_newline_of_not_blank hc)
  rw [← hsource] at hat
  have hrow := hat.getElem? (.inl (by simp))
  refine ⟨_, by rw [Listing.ofText, List.getElem?_map, hrow]; rfl, ?_⟩
  rw [DocComment.isBlankText, String.toList_ofList, DocComment.isBlankLine, List.all_eq_false]
  exact ⟨c, mem_dropReturns (by simp) hreturn, by simp [hc]⟩

/-! ## The first and the last line of an item -/

/-- No line starts between two characters of a stretch without line breaks. -/
theorem placeAt_line_unbroken {before piece after : List Char} {n : Nat} (h : '\n' ∉ piece)
    (hn : n ≤ piece.length) : (placeAt (before ++ (piece ++ after)) (before.length + n)).line =
      (placeAt (before ++ (piece ++ after)) before.length).line := by
  have hnone : (piece.take n).count '\n' = 0 :=
    List.count_eq_zero.2 fun hmem => h (List.mem_of_mem_take hmem)
  simp only [placeAt, List.take_length_add_append, List.take_left, List.count_append,
    List.take_append_of_le_length hn, hnone, Nat.add_zero]

section Items

variable {tasks : Bool} {file source : String} {m : Manifest}

/-- An item has its first and its last token. -/
theorem tokens_of_item (hparse : Manifest.parse tasks source = .ok m) {i : Item String}
    (hi : i ∈ m.items) : ∃ scan before first after last, Scan.ofText source = .ok scan ∧
      scan.tokens = before ++ first :: after ∧ last ∈ scan.tokens ∧ i.line = first.start.line ∧
      i.offset = first.start.offset ∧ i.offset + i.length = last.stop := by
  obtain ⟨scan, is, hscan, his, rfl⟩ := Grammar.parse_eq_ok.1 hparse
  obtain ⟨j, hj, rfl⟩ := List.mem_map.1 hi
  obtain ⟨before, group, after, htokens, -, hgroup⟩ := his.stretch hj
  have horder := Grammar.inOrder_of_scan hscan
  rw [htokens] at horder
  obtain ⟨first, last, hfirst, hlast, hoffset, hstop, -⟩ :=
    hgroup.reaches horder.append.2.1.append.1
  have hmem : last ∈ scan.tokens := by
    rw [htokens]
    simp [List.mem_of_getLast? hlast]
  have hline := hgroup.line_eq hfirst
  obtain ⟨more, rfl⟩ := List.head?_eq_some_iff.1 hfirst
  exact ⟨scan, before, first, more ++ after, last, hscan, htokens, hmem, hline, hoffset, hstop⟩

variable (hparse : Manifest.parse tasks source = .ok m)
include hparse

theorem text_of_parse : m.text = source := by
  obtain ⟨scan, is, -, -, rfl⟩ := Grammar.parse_eq_ok.1 hparse
  rfl

theorem items_ordered : m.items.Pairwise fun k i => k.offset + k.length ≤ i.offset := by
  obtain ⟨scan, is, hscan, his, rfl⟩ := Grammar.parse_eq_ok.1 hparse
  rw [List.pairwise_map]
  exact his.ordered (Grammar.inOrder_of_scan hscan)

/-- If no header has a line break in it, an item is on the line where it starts, and this line is
not blank. -/
theorem first_line_of_item (hlegible : m.Legible file) {i : Item String} (hi : i ∈ m.items) :
    i.line = i.firstLine source.toList ∧
      ∃ line, (Listing.ofText file source).lines[i.firstLine source.toList - 1]? = some line ∧
        DocComment.isBlankText line = false := by
  obtain ⟨scan, before, first, after, last, hscan, htokens, -, hline, hoffset, -⟩ :=
    tokens_of_item hparse hi
  have hruns : Runs (start source.toList) scan := run_eq_ok.1 hscan
  have hheaders := hlegible.headers scan (by rw [text_of_parse hparse]; exact hscan)
  have hmem : first ∈ scan.tokens := by simp [htokens]
  constructor
  · have htracked := (hruns.tracked tracks_start).1 before first after htokens
    have hseen : unseenBreaks before = 0 :=
      unseenBreaks_eq_zero_iff.2 fun t ht => hheaders t (by simp [htokens, ht])
    have hexact := htracked.line_add
    rw [hseen, List.nil_append] at hexact
    rw [hline, Item.firstLine, hoffset]
    exact hexact
  · obtain ⟨front, back, hwhole, hstart, -, -⟩ := hruns.stands first hmem
    obtain ⟨c, cs, hvalue, hc⟩ := hruns.head_not_blank first hmem
    rw [hvalue, List.cons_append] at hwhole
    have hplace : i.offset = front.length := by
      rw [hoffset, hstart]
      exact Nat.zero_add _
    rw [Item.firstLine, hplace]
    exact line_not_blank hwhole hc file

/-- The line where an item ends is not blank. -/
theorem last_line_of_item (hlegible : m.Legible file) {i : Item String} (hi : i ∈ m.items) :
    ∃ line, (Listing.ofText file source).lines[i.lastLine source.toList - 1]? = some line ∧
      DocComment.isBlankText line = false := by
  obtain ⟨scan, -, -, -, last, hscan, -, hmem, -, -, hstop⟩ := tokens_of_item hparse hi
  have hruns : Runs (start source.toList) scan := run_eq_ok.1 hscan
  have hheaders := hlegible.headers scan (by rw [text_of_parse hparse]; exact hscan)
  obtain ⟨front, back, hwhole, hstart, hend, -⟩ := hruns.stands last hmem
  obtain ⟨inner, c, line, hvalue, hc, hline⟩ := hruns.last_line hmem (hheaders last hmem)
  have hpiece : '\n' ∉ c :: line := by simp [(ne_newline_of_not_blank hc).symm, hline]
  have hsplit : source.toList = (front ++ inner) ++ ((c :: line) ++ back) := by
    rw [hvalue] at hwhole
    simpa [start] using hwhole
  have hplace : i.offset + i.length - 1 = (front ++ inner).length + line.length := by
    have hoffset : last.start.offset = front.length := by
      rw [hstart]
      exact Nat.zero_add _
    rw [hstop, hend, hoffset, hvalue]
    simp only [List.length_append, List.length_cons]
    omega
  have hlast : i.lastLine source.toList =
      (placeAt source.toList (front ++ inner).length).line := by
    rw [Item.lastLine, hplace, hsplit]
    exact placeAt_line_unbroken hpiece (Nat.le_succ _)
  rw [hlast]
  exact line_not_blank hsplit hc file

end Items

/-! ## Comments and the lines above a declaration -/

section Comment

variable {listing : Listing} {number : Nat} {maxBlank : Int} {c : DocComment}

/-- A comment stands above its declaration. -/
theorem last_lt_of_above (h : DocComment.above listing number maxBlank = some c) :
    1 ≤ c.first ∧ c.first ≤ c.last ∧ c.last < number := by
  obtain ⟨hpos, hle, hlast⟩ := (DocComment.above_eq_some_iff.1 h).bounds
  have htake := List.length_take_le ((number : Int) - 1).toNat listing.lines
  omega

/-- A line of code above a declaration stands above its comment. -/
theorem lt_first_of_above (h : DocComment.above listing number maxBlank = some c) {n : Nat}
    {line : String} (hpos : 1 ≤ n) (hn : n < number) (hline : listing.lines[n - 1]? = some line)
    (hblank : DocComment.isBlankText line = false) (hcode : DocComment.isComment line = false) :
    n < c.first := by
  have htake : (listing.lines.take ((number : Int) - 1).toNat)[n - 1]? = some line := by
    rw [List.getElem?_take_of_lt (by omega), hline]
  exact (DocComment.above_eq_some_iff.1 h).lt_first hpos htake hblank hcode

end Comment

theorem firstLine_pos {ε : Type} (text : List Char) (i : Item ε) : 1 ≤ i.firstLine text :=
  Nat.le_add_right 1 _

theorem lastLine_pos {ε : Type} (text : List Char) (i : Item ε) : 1 ≤ i.lastLine text :=
  Nat.le_add_right 1 _

section Owners

variable {tasks : Bool} {file source : String} {m : Manifest} {maxBlank : Int}
  (hparse : Manifest.parse tasks source = .ok m) (hlegible : m.Legible file)
  {i k : Item String} {c : DocComment}
include hparse hlegible

/-- Two items share a line of their comments if and only if they start on the same line. -/
theorem overlap_comments_iff {d : DocComment} (hk : k ∈ m.items) (hi : i ∈ m.items)
    (hordered : k.offset + k.length ≤ i.offset)
    (hd : DocComment.above (Listing.ofText file source) k.line maxBlank = some d)
    (hc : DocComment.above (Listing.ofText file source) i.line maxBlank = some c) :
    Overlap (d.first, d.last) (c.first, c.last) ↔ k.line = i.line := by
  obtain ⟨hkline, line, hline, hblank⟩ := first_line_of_item hparse hlegible hk
  obtain ⟨hiline, -⟩ := first_line_of_item hparse hlegible hi
  have hle : k.line ≤ i.line := by
    rw [hkline, hiline]
    exact placeAt_line_mono _ (by omega)
  obtain ⟨hdpos, hdle, hdlast⟩ := last_lt_of_above hd
  obtain ⟨hcpos, hcle, hclast⟩ := last_lt_of_above hc
  constructor
  · rintro ⟨n, hdn, hnd, hcn, hnc⟩
    rcases Nat.lt_or_eq_of_le hle with hlt | he
    · -- the line of the first item is code, and so it separates the two comments
      have hcode := hlegible.code k hk (k.firstLine m.text.toList) (by simp) line
        (by rw [text_of_parse hparse]; exact hline)
      rw [← hkline] at hline
      have habove := lt_first_of_above hc (by rw [hkline]; exact firstLine_pos ..) hlt hline hblank
        hcode
      omega
    · exact he
  · intro he
    rw [he] at hd
    cases hd.symm.trans hc
    exact ⟨c.first, by simp only; omega⟩

/-- The comment of an item reaches into an item before it if and only if the earlier one ends on the
line where the later one starts, and starts no later than the comment ends. -/
theorem overlap_item_iff (hk : k ∈ m.items) (hi : i ∈ m.items)
    (hordered : k.offset + k.length ≤ i.offset)
    (hc : DocComment.above (Listing.ofText file source) i.line maxBlank = some c) :
    Overlap (c.first, c.last) (k.firstLine source.toList, k.lastLine source.toList) ↔
      k.lastLine source.toList = i.line ∧ k.firstLine source.toList ≤ c.last := by
  obtain ⟨hiline, -⟩ := first_line_of_item hparse hlegible hi
  obtain ⟨line, hline, hblank⟩ := last_line_of_item hparse hlegible hk
  have hle : k.lastLine source.toList ≤ i.line := by
    rw [hiline]
    exact placeAt_line_mono _ (by omega)
  obtain ⟨hpos, hcle, hclast⟩ := last_lt_of_above hc
  constructor
  · rintro ⟨n, hcn, hnc, hkn, hnk⟩
    rcases Nat.lt_or_eq_of_le hle with hlt | he
    · have hcode := hlegible.code k hk (k.lastLine m.text.toList) (by simp) line
        (by rw [text_of_parse hparse]; exact hline)
      have habove := lt_first_of_above hc (lastLine_pos ..) hlt hline hblank hcode
      simp only at hcn hnk
      omega
    · simp only at hnc hkn
      omega
  · rintro ⟨he, hfirst⟩
    exact ⟨c.last, by simp only; omega⟩

end Owners

/-- **Which comments are shared.** In a legible manifest, every comment stands above its
declaration. Two declarations have a line of their comments in common if and only if they start on
the same line, and a comment has a line in common with an earlier item if and only if that item ends
on the line of the declaration and does not start after the comment. -/
theorem comment_shared_iff {source file : String} {options : Options} {runtime : Runtime}
    {report : Report} {records : List LogRecord} {m : Manifest}
    (h : extract source file options runtime = (.ok report, records))
    (hparse : Manifest.parse (runtime.supports "tasks") source = .ok m)
    (hlegible : m.Legible file) :
    (report.entries = [] ∨ report.entries =
      m.items.filterMap (Entry.ofItem? file options.maxBlankLines source)) ∧
    (∀ e ∈ report.entries, ∀ r ∈ e.commentLines, 1 ≤ r.1 ∧ r.1 ≤ r.2 ∧ r.2 < e.line) ∧
    (report.entries.Pairwise fun e e' => ∀ r ∈ e.commentLines, ∀ r' ∈ e'.commentLines,
      (Overlap r r' ↔ e.line = e'.line)) ∧
    ∀ before i after, m.items = before ++ i :: after →
      ∀ e ∈ Entry.ofItem? file options.maxBlankLines source i, ∀ r ∈ e.commentLines, ∀ k ∈ before,
        (Overlap r (k.firstLine source.toList, k.lastLine source.toList) ↔
          k.lastLine source.toList = e.line ∧ k.firstLine source.toList ≤ r.2) := by
  have hitems : report.entries = [] ∨ report.entries =
      m.items.filterMap (Entry.ofItem? file options.maxBlankLines source) := by
    rcases entries_of_extract h with hnone | ⟨m', hparse', hentries⟩
    · exact .inl hnone
    · cases hparse.symm.trans hparse'
      rw [text_of_parse hparse] at hentries
      exact .inr hentries
  have hordered := items_ordered hparse
  refine ⟨hitems, ?_, ?_, ?_⟩
  · intro e he r hr
    rcases hitems with hnone | hentries
    · rw [hnone] at he
      cases he
    · rw [hentries] at he
      obtain ⟨i, -, hi⟩ := List.mem_filterMap.1 he
      obtain ⟨hline, hlines⟩ := Entry.of_ofItem? hi
      rw [hlines] at hr
      obtain ⟨c, hc, rfl⟩ := Option.map_eq_some_iff.1 hr
      have hbounds := last_lt_of_above hc
      rw [hline]
      simp only
      omega
  · rcases hitems with hnone | hentries
    · rw [hnone]
      exact .nil
    · rw [hentries, List.pairwise_filterMap]
      refine hordered.imp_of_mem fun {k i} hk hi hki e he e' he' r hr r' hr' => ?_
      obtain ⟨hline, hlines⟩ := Entry.of_ofItem? he
      obtain ⟨hline', hlines'⟩ := Entry.of_ofItem? he'
      rw [hlines] at hr
      rw [hlines'] at hr'
      obtain ⟨d, hd, rfl⟩ := Option.map_eq_some_iff.1 hr
      obtain ⟨c, hc, rfl⟩ := Option.map_eq_some_iff.1 hr'
      rw [overlap_comments_iff hparse hlegible hk hi hki hd hc, hline, hline', Int.natCast_inj]
  · intro before i after hsplit e he r hr k hk
    rw [hsplit, List.pairwise_append] at hordered
    have hki := hordered.2.2 k hk i (by simp)
    obtain ⟨hline, hlines⟩ := Entry.of_ofItem? he
    rw [hlines] at hr
    obtain ⟨c, hc, rfl⟩ := Option.map_eq_some_iff.1 hr
    rw [overlap_item_iff hparse hlegible (by simp [hsplit, hk]) (by simp [hsplit]) hki hc, hline,
      Int.natCast_inj, Int.ofNat_le]

/-! ## A comment that is shared -/

/-- A class with a comment in its body, and two classes on the line where it ends. -/
def bodyComment : Manifest :=
  ⟨"class a \x7b\n# note\n\x7d class b \x7b\x7d class c \x7b\x7d",
    [⟨1, 0, 18, .definition (.hostClass "a" [] none "\n# note\n")⟩,
     ⟨3, 19, 10, .definition (.hostClass "b" [] none "")⟩,
     ⟨3, 30, 10, .definition (.hostClass "c" [] none "")⟩]⟩

theorem parse_bodyComment : Manifest.parse true bodyComment.text = .ok bodyComment := by
  decide +kernel

/-- The entries of the classes: the comment in the first documents the other two. -/
def bodyCommentEntries : List Entry :=
  [⟨"class", "a", "init.pp", 1, "class a \x7b\n# note\n\x7d", "", none, .hostClass [] none⟩,
   ⟨"class", "b", "init.pp", 3, "class b \x7b\x7d", "note", some (2, 2), .hostClass [] none⟩,
   ⟨"class", "c", "init.pp", 3, "class c \x7b\x7d", "note", some (2, 2), .hostClass [] none⟩]

theorem extract_bodyComment :
    extract bodyComment.text "init.pp" usualOptions Runtime.default =
      (.ok ⟨bodyCommentEntries, none⟩, []) := by
  have hentries : bodyComment.items.filterMap (Entry.ofItem? "init.pp" usualOptions.maxBlankLines
      bodyComment.text) = bodyCommentEntries := by
    decide +kernel
  rw [extract_usual parse_bodyComment, hentries]

theorem bodyComment_legible : bodyComment.Legible "init.pp" := by
  have hheaders : (Scan.ofText bodyComment.text).toOption.all
      (·.tokens.all (·.kind != .heredoc)) = true := by
    decide +kernel
  have hcode : ∀ i ∈ bodyComment.items, ∀ n ∈ [i.firstLine bodyComment.text.toList,
      i.lastLine bodyComment.text.toList],
        ((Listing.ofText "init.pp" bodyComment.text).lines[n - 1]?).all
          (!DocComment.isComment ·) = true := by
    decide +kernel
  constructor
  · intro scan hscan t ht hkind
    rw [hscan] at hheaders
    have hother := List.all_eq_true.1 hheaders t ht
    simp [hkind] at hother
  · intro i hi n hn line hline
    have hall := hcode i hi n hn
    rw [hline] at hall
    simpa using hall

/-- The two classes share their comment because they start on the same line. -/
theorem bodyComment_shared :
    bodyComment.Legible "init.pp" ∧
      bodyCommentEntries.Pairwise fun e e' => ∀ r ∈ e.commentLines, ∀ r' ∈ e'.commentLines,
        (Overlap r r' ↔ e.line = e'.line) :=
  ⟨bodyComment_legible,
    (comment_shared_iff extract_bodyComment parse_bodyComment bodyComment_legible).2.2.1⟩

/-- **A comment may belong to several declarations, and stand inside another**: the comment of the
second class is also that of the third, and it lies between the first and the last line of the first
class. -/
theorem comment_not_owned :
    extract bodyComment.text "init.pp" usualOptions Runtime.default =
        (.ok ⟨bodyCommentEntries, none⟩, []) ∧
      (¬ bodyCommentEntries.Pairwise fun e e' => ∀ r ∈ e.commentLines, ∀ r' ∈ e'.commentLines,
        ¬ Overlap r r') ∧
      ∃ a ∈ bodyComment.items, ∃ b ∈ bodyComment.items, a.offset + a.length ≤ b.offset ∧
        ∃ e ∈ Entry.ofItem? "init.pp" usualOptions.maxBlankLines bodyComment.text b,
          ∃ r ∈ e.commentLines, Overlap r (a.firstLine bodyComment.text.toList,
            a.lastLine bodyComment.text.toList) := by
  refine ⟨extract_bodyComment, fun hapart => ?_, ?_⟩
  · obtain ⟨hbc, -⟩ := List.pairwise_cons.1 (List.pairwise_cons.1 hapart).2
    exact hbc _ (List.mem_singleton.2 rfl) (2, 2) rfl (2, 2) rfl ⟨2, by decide⟩
  · refine ⟨_, List.mem_cons_self .., _, List.mem_cons_of_mem _ (List.mem_cons_self ..), by decide,
      bodyCommentEntries[1], by decide +kernel, (2, 2), rfl, 2, ?_⟩
    decide +kernel

end ManifestDocs
