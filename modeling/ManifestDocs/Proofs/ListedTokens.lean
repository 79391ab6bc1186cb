/-
The lines of a listing and the places of tokens agree. Both count lines, each in its own way: the
scanner goes on from line to line as it passes line breaks, in strings, comments and heredoc bodies,
and remembers where its line started; a listing splits the text at its line breaks and leaves out
the carriage returns at the ends of the lines. If no heredoc header has a line break in it, each
token is found in the listing on the line and in the column of its place (`tokens_listed`): tokens
start with a character that is not blank, and before such a character no carriage return is left
out.
-/
import ManifestDocs.Proofs.CommentOwners
import ManifestDocs.Proofs.Reports

namespace ManifestDocs

open ManifestDocs.Scanner ManifestDocs.Listing ManifestDocs.Text Grammar

/-! ## What a listing shows at a place -/

/-- On the line of the place, from its column on, stands `text`. -/
def Listing.Shows (l : Listing) (p : Place) (text : List Char) : Prop :=
  1 ≤ p.column ∧ ∃ line, l.line? p.line = some line ∧ text <+: line.toList.drop (p.column - 1)

/-- A token of a text is found in a listing: it is on one of its lines, and in its column of that
line stands the character of the text that it starts with. -/
structure Listing.Finds (l : Listing) (text : List Char) (t : Token) : Prop where
  pos : 1 ≤ t.start.line
  le_size : t.start.line ≤ l.size
  character : ∃ line c, l.line? t.start.line = some line ∧ 1 ≤ t.start.column ∧
    t.start.column ≤ line.toList.length ∧ line.toList[t.start.column - 1]? = some c ∧
    text[t.start.offset]? = some c

/-- Carriage returns are left out behind the last other character only. -/
theorem dropReturns_append {line : List Char} (h : ∀ c ∈ line.getLast?, c ≠ '\r')
    (rest : List Char) : dropReturns (line ++ rest) = line ++ dropReturns rest := by
  have hlast : ∀ c ∈ (line ++ rest.rdropWhile (· == '\r')).getLast?, (c == '\r') = false := by
    intro c hc
    rw [List.getLast?_append, Option.mem_def, Option.or_eq_some_iff] at hc
    rcases hc with hc | ⟨-, hc⟩
    · exact DocComment.rdropWhile_getLast? (· == '\r') rest c hc
    · exact beq_eq_false_iff_ne.2 (h c hc)
  have hreturns : ∀ c ∈ rest.rtakeWhile (· == '\r'), (c == '\r') = true :=
    fun c hc => List.mem_rtakeWhile_imp (p := (· == '\r')) hc
  have hdrop := (DocComment.rtakeWhile_append hreturns hlast).2
  rwa [List.append_assoc, List.rdropWhile_append_rtakeWhile] at hdrop

/-- **A stretch without line breaks is shown at its exact place**, if it does not end with a
carriage return, which might be left out. -/
theorem shows_placeAt {file source : String} {before piece after : List Char}
    (hsource : source.toList = before ++ (piece ++ after)) (hunbroken : '\n' ∉ piece)
    (hlast : ∀ c ∈ piece.getLast?, c ≠ '\r') (hne : piece ≠ []) :
    (Listing.ofText file source).Shows (placeAt source.toList before.length) piece := by
  obtain ⟨c, cs, rfl⟩ := List.exists_cons_of_ne_nil hne
  rw [List.mem_cons, not_or] at hunbroken
  have hcs : ∀ d ∈ cs, (d != '\n') = true :=
    fun d hd => bne_iff_ne.2 fun he => hunbroken.2 (he ▸ hd)
  have hat := @lineAt_placeAt before (cs ++ after) c (Ne.symm hunbroken.1)
  rw [← List.cons_append, ← hsource, List.takeWhile_append_of_pos hcs, ← List.cons_append] at hat
  -- on the line stand what is behind the last line break, the stretch, and the rest of the line
  have hline : (Listing.ofText file source).line? (placeAt source.toList before.length).line =
      some (String.ofList (dropReturns (before.rtakeWhile (· != '\n') ++
        (c :: cs ++ after.takeWhile (· != '\n'))))) := by
    have hpos : 1 ≤ (placeAt source.toList before.length).line := Nat.le_add_right 1 _
    rw [Listing.line?_of_pos _ hpos, Listing.ofText, List.getElem?_map,
      hat.getElem? (.inl (by simp))]
    rfl
  have hcolumn : (placeAt source.toList before.length).column - 1 =
      (before.rtakeWhile (· != '\n')).length := by
    have hfront := congrArg List.length
      (List.rdropWhile_append_rtakeWhile (p := (· != '\n')) (l := before))
    rw [List.length_append] at hfront
    rw [placeAt, hsource, List.take_left]
    simp only
    omega
  refine ⟨Nat.le_add_left 1 _, _, hline, ?_⟩
  rw [hcolumn, String.toList_ofList, ← List.append_assoc, dropReturns_append, List.append_assoc,
    List.drop_left]
  · exact List.prefix_append _ _
  · rw [List.getLast?_append_of_ne_nil _ hne]
    exact hlast

/-! ## Tokens -/

theorem Scanner.Runs.split {text : List Char} {scan : Scan} (h : Runs (start text) scan) {t : Token}
    (ht : t ∈ scan.tokens) :
    ∃ before after, text = before ++ (t.value.toList ++ after) ∧
      t.start.offset = before.length := by
  obtain ⟨before, after, htext, hstart, -, -⟩ := h.stands t ht
  exact ⟨before, after, htext, hstart.trans (Nat.zero_add _)⟩

section Tokens

variable (file : String) {source : String} {scan : Scan} (hscan : Scan.ofText source = .ok scan)
  (hheaders : ∀ t ∈ scan.tokens, t.kind = .heredoc → '\n' ∉ t.value.toList) {t : Token}
include hscan hheaders

theorem start_eq_placeAt (ht : t ∈ scan.tokens) :
    t.start = placeAt source.toList t.start.offset := by
  have hruns : Runs (start source.toList) scan := run_eq_ok.1 hscan
  obtain ⟨before, after, htokens⟩ := List.append_of_mem ht
  have htracked := (hruns.tracked tracks_start).1 before t after htokens
  have hseen : unseenBreaks before = 0 :=
    unseenBreaks_eq_zero_iff.2 fun u hu => hheaders u (by simp [htokens, hu])
  exact htracked.eq_placeAt_iff.2 (by rw [hseen])

/-- The start of a token is shown at its place. -/
theorem shows_start (ht : t ∈ scan.tokens) {piece rest : List Char}
    (hvalue : t.value.toList = piece ++ rest) (hne : piece ≠ [])
    (hplain : ∀ c ∈ piece, isBlank c = false) :
    (Listing.ofText file source).Shows t.start piece := by
  obtain ⟨before, after, hwhole, hoffset⟩ := (run_eq_ok.1 hscan).split ht
  have hsource : source.toList = before ++ (piece ++ (rest ++ after)) := by
    rw [← List.append_assoc piece, ← hvalue]
    exact hwhole
  rw [start_eq_placeAt hscan hheaders ht, hoffset]
  refine shows_placeAt hsource (fun hmem => ?_) (fun c hc => ?_) hne
  · exact absurd (hplain _ hmem) (by decide)
  · rintro rfl
    exact absurd (hplain _ (List.mem_of_getLast? hc)) (by decide)

theorem finds_token (ht : t ∈ scan.tokens) :
    (Listing.ofText file source).Finds source.toList t := by
  obtain ⟨c, cs, hvalue, hc⟩ := (run_eq_ok.1 hscan).head_not_blank t ht
  have hsplit : t.value.toList = [c] ++ cs := hvalue
  obtain ⟨hcolumn, line, hline, more, hmore⟩ : (Listing.ofText file source).Shows t.start [c] :=
    shows_start file hscan hheaders ht hsplit (List.cons_ne_nil c []) (by simpa using hc)
  have hchar : line.toList[t.start.column - 1]? = some c := by
    rw [← List.head?_drop, ← hmore]
    rfl
  obtain ⟨before, after, hwhole, hoffset⟩ := (run_eq_ok.1 hscan).split ht
  have hsource : source.toList[t.start.offset]? = some c := by
    rw [hoffset, hwhole, hvalue, List.getElem?_append_right (Nat.le_refl _), Nat.sub_self]
    rfl
  have hlt := (List.getElem?_eq_some_iff.1 hchar).1
  have hsize := Listing.le_size_of_line? hline
  exact ⟨by omega, by omega, line, c, hline, hcolumn, by omega, hchar, hsource⟩

end Tokens

/-! ## Entries -/

/-- The keyword of a declaration that has an entry of this form. -/
def Entry.Form.keyword? : Entry.Form → Option Keyword
  | .hostClass .. => some .hostClass
  | .definedType _ => some .definedType
  | .function .. => some .function
  | .plan _ => some .plan
  | .typeAlias _ => some .typeAlias
  | .plain | .parameterized _ | .resourceType _ => none

theorem Entry.keyword?_of_sort? {form : ManifestDocs.Form String} {kind name : String}
    {form' : Entry.Form} (h : Entry.sort? form = some (kind, name, form')) :
    ∃ d, form = .definition d ∧ form'.keyword? = some d.keyword := by
  cases form with
  | expression => cases h
  | definition d =>
    refine ⟨d, rfl, ?_⟩
    cases d with
    | node => cases h
    | _ =>
      cases h
      rfl

theorem Documents.of_ofItem? {file source : String} {maxBlank : Int} {i : Item String} {e : Entry}
    (h : Entry.ofItem? file maxBlank source i = some e)
    (begins : ∀ d, i.form = .definition d →
      d.keyword.word.toList <+: (i.source source.toList).toList) :
    Documents file maxBlank source i e := by
  cases hi : i.documented with
  | false =>
    rw [Entry.ofItem?_eq_none hi] at h
    cases h
  | true =>
    obtain ⟨e', he', hdocuments⟩ := Entry.ofItem?_documents file maxBlank hi begins
    cases h.symm.trans he'
    exact hdocuments

/-- The first token of a definition is its keyword, and the definition stands where it does. -/
theorem keyword_of_item {tasks : Bool} {source : String} {m : Manifest} {scan : Scan}
    (hparse : Manifest.parse tasks source = .ok m) (hscan : Scan.ofText source = .ok scan)
    {i : Item String} (hi : i ∈ m.items) {d : Definition String} (hd : i.form = .definition d) :
    ∃ t ∈ scan.tokens, t.isName d.keyword.word = true ∧ i.line = t.start.line ∧
      i.offset = t.start.offset := by
  obtain ⟨scan', is, hscan', his, rfl⟩ := parse_eq_ok.1 hparse
  cases hscan'.symm.trans hscan
  obtain ⟨j, hj, rfl⟩ := List.mem_map.1 hi
  obtain ⟨before, group, after, htokens, -, hgroup⟩ := his.stretch hj
  cases hgroup with
  | expression => cases hd
  | @definition t ts _ d' stop hd' =>
    cases hd
    refine ⟨t, by simp [htokens], ?_, rfl, rfl⟩
    rw [Definition.keyword_map]
    exact hd'.keyword

theorem keyword_not_blank (keyword : Keyword) :
    keyword.word.toList ≠ [] ∧ ∀ c ∈ keyword.word.toList, isBlank c = false := by
  have hall : keyword.word.toList.all (!isBlank ·) = true := by cases keyword <;> decide
  refine ⟨by cases keyword <;> decide, fun c hc => ?_⟩
  simpa using List.all_eq_true.1 hall c hc

/-- **The scanner and the listing agree on where tokens are.** If a text scans and no heredoc header
has a line break in it, each token is on a line of the listing, and in its column is the character
of the text that the token starts with. So each entry of a report has the line on which the listing
shows its keyword, where its source begins, and its comment stands on lines above that one. -/
theorem tokens_listed (file : String) {source : String} {scan : Scan}
    (hscan : Scan.ofText source = .ok scan)
    (hheaders : ∀ t ∈ scan.tokens, t.kind = .heredoc → '\n' ∉ t.value.toList) :
    (∀ t ∈ scan.tokens, (Listing.ofText file source).Finds source.toList t) ∧
    ∀ options runtime report records, extract source file options runtime = (.ok report, records) →
      ∀ e ∈ report.entries,
        (∃ keyword, e.form.keyword? = some keyword ∧ ∃ t ∈ scan.tokens,
          t.isName keyword.word = true ∧ e.line = t.start.line ∧
          (Listing.ofText file source).Shows t.start keyword.word.toList ∧
          e.source.toList <+: source.toList.drop t.start.offset) ∧
        e.line ≤ (Listing.ofText file source).size ∧
        ∀ r ∈ e.commentLines, 1 ≤ r.1 ∧ r.1 ≤ r.2 ∧ r.2 < e.line := by
  refine ⟨fun t ht => finds_token file hscan hheaders ht, ?_⟩
  intro options runtime report records h e he
  rcases entries_of_extract h with hnone | ⟨m, hparse, hentries⟩
  · rw [hnone] at he
    cases he
  · rw [hentries, text_of_parse hparse] at he
    obtain ⟨i, hi, hentry⟩ := List.mem_filterMap.1 he
    have hdocuments := Documents.of_ofItem? hentry fun d hd => source_begins hparse hi hd
    obtain ⟨d, hd, hkeyword⟩ := Entry.keyword?_of_sort? hdocuments.sort
    obtain ⟨t, ht, hname, hstart, hoffset⟩ := keyword_of_item hparse hscan hi hd
    have hline : e.line = t.start.line := by rw [hdocuments.atLine, hstart]
    have hshows : (Listing.ofText file source).Shows t.start d.keyword.word.toList := by
      obtain ⟨hne, hplain⟩ := keyword_not_blank d.keyword
      have hvalue : t.value.toList = d.keyword.word.toList ++ [] := by
        rw [List.append_nil, (isName_iff.1 hname).2]
      exact shows_start file hscan hheaders ht hvalue hne hplain
    refine ⟨⟨d.keyword, hkeyword, t, ht, hname, hline, hshows, ?_⟩, ?_, ?_⟩
    · rw [hdocuments.characters, ← hoffset, Item.source, Span.excerpt, String.toList_ofList]
      exact List.take_prefix _ _
    · have hsize := (finds_token file hscan hheaders ht).le_size
      omega
    · intro r hr
      rw [hdocuments.commentLines] at hr
      obtain ⟨c, hc, rfl⟩ := Option.map_eq_some_iff.1 hr
      have hbounds := last_lt_of_above hc
      rw [hdocuments.atLine]
      simp only
      omega

/-- A string over two lines, a form feed, carriage returns, and a class with a comment. -/
def mixedBreaks : Manifest :=
  ⟨"'a\nb' \x0c\r\n# Doc\r\n class k \x7b\x7d\r\n",
    [⟨1, 0, 5, .expression⟩, ⟨4, 17, 10, .definition (.hostClass "k" [] none "")⟩]⟩

/-- Its tokens. -/
def mixedBreaksScan : Scan :=
  ⟨[⟨.string, "'a\nb'", ⟨0, 1, 1⟩, 5⟩, ⟨.name, "class", ⟨17, 4, 2⟩, 22⟩,
    ⟨.name, "k", ⟨23, 4, 8⟩, 24⟩, ⟨opening .curly, "\x7b", ⟨25, 4, 10⟩, 26⟩,
    ⟨closing .curly, "\x7d", ⟨26, 4, 11⟩, 27⟩], ⟨29, 5, 1⟩⟩

/-- The entry of the class. -/
def mixedBreaksEntry : Entry :=
  ⟨"class", "k", "k.pp", 4, "class k \x7b\x7d", "Doc", some (3, 3), .hostClass [] none⟩

/-- The class stands on the fourth line, and its comment above it. -/
theorem tokens_listed_mixedBreaks :
    Scan.ofText mixedBreaks.text = .ok mixedBreaksScan ∧
      (∀ t ∈ mixedBreaksScan.tokens, t.kind = .heredoc → '\n' ∉ t.value.toList) ∧
      extract mixedBreaks.text "k.pp" usualOptions Runtime.default =
        (.ok ⟨[mixedBreaksEntry], none⟩, []) ∧
      (∀ t ∈ mixedBreaksScan.tokens,
        (Listing.ofText "k.pp" mixedBreaks.text).Finds mixedBreaks.text.toList t) ∧
      ∃ keyword, mixedBreaksEntry.form.keyword? = some keyword ∧ ∃ t ∈ mixedBreaksScan.tokens,
        t.start.line = 4 ∧
          (Listing.ofText "k.pp" mixedBreaks.text).Shows t.start keyword.word.toList := by
  have hscan : Scan.ofText mixedBreaks.text = .ok mixedBreaksScan := by decide +kernel
  have hheaders : ∀ t ∈ mixedBreaksScan.tokens, t.kind = .heredoc → '\n' ∉ t.value.toList := by
    decide
  have hparse : Manifest.parse true mixedBreaks.text = .ok mixedBreaks := by decide +kernel
  have hentries : mixedBreaks.items.filterMap (Entry.ofItem? "k.pp" usualOptions.maxBlankLines
      mixedBreaks.text) = [mixedBreaksEntry] := by
    decide +kernel
  have hextract : extract mixedBreaks.text "k.pp" usualOptions Runtime.default = _ :=
    extract_usual hparse
  rw [hentries] at hextract
  obtain ⟨hfinds, hreport⟩ := tokens_listed "k.pp" hscan hheaders
  obtain ⟨⟨keyword, hkeyword, t, ht, -, hline, hshows, -⟩, -, -⟩ :=
    hreport _ _ _ _ hextract mixedBreaksEntry (List.mem_singleton.2 rfl)
  have hfour : (4 : Int) = t.start.line := hline
  exact ⟨hscan, hheaders, hextract, hfinds, keyword, hkeyword, t, ht, by omega, hshows⟩

end ManifestDocs
