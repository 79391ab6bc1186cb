/-
Documentation, written and read back. Classes with the lines of their documentation are written one
after the other, each with its lines as a comment above it. The text is read back row by row: a row
of a comment makes no token, the rows of a class make the tokens of its definition (`reads_class`),
and the comment above the class is found to be its own rows (`above_docRows`), because the class
before ends with a brace and an empty row. So the entries of the text are the classes again, with
their documentation and its lines (`extract_writeAll`).
-/
import ManifestDocs.Proofs.CommentBlocks
import ManifestDocs.Proofs.Documented
import ManifestDocs.Proofs.Lines
import ManifestDocs.Proofs.Partition
import ManifestDocs.Proofs.Printing

namespace ManifestDocs

open ManifestDocs.Listing ManifestDocs.Grammar

/-! ## What is written -/

/-- A class and the lines of its documentation. -/
structure ClassDoc where
  name : String
  lines : List String
deriving DecidableEq, Repr

namespace ClassDoc

/-- What is written for a class: its documentation as comment lines, the class with nothing in it,
and an empty line. -/
def write (c : ClassDoc) : String :=
  String.join (c.lines.map fun l => "# " ++ l ++ "\n") ++
    ("class " ++ c.name ++ " \x7b\n\x7d\n\n")

/-- What is written for several classes. -/
def writeAll (cs : List ClassDoc) : String :=
  String.join (cs.map write)

/-- The name of a class is a name. Its documentation does not end with an empty line, and no line of
it has a line break in it or blanks at its end. -/
structure WellFormed (c : ClassDoc) : Prop where
  name : Printing.IsToken [.name] c.name
  unbroken : ∀ l ∈ c.lines, '\n' ∉ l.toList
  trimmed : ∀ l ∈ c.lines, Text.trimEnd l.toList = l.toList
  saying : c.lines.getLast? ≠ some ""

/-- The entry of a class that is written after `n` lines. -/
def entry (file : String) (n : Nat) (c : ClassDoc) : Entry where
  kind := "class"
  name := c.name
  file := file
  line := n + c.lines.length + 1
  source := "class " ++ c.name ++ " \x7b\n\x7d"
  comment := "\n".intercalate c.lines
  commentLines := if c.lines = [] then none else some (n + 1, n + c.lines.length)
  form := .hostClass [] none

/-- The entries of classes that are written after `n` lines, each of which takes three lines and
those of its documentation. -/
def entries (file : String) : Nat → List ClassDoc → List Entry
  | _, [] => []
  | n, c :: cs => c.entry file n :: entries file (n + c.lines.length + 3) cs

/-! ## Rows -/

/-- The row of a line of documentation. -/
def docRow (l : String) : List Char :=
  '#' :: ' ' :: l.toList

/-- The row of the keyword and the name of a class, with the opening brace. -/
def headRow (name : String) : List Char :=
  ("class " ++ name ++ " \x7b").toList

/-- The rows of a class without its documentation. -/
def classRows (name : String) : List (List Char) :=
  [headRow name, ['\x7d'], []]

/-- All rows of a class. -/
def rows (c : ClassDoc) : List (List Char) :=
  c.lines.map docRow ++ classRows c.name

theorem toList_write (c : ClassDoc) : c.write.toList = ended c.rows := by
  have hdocs : (String.join (c.lines.map fun l => "# " ++ l ++ "\n")).toList =
      ended (c.lines.map docRow) := by
    simp [ended, docRow, String.toList_join, List.flatMap_map]
  rw [write, String.toList_append, hdocs, rows, ended_append]
  simp [classRows, headRow]

theorem toList_writeAll (cs : List ClassDoc) : (writeAll cs).toList = ended (cs.flatMap rows) := by
  rw [writeAll, String.toList_join]
  induction cs with
  | nil => rfl
  | cons c cs ih =>
    rw [List.map_cons, List.flatMap_cons, ih, List.flatMap_cons, ended_append, toList_write]

end ClassDoc

/-! ## Reading rows -/

namespace Scanner

open ManifestDocs.Piece ManifestDocs.ClassDoc

variable (k : Cursor) (previous : Option Token) (tail : List Char)

theorem reads_newline :
    Reads ⟨'\n' :: tail, k, [], previous⟩ [] ⟨tail, k.next '\n', [], previous⟩ :=
  .step (t := none) .newline rfl .refl

theorem reads_gap {c : Char} (hc : isGap c = true) :
    Reads ⟨c :: tail, k, [], previous⟩ [] ⟨tail, k.next c, [], previous⟩ :=
  .step (t := none) (.gap hc) rfl .refl

/-- A lexeme that is told whatever came before makes its token. -/
theorem reads_lexeme {kind : Token.Kind} {text : List Char}
    (h : ∀ operand, First operand (text ++ tail) (.lexeme kind text) tail) :
    ∃ t : Token, Reads ⟨text ++ tail, k, [], previous⟩ [t] ⟨tail, k.past text, [], some t⟩ ∧
      t = ⟨kind, String.ofList text, k.place, k.offset + text.length⟩ :=
  ⟨_, .step (t := some _) (h _) rfl .refl, rfl⟩

/-- A comment row makes no token. -/
theorem reads_commentRow {row : List Char} (h : '\n' ∉ row) :
    Reads ⟨'#' :: (row ++ '\n' :: tail), k, [], previous⟩ []
      ⟨tail, k.past ('#' :: (row ++ ['\n'])), [], previous⟩ := by
  have hall : ∀ c ∈ row, (c != '\n') = true := by
    intro c hc
    simpa using fun he : c = '\n' => h (he ▸ hc)
  have hrun : Lexeme.run (· != '\n') (row ++ '\n' :: tail) = (row, '\n' :: tail) := by
    rw [Lexeme.run, List.takeWhile_append_of_pos hall, List.dropWhile_append_of_pos hall]
    simp
  have hcomment : First (wantsOperand ⟨'#' :: (row ++ '\n' :: tail), k, [], previous⟩)
      ('#' :: (row ++ '\n' :: tail)) (.comment ('#' :: row)) ('\n' :: tail) := by
    have hfirst := @First.lineComment (wantsOperand ⟨'#' :: (row ++ '\n' :: tail), k, [], previous⟩)
      (row ++ '\n' :: tail)
    rwa [hrun] at hfirst
  have hpast : k.past ('#' :: (row ++ ['\n'])) = (k.past ('#' :: row)).next '\n' := by
    rw [← List.cons_append, Cursor.past_append]
    rfl
  rw [hpast]
  exact .step (t := none) hcomment rfl (reads_newline ..)

/-- The rows of the documentation make no token. -/
theorem reads_docRows {lines : List String} (h : ∀ l ∈ lines, '\n' ∉ l.toList) :
    Reads ⟨ended (lines.map docRow) ++ tail, k, [], previous⟩ []
      ⟨tail, k.past (ended (lines.map docRow)), [], previous⟩ := by
  induction lines generalizing k with
  | nil => exact .refl
  | cons l ls ih =>
    have hrow : '\n' ∉ ' ' :: l.toList := by simpa using h l (by simp)
    have hmore := ih (k.past (docRow l ++ ['\n'])) fun l' hl' => h l' (by simp [hl'])
    rw [← Cursor.past_append] at hmore
    have hwhole := (reads_commentRow k previous _ hrow).trans hmore
    simpa [docRow] using hwhole

/-- The rows of a class make four tokens. -/
theorem reads_class {name : String} (hname : Printing.IsToken [.name] name) :
    ∃ t₁ t₂ t₃ t₄ : Token, Reads ⟨ended (classRows name) ++ tail, k, [], previous⟩ [t₁, t₂, t₃, t₄]
        ⟨tail, k.past (ended (classRows name)), [], some t₄⟩ ∧
      t₁.isName "class" = true ∧ t₁.start = k.place ∧
      t₂.kind = .name ∧ t₂.value = name ∧
      t₃.kind = opening .curly ∧ t₃.stop = k.offset + (headRow name).length ∧
      t₄.kind = closing .curly ∧ t₄.start.offset = k.offset + (headRow name).length + 1 ∧
      t₄.stop = k.offset + (headRow name).length + 2 := by
  have hkeyword : First true "class".toList (.lexeme .name "class".toList) [] :=
    Printing.first_of_name (Printing.isToken_keyword .hostClass)
  have hname := Printing.first_of_name hname
  have hopening (operand : Bool) (more : List Char) : First operand (['\x7b'] ++ more)
      (.lexeme (opening .curly) ['\x7b']) more := by
    exact .operator rfl rfl rfl (fun he => nomatch he) rfl
  have hclosing (operand : Bool) (more : List Char) : First operand (['\x7d'] ++ more)
      (.lexeme (closing .curly) ['\x7d']) more := by
    exact .operator rfl rfl rfl (fun he => nomatch he) rfl
  obtain ⟨t₁, h₁, ht₁⟩ := reads_lexeme k previous _ fun operand => hkeyword.name_space operand
    (name.toList ++ ' ' :: '\x7b' :: '\n' :: '\x7d' :: '\n' :: '\n' :: tail)
  obtain ⟨t₂, h₂, ht₂⟩ := reads_lexeme ((k.past "class".toList).next ' ') (some t₁) _
    fun operand => hname.name_space operand ('\x7b' :: '\n' :: '\x7d' :: '\n' :: '\n' :: tail)
  obtain ⟨t₃, h₃, ht₃⟩ := reads_lexeme
    ((((k.past "class".toList).next ' ').past name.toList).next ' ') (some t₂) _
    fun operand => hopening operand ('\n' :: '\x7d' :: '\n' :: '\n' :: tail)
  obtain ⟨t₄, h₄, ht₄⟩ := reads_lexeme
    ((((((k.past "class".toList).next ' ').past name.toList).next ' ').past ['\x7b']).next '\n')
    (some t₃) _ fun operand => hclosing operand ('\n' :: '\n' :: tail)
  have hspace : isGap ' ' = true := by decide
  have hhead := (h₁.trans (reads_gap _ _ _ hspace)).trans (h₂.trans (reads_gap _ _ _ hspace))
  have hbraces := (h₃.trans (reads_newline ..)).trans
    ((h₄.trans (reads_newline ..)).trans (reads_newline ..))
  have hreads := hhead.trans hbraces
  have hlength : (headRow name).length = name.toList.length + 8 := by simp [headRow]
  refine ⟨t₁, t₂, t₃, t₄, by simpa [classRows, headRow] using hreads, ?_⟩
  simp only [ht₁, ht₂, ht₃, ht₄, hlength, Token.isName, Cursor.place, Cursor.next_offset,
    Cursor.past_offset]
  refine ⟨by simp, trivial, trivial, by simp, trivial, ?_, trivial, ?_, ?_⟩
  all_goals simp; omega

/-! ## The items of the text -/

/-- The item of a class whose rows start at the cursor `k`. -/
def classItem (k : Cursor) (name : String) : Item Span :=
  let opened := k.offset + (headRow name).length
  ⟨k.line, k.offset, (headRow name).length + 2,
    .definition (.hostClass name [] none ⟨opened, opened + 1⟩)⟩

/-- The items of classes that are written from the cursor `k` on. -/
def classItems : Cursor → List ClassDoc → List (Item Span)
  | _, [] => []
  | k, c :: cs =>
    classItem (k.past (ended (c.lines.map docRow))) c.name :: classItems (k.past (ended c.rows)) cs

theorem reads_classItem {name : String} (hname : Printing.IsToken [.name] name) :
    ∃ ts previous', Reads ⟨ended (classRows name) ++ tail, k, [], previous⟩ ts
        ⟨tail, k.past (ended (classRows name)), [], previous'⟩ ∧
      ∀ tasks rest, IsItem tasks ts rest (classItem k name) := by
  obtain ⟨t₁, t₂, t₃, t₄, hreads, hkeyword, hstart, hkind, rfl, hopening, hstop, hclosing, hlast,
    hend⟩ := reads_class k previous tail hname
  refine ⟨_, _, hreads, fun tasks rest => ?_⟩
  have hbody : IsBlock [t₃, t₄] (⟨t₃.stop, t₄.start.offset⟩, t₄) :=
    .mk (.mk hopening .nil hclosing)
  have hdefinition : IsDefinition tasks [t₁, t₂, t₃, t₄] rest
      (.hostClass t₂.value [] none ⟨t₃.stop, t₄.start.offset⟩, t₄.stop) :=
    .hostClass hkeyword hkind .absent .none hbody
  have hitem := IsItem.definition hdefinition
  have hlength : t₄.stop - t₁.start.offset = (headRow t₂.value).length + 2 := by
    simp only [hend, hstart, Cursor.place]
    omega
  rw [itemAt, hlength, hstart, hstop, hlast] at hitem
  exact hitem

/-- **The text scans to the items of its classes.** -/
theorem reads_classItems {cs : List ClassDoc} (h : ∀ c ∈ cs, c.WellFormed) (tasks : Bool) :
    ∃ ts previous', Reads ⟨ended (cs.flatMap rows), k, [], previous⟩ ts
        ⟨[], k.past (ended (cs.flatMap rows)), [], previous'⟩ ∧
      AreItems tasks ts (classItems k cs) := by
  induction cs generalizing k previous with
  | nil => exact ⟨[], previous, .refl, .nil⟩
  | cons c cs ih =>
    obtain ⟨hname, hunbroken, -, -⟩ := h c (by simp)
    have hdocs := reads_docRows k previous (ended (classRows c.name) ++ ended (cs.flatMap rows))
      hunbroken
    obtain ⟨ts, previous₁, hclass, hitem⟩ := reads_classItem
      (k.past (ended (c.lines.map docRow))) previous (ended (cs.flatMap rows)) hname
    obtain ⟨us, previous₂, hmore, hitems⟩ :=
      ih (k.past (ended c.rows)) previous₁ fun d hd => h d (by simp [hd])
    have hrows : ended c.rows = ended (c.lines.map docRow) ++ ended (classRows c.name) :=
      ended_append ..
    rw [← Cursor.past_append, ← hrows] at hclass
    have hwhole := hdocs.trans (hclass.trans hmore)
    rw [List.nil_append, ← List.append_assoc, ← hrows, ← ended_append, ← Cursor.past_append,
      ← ended_append, ← List.flatMap_cons] at hwhole
    exact ⟨ts ++ us, previous₂, hwhole, .cons (hitem tasks us) hitems⟩

end Scanner

theorem parse_writeAll {cs : List ClassDoc} (h : ∀ c ∈ cs, c.WellFormed) (tasks : Bool) :
    Manifest.parse tasks (ClassDoc.writeAll cs) = .ok ⟨ClassDoc.writeAll cs,
      (Scanner.classItems Cursor.start cs).map
        (·.map (Span.excerpt (ClassDoc.writeAll cs).toList))⟩ := by
  obtain ⟨ts, previous, hreads, hitems⟩ :=
    Scanner.reads_classItems Cursor.start none h tasks
  rw [← ClassDoc.toList_writeAll] at hreads
  have hruns := hreads.runs (.stop rfl rfl)
  rw [List.append_nil] at hruns
  exact parse_eq_ok.2 ⟨_, _, Scanner.run_eq_ok.2 hruns, hitems, rfl⟩

/-! ## The comment above a class -/

namespace ClassDoc

open ManifestDocs.DocComment

/-- A row as a line of a listing. -/
def listed (row : List Char) : String :=
  String.ofList (dropReturns row)

/-- Rows after which a comment starts anew: none, or rows that end with a brace and an empty row. -/
def Separated (front : List (List Char)) : Prop :=
  front = [] ∨ ∃ more, front = more ++ [['\x7d'], []]

theorem separated_rows (c : ClassDoc) (front : List (List Char)) : Separated (front ++ c.rows) :=
  .inr ⟨front ++ (c.lines.map docRow ++ [headRow c.name]), by simp [rows, classRows]⟩

/-- The row of a trimmed line is listed as it is. -/
theorem listed_docRow {l : String} (h : Text.trimEnd l.toList = l.toList) :
    listed (docRow l) = String.ofList (docRow l) := by
  have hrow : (docRow l).rdropWhile (· == '\r') = docRow l := by
    rw [List.rdropWhile_eq_self_iff]
    intro hne
    by_cases hl : l.toList = []
    · simp [docRow, hl]
    · have hlast := List.rdropWhile_eq_self_iff.1 h hl
      have hgetLast : (docRow l).getLast hne = l.toList.getLast hl := by
        simp [docRow, hl]
      rw [hgetLast, beq_iff_eq]
      intro hreturn
      rw [hreturn] at hlast
      exact hlast (by decide)
  rw [listed]
  exact congrArg String.ofList hrow

theorem content?_docRow (l : String) : content? (docRow l) = some l.toList := by
  have hsign : Text.isBlank '#' = false := by decide
  simp [content?, docRow, Text.trimStart, hsign]

theorem isComment_docRow {l : String} (h : Text.trimEnd l.toList = l.toList) :
    isComment (listed (docRow l)) = true ∧ remark (listed (docRow l)) = l.toList := by
  rw [listed_docRow h, isComment, remark, String.toList_ofList, content?_docRow]
  exact ⟨rfl, h⟩

/-- Documentation does not end with an empty line, so that all of it is kept. -/
theorem dropEmptyEnd_lines {c : ClassDoc} (h : c.WellFormed) :
    dropEmptyEnd (c.lines.map String.toList) = c.lines.map String.toList := by
  show (c.lines.map String.toList).rdropWhile List.isEmpty = _
  rw [List.rdropWhile_eq_self_iff]
  intro hne hempty
  have hlast : (c.lines.map String.toList).getLast? = some [] := by
    rw [List.getLast?_eq_some_getLast hne, List.isEmpty_iff.1 hempty]
  rw [List.getLast?_map, Option.map_eq_some_iff] at hlast
  obtain ⟨l, hl, hnil⟩ := hlast
  rw [String.toList_eq_nil_iff] at hnil
  exact h.saying (hnil ▸ hl)

/-- No comment stands above a class without documentation: the lines above it end with a brace and
an empty line. -/
theorem not_attached {front : List (List Char)} (hfront : Separated front) {maxBlank : Int}
    {d : DocComment} : ¬ Attached maxBlank (front.map listed) d := by
  intro hattached
  obtain ⟨hfirst, hle, hlast⟩ := hattached.bounds
  rcases hfront with rfl | ⟨more, rfl⟩
  · simp at hlast
    omega
  · have hbrace : (List.map listed (more ++ [['\x7d'], []]))[more.length + 1 - 1]? =
        some (listed ['\x7d']) := by
      simp
    have hempty : (List.map listed (more ++ [['\x7d'], []]))[more.length + 2 - 1]? =
        some (listed []) := by
      simp
    have habove := hattached.lt_first (by omega) hbrace (by decide) (by decide)
    simp only [List.length_map, List.length_append, List.length_cons, List.length_nil] at hlast
    obtain ⟨line, hline, hcomment⟩ :=
      hattached.isComment (n := more.length + 2) (by omega) (by omega)
    rw [hempty] at hline
    cases hline
    exact absurd hcomment (by decide)

theorem Separated.apart {front : List (List Char)} (h : Separated front) :
    ∀ l ∈ (front.map listed).getLast?, isComment l = false := by
  rcases h with rfl | ⟨more, rfl⟩
  · simp
  · simp only [List.map_append, List.map_cons, List.map_nil, List.getLast?_append,
      List.getLast?_cons_cons, List.getLast?_singleton, Option.some_or, Option.mem_some_iff]
    rintro l rfl
    decide

/-- The comment above a class is its documentation. -/
theorem above_docRows {c : ClassDoc} (h : c.WellFormed) {listing : Listing}
    {front : List (List Char)} {number maxBlank : Int} (hblank : 0 ≤ maxBlank)
    (hfront : Separated front)
    (hlines : listing.lines.take (number - 1).toNat = (front ++ c.lines.map docRow).map listed) :
    above listing number maxBlank = if c.lines = [] then none else
      some ⟨"\n".intercalate c.lines, front.length + 1, front.length + c.lines.length⟩ := by
  split
  · next hnone =>
    rw [hnone, List.map_nil, List.append_nil] at hlines
    rw [Option.eq_none_iff_forall_ne_some]
    intro d hd
    rw [above_eq_some_iff, hlines] at hd
    exact not_attached hfront hd
  · next hsome =>
    have hremarks : (c.lines.map (listed ∘ docRow)).map remark = c.lines.map String.toList := by
      rw [List.map_map, List.map_inj_left]
      intro l hl
      simp only [Function.comp_apply, (isComment_docRow (h.trimmed l hl)).2]
    have hkept : dropEmptyEnd ((c.lines.map (listed ∘ docRow)).map remark) =
        c.lines.map String.toList := by
      rw [hremarks, dropEmptyEnd_lines h]
    have hcomments : ∀ l ∈ c.lines.map (listed ∘ docRow), isComment l = true := by
      rw [List.forall_mem_map]
      intro l hl
      simp only [Function.comp_apply, (isComment_docRow (h.trimmed l hl)).1]
    have hsaying : dropEmptyEnd ((c.lines.map (listed ∘ docRow)).map remark) ≠ [] := by
      rw [hkept]
      simpa using hsome
    have hnone : ∀ l ∈ ([] : List String), isBlankText l = true := by simp
    have hattached := Attached.mk hnone hblank hcomments hfront.apart hsaying
    have htext : String.ofList (['\n'].intercalate (c.lines.map String.toList)) =
        "\n".intercalate c.lines := by
      rw [← String.ofList_toList (s := "\n".intercalate c.lines), String.toList_intercalate]
      rfl
    rw [hkept, htext, List.append_nil, List.length_map, List.length_map] at hattached
    rw [above_eq_some_iff, hlines, List.map_append, List.map_map]
    exact hattached

/-! ## The entries of the text -/

theorem docRows_unbroken {c : ClassDoc} (h : c.WellFormed) :
    ∀ row ∈ c.lines.map docRow, '\n' ∉ row := by
  rw [List.forall_mem_map]
  intro l hl
  simpa [docRow] using h.unbroken l hl

theorem rows_unbroken {c : ClassDoc} (h : c.WellFormed) : ∀ row ∈ c.rows, '\n' ∉ row := by
  have hname : '\n' ∉ c.name.toList := (Printing.first_of_name h.name).unbroken (by simp)
  refine List.forall_mem_append.2 ⟨docRows_unbroken h, fun row hrow => ?_⟩
  simp only [classRows, List.mem_cons, List.not_mem_nil, or_false] at hrow
  rcases hrow with rfl | rfl | rfl
  · simpa [headRow] using hname
  · decide
  · decide

section Item

variable {c : ClassDoc} {front back : List (List Char)} {source : String} {maxBlank : Int}

/-- The source of a class is what is written for it, without the comment and the line breaks after
it. -/
theorem source_classItem {ε : Type} {k : Cursor} {i : Item ε}
    (hk : k = Cursor.start.past (ended (front ++ c.lines.map docRow)))
    (hoffset : i.offset = k.offset) (hlength : i.length = (headRow c.name).length + 2)
    (hsource : source.toList = ended (front ++ c.rows ++ back)) :
    i.source source.toList = "class " ++ c.name ++ " \x7b\n\x7d" := by
  have hwhole : source.toList = ended (front ++ c.lines.map docRow) ++
      ((headRow c.name ++ ['\n', '\x7d']) ++ '\n' :: ended ([] :: back)) := by
    rw [hsource]
    simp [rows, classRows, ended_append]
  have hstart : i.offset = (ended (front ++ c.lines.map docRow)).length := by
    rw [hoffset, hk, Cursor.past_offset, Cursor.start, Nat.zero_add]
  have hstop : i.offset + i.length - i.offset = (headRow c.name ++ ['\n', '\x7d']).length := by
    rw [Nat.add_sub_cancel_left, hlength, List.length_append]
    rfl
  have htext : String.ofList (headRow c.name ++ ['\n', '\x7d']) =
      "class " ++ c.name ++ " \x7b\n\x7d" := by
    rw [← String.toList_inj]
    simp [headRow]
  rw [Item.source, Span.excerpt, hstop, hstart, hwhole, List.drop_left, List.take_left, htext]

/-- The entry of a class among others. -/
theorem ofItem?_classItem (file : String) (h : c.WellFormed) (hblank : 0 ≤ maxBlank)
    (hsep : Separated front) (hfront : ∀ row ∈ front, '\n' ∉ row)
    (hsource : source.toList = ended (front ++ c.rows ++ back)) :
    Entry.ofItem? file maxBlank source ((Scanner.classItem
      (Cursor.start.past (ended (front ++ c.lines.map docRow))) c.name).map
        (Span.excerpt source.toList)) = some (c.entry file front.length) := by
  have hunbroken : ∀ row ∈ front ++ c.lines.map docRow, '\n' ∉ row :=
    List.forall_mem_append.2 ⟨hfront, docRows_unbroken h⟩
  have hline : (Cursor.start.past (ended (front ++ c.lines.map docRow))).line =
      front.length + c.lines.length + 1 := by
    rw [Cursor.past_line, count_ended hunbroken, List.length_append, List.length_map, Cursor.start,
      Nat.add_comm]
  have hlines : (Listing.ofText file source).lines.take
      ((front.length + c.lines.length + 1 : Nat) - 1 : Int).toNat =
        (front ++ c.lines.map docRow).map listed := by
    have hnumber : ((front.length + c.lines.length + 1 : Nat) - 1 : Int).toNat =
        (front ++ c.lines.map docRow).length := by
      simp only [List.length_append, List.length_map]
      omega
    have hsplit : source.toList = ended (front ++ c.lines.map docRow) ++
        ended (classRows c.name ++ back) := by
      rw [hsource]
      simp [rows, ended_append]
    rw [hnumber, Listing.ofText, hsplit, splitLines_ended hunbroken, List.map_append,
      List.take_left' (List.length_map _)]
    rfl
  have hcomment := above_docRows h hblank hsep hlines
  generalize hi : (Scanner.classItem (Cursor.start.past (ended (front ++ c.lines.map docRow)))
    c.name).map (Span.excerpt source.toList) = i
  have hwritten : i.source source.toList = "class " ++ c.name ++ " \x7b\n\x7d" := by
    rw [← hi]
    exact source_classItem rfl rfl rfl hsource
  have hnumber : i.line = front.length + c.lines.length + 1 := by
    rw [← hi, ← hline]
    rfl
  have hsort : Entry.sort? i.form = some ("class", c.name, .hostClass [] none) := by
    rw [← hi]
    rfl
  rw [Entry.ofItem?, hnumber, hcomment, hwritten, hsort, entry]
  by_cases hnone : c.lines = []
  · simp [hnone]
  · simp [hnone]

end Item

/-- The items of the text give the entries of its classes. -/
theorem filterMap_classItems (file : String) {cs : List ClassDoc} (h : ∀ c ∈ cs, c.WellFormed)
    {maxBlank : Int} (hblank : 0 ≤ maxBlank) {front : List (List Char)} (hsep : Separated front)
    (hfront : ∀ row ∈ front, '\n' ∉ row) {source : String}
    (hsource : source.toList = ended (front ++ cs.flatMap rows)) :
    ((Scanner.classItems (Cursor.start.past (ended front)) cs).map
      (·.map (Span.excerpt source.toList))).filterMap (Entry.ofItem? file maxBlank source) =
        entries file front.length cs := by
  induction cs generalizing front with
  | nil => rfl
  | cons c cs ih =>
    have hc := h c (by simp)
    have hrows : ∀ row ∈ front ++ c.rows, '\n' ∉ row :=
      List.forall_mem_append.2 ⟨hfront, rows_unbroken hc⟩
    rw [List.flatMap_cons, ← List.append_assoc] at hsource
    have hfirst := ofItem?_classItem file hc hblank hsep hfront hsource
    have hmore := ih (fun d hd => h d (by simp [hd])) (separated_rows c front) hrows hsource
    have hlength : (front ++ c.rows).length = front.length + c.lines.length + 3 := by
      simp [rows, classRows]
      omega
    rw [ended_append, Cursor.past_append, hlength] at hmore
    rw [ended_append, Cursor.past_append] at hfirst
    rw [Scanner.classItems, List.map_cons, List.filterMap_cons_some hfirst, hmore, entries]

/-- **Documentation survives being written and read back**: the report on what is written for some
classes has their entries in order, each with its documentation and the lines of it. -/
theorem extract_writeAll {cs : List ClassDoc} (h : ∀ c ∈ cs, c.WellFormed) {file : String}
    {options : Options} {runtime : Runtime} {policy : PlanPolicy}
    (hblank : 0 ≤ options.maxBlankLines) (hpolicy : options.policy runtime.version = .valid policy)
    (hblocks : policy.blocks file = .ok false) :
    extract (writeAll cs) file options runtime = (.ok ⟨entries file 0 cs, none⟩, []) := by
  have hnone : Separated [] := .inl rfl
  have hentries := filterMap_classItems file h hblank hnone (by simp) (toList_writeAll cs)
  simp only [ended_nil, Cursor.past_nil, List.length_nil] at hentries
  simp only [extract_eq_ok (parse_writeAll h _) hpolicy hblocks, hentries]

/-- A class whose documentation has a second sign, an empty line and a carriage return in it, one
without any, and one with the name of a keyword. -/
def sampleClasses : List ClassDoc :=
  [⟨"motd", ["# Title", "", "  text\rmore #"]⟩, ⟨"::motd::file", []⟩, ⟨"class", ["last"]⟩]

/-- Settings that allow no blank line between a comment and its declaration. -/
def tightOptions : Options :=
  { usualOptions with maxBlankLines := 0 }

theorem sampleClasses_wellFormed : ∀ c ∈ sampleClasses, c.WellFormed := by
  have hmotd : Printing.IsToken [.name] "motd" :=
    ⟨⟨.name, "motd", ⟨0, 1, 1⟩, 4⟩, ⟨4, 1, 5⟩, by decide +kernel, by simp, rfl⟩
  have hfile : Printing.IsToken [.name] "::motd::file" :=
    ⟨⟨.name, "::motd::file", ⟨0, 1, 1⟩, 12⟩, ⟨12, 1, 13⟩, by decide +kernel, by simp, rfl⟩
  have hclass : Printing.IsToken [.name] "class" := Printing.isToken_keyword .hostClass
  intro c hc
  simp only [sampleClasses, List.mem_cons, List.not_mem_nil, or_false] at hc
  rcases hc with rfl | rfl | rfl
  · exact ⟨hmotd, by decide, by decide, by decide⟩
  · exact ⟨hfile, by decide, by decide, by decide⟩
  · exact ⟨hclass, by decide, by decide, by decide⟩

/-- These classes are read back with their documentation, on a runtime that knows plans. -/
theorem sampleClasses_read_back :
    (∀ c ∈ sampleClasses, c.WellFormed) ∧ 0 ≤ tightOptions.maxBlankLines ∧
      extract (writeAll sampleClasses) "plans/init.pp" tightOptions Runtime.default =
        (.ok ⟨[
          ⟨"class", "motd", "plans/init.pp", 4, "class motd \x7b\n\x7d",
            "# Title\n\n  text\rmore #", some (1, 3), .hostClass [] none⟩,
          ⟨"class", "::motd::file", "plans/init.pp", 7, "class ::motd::file \x7b\n\x7d", "", none,
            .hostClass [] none⟩,
          ⟨"class", "class", "plans/init.pp", 11, "class class \x7b\n\x7d", "last", some (10, 10),
            .hostClass [] none⟩], none⟩, []) := by
  have hpolicy : tightOptions.policy Runtime.default.version =
      .valid ⟨Runtime.default.version, PlanPolicy.defaultMinimum, PlanPolicy.defaultPattern⟩ := rfl
  have hblocks : (PlanPolicy.mk Runtime.default.version PlanPolicy.defaultMinimum
      PlanPolicy.defaultPattern).blocks "plans/init.pp" = .ok false := by rfl
  refine ⟨sampleClasses_wellFormed, by decide, ?_⟩
  rw [extract_writeAll sampleClasses_wellFormed (by decide) hpolicy hblocks]
  rfl

end ClassDoc

end ManifestDocs
