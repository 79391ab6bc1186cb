/-
Heredocs. A header `@(TAG)` stands among the tokens of a line; the lines after that line are its
body, up to and with the first line that consists of the tag and the marks allowed around it.
-/
import ManifestDocs.Text.Blank
import ManifestDocs.Token.Lexeme

namespace ManifestDocs.Heredoc

open ManifestDocs.Text ManifestDocs.Lexeme

/-! ## The header -/

/-- Whether a character may stand in a tag. -/
def isTagChar (c : Char) : Bool :=
  !(c == '"' || c == ':' || c == '/' || c == ')' || c == '\r' || c == '\n')

/-- Whether a character may stand in the name of a syntax checker. -/
def isCheckerChar (c : Char) : Bool :=
  c.isAlphanum || c == '_' || c == '+'

/-- Whether a character may stand among the escapes of a header. -/
def isEscapeChar (c : Char) : Bool :=
  isWordChar c || c == '$'

/-- The name of a syntax checker and the blanks after it; there has to be a name. -/
def checkerName (cs : List Char) : Option Split :=
  if (run isCheckerChar cs).1.isEmpty then none
  else some ((run isCheckerChar cs).andThen (run isBlank))

/-- The optional syntax checker: a colon with a name. A colon without one is no header. -/
def checker : List Char → Option Split
  | ':' :: cs => ((run isBlank cs).extend [':']).andThen? checkerName
  | cs => some ([], cs)

/-- The optional escapes: a slash with any number of escape characters. -/
def escapes : List Char → Split
  | '/' :: cs =>
    (((run isBlank cs).extend ['/']).andThen (run isEscapeChar)).andThen (run isBlank)
  | cs => ([], cs)

/-- The closing parenthesis, after the optional escapes. -/
def closing (cs : List Char) : Option Split :=
  (escapes cs).andThen? fun rest =>
    match rest with
    | ')' :: rest => some ([')'], rest)
    | _ => none

/-- What follows the tag: a syntax checker, escapes, and the closing parenthesis. -/
def headerEnd (cs : List Char) : Option Split :=
  ((run isBlank cs).andThen? checker).bind (·.andThen? closing)

/-- A tag in double quotes: the opening quote was the last character passed. -/
def quotedTag (cs : List Char) : Option (List Char × Split) :=
  let tag := run isTagChar cs
  if tag.1.isEmpty then none
  else
    match tag.2 with
    | '"' :: rest =>
      (headerEnd rest).map fun last => (tag.1, last.extend (tag.1 ++ ['"']))
    | _ => none

/-- A tag without quotes, after the blanks `gap`. A header with nothing but blanks for its tag is
allowed if one of them may stand in a tag. -/
def plainTag (gap cs : List Char) : Option (List Char × Split) :=
  let tag := run isTagChar cs
  if tag.1.isEmpty && !gap.any isTagChar then none
  else (tag.andThen? headerEnd).map fun split => (tag.1, split)

/-- A header: its tag without the blanks around it, its lexeme and the characters after it. -/
def header : List Char → Option (List Char × Split)
  | '@' :: '(' :: cs =>
    let gap := run isBlank cs
    match gap.2 with
    | '"' :: rest =>
      (quotedTag rest).map fun (tag, split) =>
        (trim tag, split.extend ('@' :: '(' :: gap.1 ++ ['"']))
    | rest =>
      (plainTag gap.1 rest).map fun (tag, split) =>
        (trim tag, split.extend ('@' :: '(' :: gap.1))
  | _ => none

/-! ### Nothing is lost -/

theorem whole_of_checkerName {cs : List Char} {s : Split} (h : checkerName cs = some s) :
    s.whole = cs := by
  unfold checkerName at h
  split at h
  · cases h
  · cases h
    rw [Split.whole_andThen _ (whole_run isBlank), whole_run]

theorem whole_of_checker {cs : List Char} {s : Split} (h : checker cs = some s) :
    s.whole = cs := by
  unfold checker at h
  split at h
  · rw [Split.whole_of_andThen? whole_of_checkerName h, Split.whole_extend, whole_run]
    rfl
  · cases h; rfl

@[simp] theorem whole_escapes (cs : List Char) : (escapes cs).whole = cs := by
  unfold escapes
  split
  · rw [Split.whole_andThen _ (whole_run isBlank), Split.whole_andThen _ (whole_run isEscapeChar),
      Split.whole_extend, whole_run]
    rfl
  · rfl

theorem whole_of_closing {cs : List Char} {s : Split} (h : closing cs = some s) :
    s.whole = cs := by
  refine (Split.whole_of_andThen? ?_ h).trans (whole_escapes cs)
  intro cs u hu
  split at hu
  · cases hu; rfl
  · cases hu

theorem whole_of_headerEnd {cs : List Char} {s : Split} (h : headerEnd cs = some s) :
    s.whole = cs := by
  obtain ⟨t, ht, h⟩ := Option.bind_eq_some_iff.1 h
  rw [Split.whole_of_andThen? whole_of_closing h, Split.whole_of_andThen? whole_of_checker ht,
    whole_run]

theorem whole_of_quotedTag {cs tag : List Char} {s : Split} (h : quotedTag cs = some (tag, s)) :
    s.whole = cs := by
  have whole := whole_run isTagChar cs
  unfold quotedTag at h
  dsimp only at h
  split at h
  · cases h
  · split at h
    · rename_i rest hrest
      obtain ⟨last, hlast, h⟩ := Option.map_eq_some_iff.1 h
      cases h
      rw [Split.whole, hrest] at whole
      rw [Split.whole_extend, whole_of_headerEnd hlast, List.append_assoc]
      exact whole
    · cases h

theorem whole_of_plainTag {gap cs tag : List Char} {s : Split}
    (h : plainTag gap cs = some (tag, s)) : s.whole = cs := by
  unfold plainTag at h
  dsimp only at h
  split at h
  · cases h
  · obtain ⟨split, hsplit, h⟩ := Option.map_eq_some_iff.1 h
    cases h
    rw [Split.whole_of_andThen? whole_of_headerEnd hsplit, whole_run]

theorem whole_of_header {cs tag : List Char} {s : Split} (h : header cs = some (tag, s)) :
    s.whole = cs := by
  unfold header at h
  split at h
  · rename_i cs
    have whole := whole_run isBlank cs
    dsimp only at h
    split at h
    · rename_i rest hrest
      obtain ⟨⟨tag, split⟩, hsplit, h⟩ := Option.map_eq_some_iff.1 h
      cases h
      rw [Split.whole, hrest] at whole
      rw [Split.whole_extend, whole_of_quotedTag hsplit]
      simp [whole]
    · obtain ⟨⟨tag, split⟩, hsplit, h⟩ := Option.map_eq_some_iff.1 h
      cases h
      rw [Split.whole] at whole
      rw [Split.whole_extend, whole_of_plainTag hsplit]
      simp [whole]
  · cases h

theorem ne_nil_of_header {cs tag : List Char} {s : Split} (h : header cs = some (tag, s)) :
    s.1 ≠ [] := by
  unfold header at h
  split at h
  · dsimp only at h
    split at h <;>
    · obtain ⟨⟨tag, split⟩, _, h⟩ := Option.map_eq_some_iff.1 h
      cases h
      simp [Split.extend]
  · cases h

/-! ## The body -/

/-- Whether a character is a space or a tab. -/
def isIndent (c : Char) : Bool :=
  c == ' ' || c == '\t'

/-- The line without `mark` and the indent after it, if it starts with `mark`. -/
def afterMark (mark : Char) : List Char → Option (List Char)
  | c :: cs => if c = mark then some (cs.dropWhile isIndent) else none
  | [] => none

/-- What a line may be once the marks before a tag are left out: each of `|` and `-`, in this order,
is a mark or the start of the tag itself. -/
def afterMarks (line : List Char) : List (List Char) :=
  let line := line.dropWhile isIndent
  let lines := line :: (afterMark '|' line).toList
  lines ++ lines.filterMap (afterMark '-')

/-- Whether nothing but an indent and a carriage return follows. -/
def isLineEnd (cs : List Char) : Bool :=
  let rest := cs.dropWhile isIndent
  rest == [] || rest == ['\r']

/-- Whether a line ends the body of a heredoc with this tag. -/
def isEndLine (tag line : List Char) : Bool :=
  (afterMarks line).any fun l => tag.isPrefixOf l && isLineEnd (l.drop tag.length)

/-- The body of a heredoc, from the start of a line: the lines through the first one that ends it,
with their line breaks. -/
def body (tag cs : List Char) : Option Split :=
  let line := cs.takeWhile (· != '\n')
  match _h : cs.dropWhile (· != '\n') with
  | [] => if isEndLine tag line then some (line, []) else none
  | newline :: rest =>
    if isEndLine tag line then some (line ++ [newline], rest)
    else (body tag rest).map (Split.extend (line ++ [newline]))
termination_by cs.length
decreasing_by
  have := (List.dropWhile_suffix (· != '\n') (l := cs)).length_le
  simp only [_h, List.length_cons] at this
  omega

theorem takeLine_append {cs rest : List Char} (h : cs.dropWhile (· != '\n') = rest) :
    cs.takeWhile (· != '\n') ++ rest = cs := by
  rw [← h, List.takeWhile_append_dropWhile]

theorem whole_of_body {tag cs : List Char} {s : Split} (h : body tag cs = some s) :
    s.whole = cs := by
  fun_induction body tag cs generalizing s with
  | case1 cs line => cases h; exact takeLine_append (by assumption)
  | case2 => cases h
  | case3 cs line newline rest =>
    cases h
    have whole : line ++ newline :: rest = cs := takeLine_append (by assumption)
    simpa [Split.whole] using whole
  | case4 cs line newline rest =>
    rename_i ih
    have whole : line ++ newline :: rest = cs := takeLine_append (by assumption)
    rw [Split.whole_of_map_extend ih h]
    simpa using whole

/-- Whether the text after a body starts a line. It does not if the body ended the whole text
without a line break. -/
def endsLine (body : List Char) : Bool :=
  body.getLast?.all (· == '\n')

end ManifestDocs.Heredoc
