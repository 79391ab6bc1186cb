/-
Lexemes: how far each class of token reaches. Every function takes the characters from a position on
and splits off the lexeme that stands there, or answers `none` if there is none. Nothing is lost:
the lexeme and the rest make up the characters again.
-/
import ManifestDocs.Text.WordChar

namespace ManifestDocs.Lexeme

open ManifestDocs.Text

/-- A lexeme and the characters after it. -/
abbrev Split := List Char × List Char

/-- The split whose lexeme has the characters `front` before it. -/
def Split.extend (front : List Char) (s : Split) : Split :=
  (front ++ s.1, s.2)

/-- The characters a split was made from. -/
def Split.whole (s : Split) : List Char :=
  s.1 ++ s.2

@[simp] theorem Split.whole_extend (front : List Char) (s : Split) :
    (s.extend front).whole = front ++ s.whole := by
  simp [extend, whole]

/-- The longest run of characters of a class. -/
def run (p : Char → Bool) (cs : List Char) : Split :=
  (cs.takeWhile p, cs.dropWhile p)

/-- Goes on after a lexeme with what `f` splits off the rest. -/
def Split.andThen (s : Split) (f : List Char → Split) : Split :=
  (f s.2).extend s.1

theorem Split.whole_andThen (s : Split) {f : List Char → Split} (h : ∀ cs, (f cs).whole = cs) :
    (s.andThen f).whole = s.whole := by
  rw [andThen, whole_extend, h, whole]

/-- Goes on after a lexeme with what `f` splits off the rest, if it does. -/
def Split.andThen? (s : Split) (f : List Char → Option Split) : Option Split :=
  (f s.2).map (Split.extend s.1)

/-- Characters put before a lexeme stand before the characters it was split from. -/
theorem Split.whole_of_map_extend {found : Option Split} {front cs : List Char} {s : Split}
    (whole : ∀ {t : Split}, found = some t → t.whole = cs)
    (h : found.map (Split.extend front) = some s) : s.whole = front ++ cs := by
  obtain ⟨t, ht, rfl⟩ := Option.map_eq_some_iff.1 h
  rw [whole_extend, whole ht]

/-- Going on after a lexeme loses nothing if the second part loses nothing. -/
theorem Split.whole_of_andThen? {s t : Split} {f : List Char → Option Split}
    (whole : ∀ {cs : List Char} {u : Split}, f cs = some u → u.whole = cs)
    (h : s.andThen? f = some t) : t.whole = s.whole :=
  Split.whole_of_map_extend whole h

@[simp] theorem whole_run (p : Char → Bool) (cs : List Char) : (run p cs).whole = cs :=
  List.takeWhile_append_dropWhile

/-! ## Comments and strings -/

/-- The rest of a block comment, through the first `*/`. -/
def blockComment : List Char → Option Split
  | '*' :: '/' :: cs => some (['*', '/'], cs)
  | c :: cs => (blockComment cs).map (Split.extend [c])
  | [] => none

/-- The rest of a single quoted string, through its closing quote. A backslash takes the next
character with it. -/
def singleQuoted : List Char → Option Split
  | '\\' :: c :: cs => (singleQuoted cs).map (Split.extend ['\\', c])
  | c :: cs =>
    if c = '\\' then none
    else if c = '\'' then some (['\''], cs)
    else (singleQuoted cs).map (Split.extend [c])
  | [] => none

/-- The rest of a double quoted string, through its closing quote, inside `depth` open braces.
A backslash takes the next character with it; `$` and an opening brace start an interpolation, in
which braces nest and quotes do not count. -/
def doubleQuoted : Nat → List Char → Option Split
  | depth, '\\' :: c :: cs => (doubleQuoted depth cs).map (Split.extend ['\\', c])
  | depth, '$' :: '\x7b' :: cs => (doubleQuoted (depth + 1) cs).map (Split.extend ['$', '\x7b'])
  | depth, c :: cs =>
    if c = '\\' then none
    else
      match depth with
      | 0 =>
        if c = '"' then some (['"'], cs) else (doubleQuoted 0 cs).map (Split.extend [c])
      | depth + 1 =>
        if c = '\x7b' then (doubleQuoted (depth + 2) cs).map (Split.extend [c])
        else if c = '\x7d' then (doubleQuoted depth cs).map (Split.extend [c])
        else (doubleQuoted (depth + 1) cs).map (Split.extend [c])
  | _, [] => none

/-- The rest of a regular expression, through its closing slash, on one line. A backslash takes the
next character with it. -/
def regex : List Char → Option Split
  | '\\' :: c :: cs => if c = '\n' then none else (regex cs).map (Split.extend ['\\', c])
  | c :: cs =>
    if c = '\\' || c = '\n' then none
    else if c = '/' then some (['/'], cs)
    else (regex cs).map (Split.extend [c])
  | [] => none

/-! ## Names -/

/-- Whether a character starts a segment of a word. -/
def startsWord (c : Char) : Bool :=
  c.isAlpha || c == '_'

/-- Further segments: any number of `::` with a segment that starts with a character of `start`. -/
def segments (start : Char → Bool) (cs : List Char) : Split :=
  match cs with
  | ':' :: ':' :: c :: rest =>
    if start c then
      (segments start (rest.dropWhile isWordChar)).extend
        (':' :: ':' :: c :: rest.takeWhile isWordChar)
    else ([], cs)
  | _ => ([], cs)
termination_by cs.length
decreasing_by
  have := (List.dropWhile_suffix isWordChar (l := rest)).length_le
  simp only [List.length_cons]
  omega

/-- A segment with the segments after it. -/
def path (start : Char → Bool) : List Char → Option Split
  | c :: cs =>
    if start c then
      some ((segments start (cs.dropWhile isWordChar)).extend (c :: cs.takeWhile isWordChar))
    else none
  | [] => none

/-- A path that may start with `::`. -/
def qualified (start : Char → Bool) : List Char → Option Split
  | ':' :: ':' :: cs => (path start cs).map (Split.extend [':', ':'])
  | cs => path start cs

/-- A word: segments of word characters, each starting with a basic Latin letter or underscore. -/
def word : List Char → Option Split :=
  qualified startsWord

/-- A variable: a `$` with segments of word characters. -/
def variableName : List Char → Option Split
  | '$' :: cs => (qualified isWordChar cs).map (Split.extend ['$'])
  | _ => none

/-- Whether the first letter of a word, after any leading colons, is a capital one. -/
def isTypeName (lexeme : List Char) : Bool :=
  match lexeme.dropWhile (· == ':') with
  | c :: _ => c.isUpper
  | [] => false

/-! ## Numbers -/

/-- Whether a character is a hexadecimal digit. -/
def isHexDigit (c : Char) : Bool :=
  c.isDigit || ('a' ≤ c && c ≤ 'f') || ('A' ≤ c && c ≤ 'F')

/-- A hexadecimal number: `0x` with at least one digit. -/
def hexNumber : List Char → Option Split
  | '0' :: x :: c :: cs =>
    if (x = 'x' || x = 'X') && isHexDigit c then some ((run isHexDigit (c :: cs)).extend ['0', x])
    else none
  | _ => none

/-- The fraction of a number: a dot with at least one digit, or nothing. -/
def fraction : List Char → Split
  | '.' :: c :: cs =>
    if isDecimal c then (run isDecimal (c :: cs)).extend ['.'] else ([], '.' :: c :: cs)
  | cs => ([], cs)

/-- The exponent of a number: `e`, perhaps a sign, and at least one digit, or nothing. -/
def exponent (cs : List Char) : Split :=
  match cs with
  | e :: s :: c :: rest =>
    if e = 'e' || e = 'E' then
      if isDecimal s then (run isDecimal (s :: c :: rest)).extend [e]
      else if (s = '+' || s = '-') && isDecimal c then (run isDecimal (c :: rest)).extend [e, s]
      else ([], cs)
    else ([], cs)
  | [e, s] =>
    if (e = 'e' || e = 'E') && isDecimal s then ([e, s], []) else ([], cs)
  | _ => ([], cs)

/-- A decimal number: digits, perhaps a fraction, perhaps an exponent. -/
def decimalNumber (cs : List Char) : Option Split :=
  if (run isDecimal cs).1.isEmpty then none
  else some (((run isDecimal cs).andThen fraction).andThen exponent)

/-- A number, hexadecimal if it can be. -/
def number (cs : List Char) : Option Split :=
  (hexNumber cs).or (decimalNumber cs)

/-! ## Nothing is lost -/

theorem whole_of_blockComment {cs : List Char} {s : Split} (h : blockComment cs = some s) :
    s.whole = cs := by
  fun_induction blockComment cs generalizing s with
  | case1 cs => cases h; rfl
  | case2 c cs _ ih => exact Split.whole_of_map_extend ih h
  | case3 => cases h

theorem whole_of_singleQuoted {cs : List Char} {s : Split} (h : singleQuoted cs = some s) :
    s.whole = cs := by
  fun_induction singleQuoted cs generalizing s with
  | case1 c cs ih => exact Split.whole_of_map_extend ih h
  | case2 => cases h
  | case3 => cases h; rfl
  | case4 c cs _ _ _ ih => exact Split.whole_of_map_extend ih h
  | case5 => cases h

theorem whole_of_doubleQuoted {depth : Nat} {cs : List Char} {s : Split}
    (h : doubleQuoted depth cs = some s) : s.whole = cs := by
  fun_induction doubleQuoted depth cs generalizing s with
  | case1 depth c cs ih => exact Split.whole_of_map_extend ih h
  | case2 depth cs ih => exact Split.whole_of_map_extend ih h
  | case3 => cases h
  | case4 => cases h; rfl
  | case5 c cs _ _ _ _ ih => exact Split.whole_of_map_extend ih h
  | case6 cs depth _ _ _ ih => exact Split.whole_of_map_extend ih h
  | case7 cs depth _ _ _ _ ih => exact Split.whole_of_map_extend ih h
  | case8 c cs _ _ _ depth _ _ ih => exact Split.whole_of_map_extend ih h
  | case9 => cases h

theorem whole_of_regex {cs : List Char} {s : Split} (h : regex cs = some s) : s.whole = cs := by
  fun_induction regex cs generalizing s with
  | case1 => cases h
  | case2 c cs _ ih => exact Split.whole_of_map_extend ih h
  | case3 => cases h
  | case4 => cases h; rfl
  | case5 c cs _ _ _ ih => exact Split.whole_of_map_extend ih h
  | case6 => cases h

@[simp] theorem whole_segments (start : Char → Bool) (cs : List Char) :
    (segments start cs).whole = cs := by
  fun_induction segments start cs with
  | case1 c rest _ ih => simp [ih]
  | case2 => rfl
  | case3 => rfl

theorem whole_of_path {start : Char → Bool} {cs : List Char} {s : Split}
    (h : path start cs = some s) : s.whole = cs := by
  fun_cases path start cs with
  | case1 c cs hc =>
    rw [path, if_pos hc] at h
    cases h
    simp
  | case2 c cs hc => rw [path, if_neg hc] at h; cases h
  | case3 => cases h

theorem whole_of_qualified {start : Char → Bool} {cs : List Char} {s : Split}
    (h : qualified start cs = some s) : s.whole = cs := by
  unfold qualified at h
  split at h
  · exact Split.whole_of_map_extend whole_of_path h
  · exact whole_of_path h

theorem whole_of_word {cs : List Char} {s : Split} (h : word cs = some s) : s.whole = cs :=
  whole_of_qualified h

theorem whole_of_variableName {cs : List Char} {s : Split} (h : variableName cs = some s) :
    s.whole = cs := by
  unfold variableName at h
  split at h
  · exact Split.whole_of_map_extend whole_of_qualified h
  · cases h

theorem whole_of_hexNumber {cs : List Char} {s : Split} (h : hexNumber cs = some s) :
    s.whole = cs := by
  unfold hexNumber at h
  split at h
  · split at h
    · cases h; simp
    · cases h
  · cases h

@[simp] theorem whole_fraction (cs : List Char) : (fraction cs).whole = cs := by
  unfold fraction
  split
  · split
    · simp
    · rfl
  · rfl

@[simp] theorem whole_exponent (cs : List Char) : (exponent cs).whole = cs := by
  unfold exponent
  repeat' split
  all_goals first | rfl | simp

theorem whole_of_decimalNumber {cs : List Char} {s : Split} (h : decimalNumber cs = some s) :
    s.whole = cs := by
  unfold decimalNumber at h
  split at h
  · cases h
  · cases h
    rw [Split.whole_andThen _ whole_exponent, Split.whole_andThen _ whole_fraction, whole_run]

theorem whole_of_number {cs : List Char} {s : Split} (h : number cs = some s) : s.whole = cs := by
  rcases Option.or_eq_some_iff.1 h with h | ⟨_, h⟩
  · exact whole_of_hexNumber h
  · exact whole_of_decimalNumber h

/-! ## No lexeme is empty -/

theorem Split.ne_nil_of_map_extend {found : Option Split} {front : List Char} {s : Split}
    (hfront : front ≠ []) (h : found.map (Split.extend front) = some s) : s.1 ≠ [] := by
  obtain ⟨t, _, rfl⟩ := Option.map_eq_some_iff.1 h
  simp [extend, hfront]

theorem ne_nil_of_path {start : Char → Bool} {cs : List Char} {s : Split}
    (h : path start cs = some s) : s.1 ≠ [] := by
  unfold path at h
  split at h
  · split at h
    · cases h; simp [Split.extend]
    · cases h
  · cases h

theorem ne_nil_of_word {cs : List Char} {s : Split} (h : word cs = some s) : s.1 ≠ [] := by
  unfold word qualified at h
  split at h
  · exact Split.ne_nil_of_map_extend (by simp) h
  · exact ne_nil_of_path h

theorem ne_nil_of_variableName {cs : List Char} {s : Split} (h : variableName cs = some s) :
    s.1 ≠ [] := by
  unfold variableName at h
  split at h
  · exact Split.ne_nil_of_map_extend (by simp) h
  · cases h

theorem ne_nil_of_number {cs : List Char} {s : Split} (h : number cs = some s) : s.1 ≠ [] := by
  rcases Option.or_eq_some_iff.1 h with h | ⟨_, h⟩
  · unfold hexNumber at h
    split at h
    · split at h
      · cases h; simp [Split.extend]
      · cases h
    · cases h
  · unfold decimalNumber at h
    split at h
    · cases h
    · rename_i hdigits
      cases h
      rw [List.isEmpty_iff] at hdigits
      simp [Split.andThen, Split.extend, hdigits]

end ManifestDocs.Lexeme
