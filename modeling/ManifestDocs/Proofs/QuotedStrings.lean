/-
Strings in quotes, as they are written. `IsString` says which texts are strings: between single
quotes escapes and other characters, between double quotes also interpolations, in which braces nest
and quotes do not count. A scanner does not look at this nesting but counts open braces; `Closing`
says what a count stands for, so many interpolations or groups still to be closed, and with it the
count finds exactly the string that a text starts with (`closeQuote_eq_some_iff`).
-/
import ManifestDocs.Proofs.Resumption

namespace ManifestDocs.Lexeme

open ManifestDocs.Heredoc

/-! ## What stands between quotes -/

/-- What stands between single quotes. -/
inductive SingleItems : List Char → Prop
  | nil : SingleItems []
  | escape {c : Char} {cs : List Char} (more : SingleItems cs) : SingleItems ('\\' :: c :: cs)
  | plain {c : Char} {cs : List Char} (hbackslash : c ≠ '\\') (hquote : c ≠ '\'')
      (more : SingleItems cs) : SingleItems (c :: cs)

/-- What stands inside an interpolation, or inside braces there. -/
inductive Inner : List Char → Prop
  | nil : Inner []
  | escape {c : Char} {cs : List Char} (more : Inner cs) : Inner ('\\' :: c :: cs)
  | braces {inner cs : List Char} (h : Inner inner) (more : Inner cs) :
      Inner ('\x7b' :: (inner ++ '\x7d' :: cs))
  | interpolation {inner cs : List Char} (h : Inner inner) (more : Inner cs) :
      Inner ('$' :: '\x7b' :: (inner ++ '\x7d' :: cs))
  | plain {c : Char} {cs : List Char} (hbackslash : c ≠ '\\') (hopen : c ≠ '\x7b')
      (hclose : c ≠ '\x7d') (hdollar : c = '$' → cs.head? ≠ some '\x7b') (more : Inner cs) :
      Inner (c :: cs)

/-- What stands between double quotes. -/
inductive DoubleItems : List Char → Prop
  | nil : DoubleItems []
  | escape {c : Char} {cs : List Char} (more : DoubleItems cs) : DoubleItems ('\\' :: c :: cs)
  | interpolation {inner cs : List Char} (h : Inner inner) (more : DoubleItems cs) :
      DoubleItems ('$' :: '\x7b' :: (inner ++ '\x7d' :: cs))
  | plain {c : Char} {cs : List Char} (hbackslash : c ≠ '\\') (hquote : c ≠ '"')
      (hdollar : c = '$' → cs.head? ≠ some '\x7b') (more : DoubleItems cs) : DoubleItems (c :: cs)

/-- `IsString q v`: the text `v` is a string, with its quotes `q`. -/
inductive IsString : Char → List Char → Prop
  | single {items : List Char} (h : SingleItems items) : IsString '\'' ('\'' :: (items ++ ['\'']))
  | double {items : List Char} (h : DoubleItems items) : IsString '"' ('"' :: (items ++ ['"']))

/-! ## Single quotes -/

theorem singleQuoted_plain {c : Char} {cs : List Char} (hbackslash : c ≠ '\\') (hquote : c ≠ '\'') :
    singleQuoted (c :: cs) = (singleQuoted cs).map (Split.extend [c]) := by
  rw [singleQuoted, if_neg hbackslash, if_neg hquote]
  rintro d ds rfl
  exact absurd rfl hbackslash

theorem singleQuoted_items {items : List Char} (h : SingleItems items) (tail : List Char) :
    singleQuoted (items ++ tail) = (singleQuoted tail).map (Split.extend items) := by
  induction h with
  | nil => exact (map_extend_nil _).symm
  | escape _ ih =>
    rw [List.cons_append, List.cons_append, singleQuoted, ih, Option.map_map, extend_comp_extend]
    rfl
  | plain hbackslash hquote _ ih =>
    rw [List.cons_append, singleQuoted_plain hbackslash hquote, ih, Option.map_map,
      extend_comp_extend]
    rfl

theorem items_of_singleQuoted {cs : List Char} {s : Split} (h : singleQuoted cs = some s) :
    ∃ items, SingleItems items ∧ s.1 = items ++ ['\''] := by
  fun_induction singleQuoted cs generalizing s with
  | case1 c cs ih =>
    obtain ⟨t, ht, rfl⟩ := Option.map_eq_some_iff.1 h
    obtain ⟨items, hitems, he⟩ := ih ht
    exact ⟨_, .escape hitems, by rw [extend_fst, he]; rfl⟩
  | case2 => cases h
  | case3 =>
    cases h
    exact ⟨[], .nil, rfl⟩
  | case4 c cs hescape hbackslash hquote ih =>
    obtain ⟨t, ht, rfl⟩ := Option.map_eq_some_iff.1 h
    obtain ⟨items, hitems, he⟩ := ih ht
    exact ⟨_, .plain hbackslash hquote hitems, by rw [extend_fst, he]; rfl⟩
  | case5 => cases h

/-! ## Double quotes -/

theorem doubleQuoted_plain {depth : Nat} {c : Char} {cs : List Char} (hbackslash : c ≠ '\\')
    (hdollar : c = '$' → cs.head? ≠ some '\x7b') :
    doubleQuoted depth (c :: cs) =
      match depth with
      | 0 => if c = '"' then some (['"'], cs) else (doubleQuoted 0 cs).map (Split.extend [c])
      | depth + 1 =>
        if c = '\x7b' then (doubleQuoted (depth + 2) cs).map (Split.extend [c])
        else if c = '\x7d' then (doubleQuoted depth cs).map (Split.extend [c])
        else (doubleQuoted (depth + 1) cs).map (Split.extend [c]) := by
  have hescape : ∀ d ds, c = '\\' → cs = d :: ds → False := fun _ _ hc _ => hbackslash hc
  have hopens : ∀ ds, c = '$' → cs = '\x7b' :: ds → False := by
    rintro ds hc rfl
    exact hdollar hc rfl
  cases depth with
  | zero => rw [doubleQuoted, if_neg hbackslash] <;> assumption
  | succ depth => rw [doubleQuoted, if_neg hbackslash] <;> assumption

theorem doubleQuoted_open (depth : Nat) (cs : List Char) :
    doubleQuoted (depth + 1) ('\x7b' :: cs) =
      (doubleQuoted (depth + 2) cs).map (Split.extend ['\x7b']) :=
  doubleQuoted_plain (by decide) fun hc => absurd hc (by decide)

theorem doubleQuoted_close (depth : Nat) (cs : List Char) :
    doubleQuoted (depth + 1) ('\x7d' :: cs) =
      (doubleQuoted depth cs).map (Split.extend ['\x7d']) :=
  doubleQuoted_plain (by decide) fun hc => absurd hc (by decide)

theorem head?_append_ne {items tail : List Char} {x : Char} (h : items.head? ≠ some x)
    (htail : tail.head? ≠ some x) : (items ++ tail).head? ≠ some x := by
  cases items with
  | nil => exact htail
  | cons c cs => exact h

/-- The count comes back to where it was behind the inside of an interpolation. -/
theorem doubleQuoted_inner {inner : List Char} (h : Inner inner) (depth : Nat) {tail : List Char}
    (htail : tail.head? ≠ some '\x7b') :
    doubleQuoted (depth + 1) (inner ++ tail) =
      (doubleQuoted (depth + 1) tail).map (Split.extend inner) := by
  induction h generalizing depth tail with
  | nil => exact (map_extend_nil _).symm
  | escape _ ih =>
    rw [List.cons_append, List.cons_append, doubleQuoted, ih depth htail, Option.map_map,
      extend_comp_extend]
    rfl
  | @braces inner cs _ _ ih ihmore =>
    rw [List.cons_append, List.append_assoc, List.cons_append, doubleQuoted_open, ih _ (by simp),
      doubleQuoted_close, ihmore _ htail]
    simp only [Option.map_map, extend_comp_extend]
    simp
  | @interpolation inner cs _ _ ih ihmore =>
    rw [List.cons_append, List.cons_append, List.append_assoc, List.cons_append, doubleQuoted,
      ih _ (by simp), doubleQuoted_close, ihmore _ htail]
    simp only [Option.map_map, extend_comp_extend]
    simp
  | plain hbackslash hopen hclose hdollar _ ih =>
    rw [List.cons_append, doubleQuoted_plain hbackslash fun hc => head?_append_ne (hdollar hc) htail]
    simp only [if_neg hopen, if_neg hclose]
    rw [ih _ htail, Option.map_map, extend_comp_extend]
    rfl

theorem doubleQuoted_items {items : List Char} (h : DoubleItems items) {tail : List Char}
    (htail : tail.head? ≠ some '\x7b') :
    doubleQuoted 0 (items ++ tail) = (doubleQuoted 0 tail).map (Split.extend items) := by
  induction h with
  | nil => exact (map_extend_nil _).symm
  | escape _ ih =>
    rw [List.cons_append, List.cons_append, doubleQuoted, ih, Option.map_map, extend_comp_extend]
    rfl
  | @interpolation inner cs hinner _ ih =>
    rw [List.cons_append, List.cons_append, List.append_assoc, List.cons_append, doubleQuoted,
      doubleQuoted_inner hinner _ (by simp), doubleQuoted_close, ih]
    simp only [Option.map_map, extend_comp_extend]
    simp
  | plain hbackslash hquote hdollar _ ih =>
    rw [List.cons_append, doubleQuoted_plain hbackslash fun hc => head?_append_ne (hdollar hc) htail]
    simp only [if_neg hquote]
    rw [ih, Option.map_map, extend_comp_extend]
    rfl

/-- What is left of a string inside `depth` open braces: the rest of each interpolation or group,
with the brace that closes it, and then the rest of the string, with its quote. -/
inductive Closing : Nat → List Char → Prop
  | quote {items : List Char} (h : DoubleItems items) : Closing 0 (items ++ ['"'])
  | brace {depth : Nat} {inner more : List Char} (h : Inner inner) (hmore : Closing depth more) :
      Closing (depth + 1) (inner ++ '\x7d' :: more)

theorem Closing.escape {depth : Nat} {c : Char} {x : List Char} (h : Closing depth x) :
    Closing depth ('\\' :: c :: x) := by
  cases h with
  | quote h => exact .quote h.escape
  | brace h hmore => exact .brace h.escape hmore

theorem Closing.interpolation {depth : Nat} {x : List Char} (h : Closing (depth + 1) x) :
    Closing depth ('$' :: '\x7b' :: x) := by
  cases h with
  | brace h hmore =>
    cases hmore with
    | quote hitems => simpa using Closing.quote (.interpolation h hitems)
    | brace h' hmore => simpa using Closing.brace (.interpolation h h') hmore

theorem Closing.braces {depth : Nat} {x : List Char} (h : Closing (depth + 2) x) :
    Closing (depth + 1) ('\x7b' :: x) := by
  cases h with
  | brace h hmore =>
    cases hmore with
    | brace h' hmore => simpa using Closing.brace (.braces h h') hmore

theorem Closing.outside {c : Char} {x : List Char} (h : Closing 0 x) (hbackslash : c ≠ '\\')
    (hquote : c ≠ '"') (hdollar : c = '$' → x.head? ≠ some '\x7b') : Closing 0 (c :: x) := by
  cases h with
  | quote h =>
    exact .quote (.plain hbackslash hquote (fun hc he => hdollar hc (by simp [he])) h)

theorem Closing.inside {depth : Nat} {c : Char} {x : List Char} (h : Closing (depth + 1) x)
    (hbackslash : c ≠ '\\') (hopen : c ≠ '\x7b') (hclose : c ≠ '\x7d')
    (hdollar : c = '$' → x.head? ≠ some '\x7b') : Closing (depth + 1) (c :: x) := by
  cases h with
  | brace h hmore =>
    exact .brace (.plain hbackslash hopen hclose (fun hc he => hdollar hc (by simp [he])) h) hmore

/-- **What the count finds** is the rest of a string with so many braces open. -/
theorem closing_of_doubleQuoted {depth : Nat} {cs : List Char} {s : Split}
    (h : doubleQuoted depth cs = some s) : Closing depth s.1 := by
  -- a dollar sign that opens nothing in the text opens nothing in what is found of it
  have hdollar {c : Char} {cs : List Char} {t : Split} (ht : t.whole = cs)
      (hopens : ∀ ds, c = '$' → cs = '\x7b' :: ds → False) :
      c = '$' → t.1.head? ≠ some '\x7b' := by
    intro hc hhead
    obtain ⟨more, hmore⟩ := List.head?_eq_some_iff.1 hhead
    exact hopens (more ++ t.2) hc (by rw [← ht, Split.whole, hmore, List.cons_append])
  fun_induction doubleQuoted depth cs generalizing s with
  | case1 depth c cs ih =>
    obtain ⟨t, ht, rfl⟩ := Option.map_eq_some_iff.1 h
    exact (ih ht).escape
  | case2 depth cs ih =>
    obtain ⟨t, ht, rfl⟩ := Option.map_eq_some_iff.1 h
    exact (ih ht).interpolation
  | case3 => cases h
  | case4 =>
    cases h
    exact .quote .nil
  | case5 c cs hescape hopens hbackslash hquote ih =>
    obtain ⟨t, ht, rfl⟩ := Option.map_eq_some_iff.1 h
    exact (ih ht).outside hbackslash hquote (hdollar (whole_of_doubleQuoted ht) hopens)
  | case6 cs depth hescape hopens hbackslash ih =>
    obtain ⟨t, ht, rfl⟩ := Option.map_eq_some_iff.1 h
    exact (ih ht).braces
  | case7 cs depth hescape hopens hbackslash hopen ih =>
    obtain ⟨t, ht, rfl⟩ := Option.map_eq_some_iff.1 h
    exact .brace .nil (ih ht)
  | case8 c cs hescape hopens hbackslash depth hopen hclose ih =>
    obtain ⟨t, ht, rfl⟩ := Option.map_eq_some_iff.1 h
    exact (ih ht).inside hbackslash hopen hclose (hdollar (whole_of_doubleQuoted ht) hopens)
  | case9 => cases h

/-! ## Both quotes -/

/-- Whether a character opens a string. -/
def IsQuote (q : Char) : Prop :=
  q = '\'' ∨ q = '"'

/-- The rest of a string that was opened by `q`, through its closing quote. -/
def closeQuote (q : Char) (cs : List Char) : Option Split :=
  if q = '\'' then singleQuoted cs else doubleQuoted 0 cs

/-- **Where a string ends**: it is closed where a string with its quotes is complete. -/
theorem closeQuote_eq_some_iff {q : Char} {cs : List Char} {s : Split} (hq : IsQuote q) :
    closeQuote q cs = some s ↔ IsString q (q :: s.1) ∧ s.whole = cs := by
  rcases hq with rfl | rfl
  · constructor
    · intro h
      obtain ⟨items, hitems, he⟩ := items_of_singleQuoted h
      exact ⟨he ▸ .single hitems, whole_of_singleQuoted h⟩
    · rintro ⟨hstring, rfl⟩
      obtain ⟨x, rest⟩ := s
      cases hstring with
      | @single items hitems =>
        show singleQuoted (items ++ ['\''] ++ rest) = some (items ++ ['\''], rest)
        rw [List.append_assoc, singleQuoted_items hitems]
        rfl
  · constructor
    · intro h
      refine ⟨?_, whole_of_doubleQuoted h⟩
      obtain ⟨x, rest⟩ := s
      cases closing_of_doubleQuoted h with
      | quote hitems => exact .double hitems
    · rintro ⟨hstring, rfl⟩
      obtain ⟨x, rest⟩ := s
      cases hstring with
      | @double items hitems =>
        show doubleQuoted 0 (items ++ ['"'] ++ rest) = some (items ++ ['"'], rest)
        rw [List.append_assoc, doubleQuoted_items hitems (by simp)]
        rfl

theorem IsString.head {q : Char} {v : List Char} (h : IsString q v) : ∃ x, v = q :: x := by
  cases h with
  | single => exact ⟨_, rfl⟩
  | double => exact ⟨_, rfl⟩

/-- The strings that a text starts with are what `closeQuote` finds: there is at most one. -/
theorem isString_prefix_iff {q : Char} {cs v : List Char} (hq : IsQuote q) :
    IsString q v ∧ v <+: q :: cs ↔ ∃ s, closeQuote q cs = some s ∧ v = q :: s.1 := by
  constructor
  · rintro ⟨hstring, rest, hrest⟩
    obtain ⟨x, rfl⟩ := hstring.head
    rw [List.cons_append, List.cons_inj_right] at hrest
    exact ⟨(x, rest), (closeQuote_eq_some_iff hq).2 ⟨hstring, hrest⟩, rfl⟩
  · rintro ⟨s, hs, rfl⟩
    obtain ⟨hstring, hwhole⟩ := (closeQuote_eq_some_iff hq).1 hs
    exact ⟨hstring, s.2, by rw [List.cons_append, ← hwhole]; rfl⟩

/-! ## Literals -/

/-- Whether a character needs a backslash between quotes `q`, to stand for itself. -/
def needsEscape (q c : Char) : Bool :=
  c == '\\' || c == q || (q == '"' && c == '$')

/-- A text with a backslash before each character that needs one. -/
def escaped (q : Char) (content : List Char) : List Char :=
  content.flatMap fun c => if needsEscape q c then ['\\', c] else [c]

/-- The string with this content. -/
def literal (q : Char) (content : List Char) : List Char :=
  q :: (escaped q content ++ [q])

theorem isString_literal {q : Char} (hq : IsQuote q) (content : List Char) :
    IsString q (literal q content) := by
  rcases hq with rfl | rfl
  · refine .single ?_
    induction content with
    | nil => exact .nil
    | cons c cs ih =>
      rw [escaped, List.flatMap_cons]
      split
      · exact .escape ih
      · next hplain =>
        simp [needsEscape] at hplain
        exact .plain hplain.1 hplain.2 ih
  · refine .double ?_
    induction content with
    | nil => exact .nil
    | cons c cs ih =>
      rw [escaped, List.flatMap_cons]
      split
      · exact .escape ih
      · next hplain =>
        simp [needsEscape] at hplain
        exact .plain hplain.1.1 hplain.1.2 (fun hc => absurd hc hplain.2) ih

end ManifestDocs.Lexeme

namespace ManifestDocs.Scanner

open ManifestDocs.Piece ManifestDocs.Lexeme

variable {s : Scanner} {q : Char} {cs : List Char}

/-! ## A scanner before a quote -/

theorem first_quote (hq : IsQuote q) (operand : Bool) (cs : List Char) :
    first operand q cs =
      ofSplit (.lexeme .string) (.unclosedQuote q (String.ofList (cs.take quoteExcerpt)))
        ((closeQuote q cs).map (Split.extend [q])) := by
  rcases hq with rfl | rfl <;> rfl

/-- A string that is closed is passed as one token. -/
theorem step_of_closeQuote {split : Split} (hq : IsQuote q) (h : closeQuote q cs = some split) :
    s.step q cs = .ok (some (s.token .string (q :: split.1)),
      ⟨split.2, s.cursor.past (q :: split.1), s.pending, some (s.token .string (q :: split.1))⟩) := by
  rw [step, first_quote hq, h]
  rfl

theorem step_of_unclosed (hq : IsQuote q) (h : closeQuote q cs = none) :
    s.step q cs = .error ⟨.unclosedQuote q (String.ofList (cs.take quoteExcerpt)), s.cursor.line,
      s.cursor.column⟩ := by
  rw [step, first_quote hq, h]
  rfl

theorem token_value_inj {kind : Token.Kind} {v w : List Char}
    (h : s.token kind v = s.token kind w) : v = w := by
  have hvalue := congrArg (·.value.toList) h
  simpa [Scanner.token] using hvalue

/-- The step at a quote makes a string token of what `closeQuote` finds. -/
theorem step_quote_iff {v : List Char} (hq : IsQuote q) :
    (∃ s', s.step q cs = .ok (some (s.token .string v), s')) ↔
      ∃ split, closeQuote q cs = some split ∧ v = q :: split.1 := by
  constructor
  · rintro ⟨s', hstep⟩
    cases hclose : closeQuote q cs with
    | none =>
      rw [step_of_unclosed hq hclose] at hstep
      cases hstep
    | some split =>
      rw [step_of_closeQuote hq hclose] at hstep
      injection hstep with hpair
      have htoken := Option.some.inj (congrArg Prod.fst hpair)
      exact ⟨split, rfl, (token_value_inj htoken).symm⟩
  · rintro ⟨split, hclose, rfl⟩
    exact ⟨_, step_of_closeQuote hq hclose⟩

/-- A string is read as one token, and the scanner then stands behind it. -/
theorem reads_string {v rest : List Char} (hq : IsQuote q) (hstring : IsString q v)
    (hrest : s.rest = v ++ rest) :
    Reads s [s.token .string v]
      ⟨rest, s.cursor.past v, s.pending, some (s.token .string v)⟩ := by
  obtain ⟨x, rfl⟩ := hstring.head
  have hclose : closeQuote q (x ++ rest) = some (x, rest) :=
    (closeQuote_eq_some_iff hq).2 ⟨hstring, rfl⟩
  obtain ⟨p, after, hfirst, hpass⟩ := step_eq_ok.1 (step_of_closeQuote (s := s) hq hclose)
  rw [← List.cons_append, ← hrest] at hfirst
  exact .step hfirst hpass .refl

/-- The token of a literal at the start of a text. -/
def literalToken (q : Char) (content : List Char) : Token :=
  ⟨.string, String.ofList (literal q content), ⟨0, 1, 1⟩, (literal q content).length⟩

theorem reads_literal (hq : IsQuote q) (content rest : List Char) :
    Reads (start (literal q content ++ rest)) [literalToken q content]
      ⟨rest, Cursor.start.past (literal q content), [], some (literalToken q content)⟩ := by
  have hreads := reads_string (s := start (literal q content ++ rest)) hq
    (isString_literal hq content) rfl
  have htoken : (start (literal q content ++ rest)).token .string (literal q content) =
      literalToken q content := by
    simp [Scanner.token, literalToken, start, Cursor.start, Cursor.place, Cursor.column]
  rw [htoken] at hreads
  exact hreads

/-- A literal alone is one token. -/
theorem scan_literal (hq : IsQuote q) (content : List Char) :
    Scan.ofText (String.ofList (literal q content)) =
      .ok ⟨[literalToken q content], (Cursor.start.past (literal q content)).place⟩ := by
  have hreads := reads_literal hq content []
  rw [List.append_nil] at hreads
  rw [Scan.ofText, String.toList_ofList]
  exact run_eq_ok.2 (hreads.runs (.stop rfl rfl))

/-- **Strings are delimited exactly.** Wherever a scanner of a text comes to a quote, the step it
takes there makes a string token of value `v` exactly if `v` is a string that the rest of the text
starts with. There is at most one; if there is one, the scanner goes on behind it, and if there is
none, the text is rejected for the quote that is not closed. So every content can be written as a
literal between either quotes, which is one token whatever follows it. -/
theorem quotes_delimited {text : String} {ts : List Token}
    (reached : Reads (start text.toList) ts s) (hrest : s.rest = q :: cs) (hq : IsQuote q) :
    (∀ v, (∃ s', s.step q cs = .ok (some (s.token .string v), s')) ↔
      IsString q v ∧ v <+: s.rest) ∧
    (∀ v w, IsString q v → v <+: s.rest → IsString q w → w <+: s.rest → v = w) ∧
    (∀ v, IsString q v → v <+: s.rest → ∃ s', s.rest = v ++ s'.rest ∧
      Reads (start text.toList) (ts ++ [s.token .string v]) s') ∧
    ((∀ v, IsString q v → ¬ v <+: s.rest) → Scan.ofText text =
      .error ⟨.unclosedQuote q (String.ofList (cs.take 20)), s.cursor.line, s.cursor.column⟩) ∧
    ∀ content, IsString q (literal q content) ∧
      (∀ rest, ∃ s', s'.rest = rest ∧
        Reads (start (literal q content ++ rest)) [literalToken q content] s') ∧
      ∃ stop, Scan.ofText (String.ofList (literal q content)) =
        .ok ⟨[literalToken q content], stop⟩ := by
  refine ⟨fun v => ?_, fun v w hv hv' hw hw' => ?_, fun v hv hv' => ?_, fun hnone => ?_,
    fun content => ⟨isString_literal hq content, fun rest => ?_, ?_⟩⟩
  · rw [hrest, step_quote_iff hq, isString_prefix_iff hq]
  · rw [hrest] at hv' hw'
    obtain ⟨split, hclose, rfl⟩ := (isString_prefix_iff hq).1 ⟨hv, hv'⟩
    obtain ⟨split', hclose', rfl⟩ := (isString_prefix_iff hq).1 ⟨hw, hw'⟩
    rw [hclose] at hclose'
    cases hclose'
    rfl
  · obtain ⟨rest, hv'⟩ := hv'
    exact ⟨_, hv'.symm, reached.trans (reads_string hq hv hv'.symm)⟩
  · have hclose : closeQuote q cs = none := by
      rw [Option.eq_none_iff_forall_ne_some]
      intro split hsplit
      obtain ⟨hstring, hstart⟩ := (isString_prefix_iff hq).2 ⟨split, hsplit, rfl⟩
      exact hnone _ hstring (hrest ▸ hstart)
    have hrun : (start text.toList).run = _ := reached.run
    rw [Scan.ofText, hrun, run_of_error hrest (step_of_unclosed hq hclose)]
    rfl
  · exact ⟨_, rfl, reads_literal hq content rest⟩
  · exact ⟨_, scan_literal hq content⟩

/-- A string on the second line, with a quote and braces inside its interpolation, and a quote after
it that is not closed. -/
def quoteInBraces : String := "\n\"$\x7b\x7b\"\x7d\\\"\x7d\" 'a"

/-- The scanner before the string. -/
def beforeQuoteInBraces : Scanner :=
  ⟨quoteInBraces.toList.tail, ⟨1, 2, 1⟩, [], none⟩

/-- The string ends with the last double quote. -/
theorem quoteInBraces_delimited :
    Reads (start quoteInBraces.toList) [] beforeQuoteInBraces ∧
      IsString '"' "\"$\x7b\x7b\"\x7d\\\"\x7d\"".toList ∧
      ∃ s', Reads (start quoteInBraces.toList)
        [⟨.string, "\"$\x7b\x7b\"\x7d\\\"\x7d\"", ⟨1, 2, 1⟩, 11⟩] s' ∧ s'.rest = " 'a".toList := by
  have hreached : Reads (start quoteInBraces.toList) [] beforeQuoteInBraces :=
    .step (t := none) .newline rfl .refl
  obtain ⟨hiff, -, hreads, -⟩ := quotes_delimited hreached rfl (.inr rfl)
  obtain ⟨hstring, hstart⟩ := (hiff "\"$\x7b\x7b\"\x7d\\\"\x7d\"".toList).1 ⟨_, rfl⟩
  obtain ⟨s', hrest, hreads⟩ := hreads _ hstring hstart
  exact ⟨hreached, hstring, s', hreads, List.append_cancel_left hrest.symm⟩

end ManifestDocs.Scanner
