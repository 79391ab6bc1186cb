/-
What may follow a lexeme. A lexeme with a mark at its end (a comment, a string, a regular
expression, a heredoc header) is found whatever follows that mark. A lexeme that ends where its
characters do (a word, a variable, a number, an operator) is found again if a line break follows
the text it was found in, since none of them has one in it.
-/
import ManifestDocs.Token.Piece

namespace ManifestDocs.Lexeme

open ManifestDocs.Text

/-- The split of a text that has `more` after it. -/
def Split.followed (s : Split) (more : List Char) : Split :=
  (s.1, s.2 ++ more)

@[simp] theorem Split.followed_fst (s : Split) (more : List Char) : (s.followed more).1 = s.1 := rfl

@[simp] theorem Split.followed_snd (s : Split) (more : List Char) :
    (s.followed more).2 = s.2 ++ more := rfl

@[simp] theorem Split.followed_extend (s : Split) (front more : List Char) :
    (s.extend front).followed more = (s.followed more).extend front := rfl

theorem Split.map_extend_followed {found found' : Option Split} {front more : List Char} {s : Split}
    (h : found.map (Split.extend front) = some s)
    (followed : ∀ {t : Split}, found = some t → found' = some (t.followed more)) :
    found'.map (Split.extend front) = some (s.followed more) := by
  obtain ⟨t, ht, rfl⟩ := Option.map_eq_some_iff.1 h
  rw [followed ht]
  rfl

theorem Split.andThen_followed {f : List Char → Split} {more : List Char}
    (hf : ∀ cs, f (cs ++ more) = (f cs).followed more) (s : Split) :
    (s.followed more).andThen f = (s.andThen f).followed more := by
  rw [andThen, andThen, followed_snd, hf, followed_fst, followed_extend]

/-! ## Lexemes with a mark at their end -/

theorem blockComment_followed {cs : List Char} {s : Split} (h : blockComment cs = some s)
    (more : List Char) : blockComment (cs ++ more) = some (s.followed more) := by
  fun_induction blockComment cs generalizing s with
  | case1 cs => cases h; rfl
  | case2 c cs hmark ih =>
    have hne : cs ≠ [] := by
      rintro rfl
      cases h
    obtain ⟨d, ds, rfl⟩ := List.exists_cons_of_ne_nil hne
    rw [List.cons_append, List.cons_append, blockComment]
    · exact Split.map_extend_followed h ih
    · rintro ds' rfl he
      cases he
      exact hmark ds rfl rfl
  | case3 => cases h

theorem singleQuoted_followed {cs : List Char} {s : Split} (h : singleQuoted cs = some s)
    (more : List Char) : singleQuoted (cs ++ more) = some (s.followed more) := by
  fun_induction singleQuoted cs generalizing s with
  | case1 c cs ih => exact Split.map_extend_followed h ih
  | case2 => cases h
  | case3 cs hescape hc =>
    cases h
    rfl
  | case4 c cs hescape hbackslash hquote ih =>
    rw [List.cons_append, singleQuoted, if_neg hbackslash, if_neg hquote]
    · exact Split.map_extend_followed h ih
    · rintro d ds rfl
      exact absurd rfl hbackslash
  | case5 => cases h

theorem doubleQuoted_followed {depth : Nat} {cs : List Char} {s : Split}
    (h : doubleQuoted depth cs = some s) (more : List Char) :
    doubleQuoted depth (cs ++ more) = some (s.followed more) := by
  fun_induction doubleQuoted depth cs generalizing s with
  | case1 depth c cs ih => exact Split.map_extend_followed h ih
  | case2 depth cs ih => exact Split.map_extend_followed h ih
  | case3 => cases h
  | case4 cs hescape hopens hbackslash =>
    cases h
    rfl
  | case5 c cs hescape hopens hbackslash hquote ih =>
    have hne : cs ≠ [] := by
      rintro rfl
      cases h
    obtain ⟨d, ds, rfl⟩ := List.exists_cons_of_ne_nil hne
    rw [List.cons_append, List.cons_append, doubleQuoted, if_neg hbackslash]
    · simp only [if_neg hquote]
      exact Split.map_extend_followed h ih
    · rintro d' ds' rfl
      exact absurd rfl hbackslash
    · rintro ds' rfl he
      cases he
      exact hopens ds rfl rfl
  | case6 cs depth hescape hopens hbackslash ih =>
    rw [List.cons_append, doubleQuoted, if_neg hbackslash]
    · exact Split.map_extend_followed h ih
    · rintro d ds he
      cases he
    · rintro ds he
      cases he
  | case7 cs depth hescape hopens hbackslash hopen ih =>
    rw [List.cons_append, doubleQuoted, if_neg hbackslash]
    · exact Split.map_extend_followed h ih
    · rintro d ds he
      cases he
    · rintro ds he
      cases he
  | case8 c cs hescape hopens hbackslash depth hopen hclose ih =>
    have hne : cs ≠ [] := by
      rintro rfl
      cases h
    obtain ⟨d, ds, rfl⟩ := List.exists_cons_of_ne_nil hne
    rw [List.cons_append, List.cons_append, doubleQuoted, if_neg hbackslash]
    · simp only [if_neg hopen, if_neg hclose]
      exact Split.map_extend_followed h ih
    · rintro d' ds' rfl
      exact absurd rfl hbackslash
    · rintro ds' rfl he
      cases he
      exact hopens ds rfl rfl
  | case9 => cases h

theorem regex_followed {cs : List Char} {s : Split} (h : regex cs = some s) (more : List Char) :
    regex (cs ++ more) = some (s.followed more) := by
  fun_induction regex cs generalizing s with
  | case1 => cases h
  | case2 c cs hnewline ih =>
    rw [List.cons_append, List.cons_append, regex, if_neg hnewline]
    exact Split.map_extend_followed h ih
  | case3 => cases h
  | case4 cs hescape hmark =>
    cases h
    rfl
  | case5 c cs hescape hmark hslash ih =>
    rw [List.cons_append, regex, if_neg hmark, if_neg hslash]
    · exact Split.map_extend_followed h ih
    · rintro d ds rfl
      simp at hmark
  | case6 => cases h

/-- A regular expression that does not end in a text does not end after a line break either. -/
theorem regex_newline_eq_none {cs : List Char} (h : regex cs = none) (more : List Char) :
    regex (cs ++ '\n' :: more) = none := by
  fun_induction regex cs with
  | case1 cs => rfl
  | case2 c cs hnewline ih =>
    rw [List.cons_append, List.cons_append, regex, if_neg hnewline, ih (by simpa using h)]
    rfl
  | case3 c cs hescape hmark =>
    simp only [Bool.or_eq_true, decide_eq_true_eq] at hmark
    cases cs with
    | nil => rcases hmark with rfl | rfl <;> rfl
    | cons d ds =>
      rcases hmark with rfl | rfl
      · exact absurd rfl (hescape d ds rfl)
      · rfl
  | case4 => cases h
  | case5 c cs hescape hmark hslash ih =>
    rw [List.cons_append, regex, if_neg hmark, if_neg hslash, ih (by simpa using h)]
    · rfl
    · rintro d ds rfl
      simp at hmark
  | case6 => rfl

/-! ## Lexemes that end where their characters do -/

section Before

variable {d : Char} (more : List Char)

theorem run_before {p : Char → Bool} (hp : p d = false) (cs : List Char) :
    run p (cs ++ d :: more) = (run p cs).followed (d :: more) := by
  induction cs with
  | nil => simp [run, hp, Split.followed]
  | cons c cs ih =>
    simp only [run, Split.followed, Prod.mk.injEq, List.cons_append, List.takeWhile_cons,
      List.dropWhile_cons] at ih ⊢
    by_cases hc : p c = true
    · simp only [hc, if_true, List.cons.injEq, true_and]
      exact ih
    · simp [hc]

variable (hword : isWordChar d = false) (hcolon : d ≠ ':')
include hword hcolon

theorem segments_before {start : Char → Bool} (hstart : start d = false) (cs : List Char) :
    segments start (cs ++ d :: more) = (segments start cs).followed (d :: more) := by
  have hrun := run_before more hword
  simp only [run, Split.followed, Prod.mk.injEq] at hrun
  fun_induction segments start cs with
  | case1 c rest hc ih =>
    rw [List.cons_append, List.cons_append, List.cons_append, segments, if_pos hc, (hrun rest).1,
      (hrun rest).2, ih]
    rfl
  | case2 c rest hc =>
    rw [List.cons_append, List.cons_append, List.cons_append, segments, if_neg hc]
    rfl
  | case3 cs hcolons =>
    by_cases hpair : cs = [':', ':']
    · subst hpair
      rw [List.cons_append, List.cons_append, List.nil_append, segments, if_neg (by simp [hstart])]
      rfl
    · rw [segments]
      · rfl
      · intro c rest he
        match cs, he with
        | [], he => cases he; exact hcolon rfl
        | [_], he => cases he; exact hcolon rfl
        | [_, _], he => cases he; exact hpair rfl
        | _ :: _ :: d :: ds, he => cases he; exact hcolons _ _ rfl

theorem path_before {start : Char → Bool} (hstart : start d = false) (cs : List Char) :
    path start (cs ++ d :: more) = (path start cs).map (·.followed (d :: more)) := by
  have hrun := run_before more hword
  simp only [run, Split.followed, Prod.mk.injEq] at hrun
  cases cs with
  | nil => simp [path, hstart]
  | cons c cs =>
    rw [List.cons_append, path, path]
    by_cases hc : start c = true
    · rw [if_pos hc, if_pos hc, (hrun cs).1, (hrun cs).2, segments_before more hword hcolon hstart]
      rfl
    · rw [if_neg hc, if_neg hc]
      rfl

theorem qualified_before {start : Char → Bool} (hstart : start d = false) (cs : List Char) :
    qualified start (cs ++ d :: more) = (qualified start cs).map (·.followed (d :: more)) := by
  fun_cases qualified start cs with
  | case1 cs =>
    rw [List.cons_append, List.cons_append, qualified, path_before more hword hcolon hstart,
      Option.map_map, Option.map_map]
    rfl
  | case2 cs hcolons =>
    rw [qualified, path_before more hword hcolon hstart]
    intro rest he
    match cs, he with
    | [], he => cases he; exact hcolon rfl
    | [_], he => cases he; exact hcolon rfl
    | _ :: _ :: ds, he => cases he; exact hcolons ds rfl

/-- A word is found again before any character that cannot go on with it. -/
theorem word_before (hstart : startsWord d = false) (cs : List Char) :
    word (cs ++ d :: more) = (word cs).map (·.followed (d :: more)) :=
  qualified_before more hword hcolon hstart cs

end Before

section Newline

variable (more : List Char)

theorem run_newline {p : Char → Bool} (hp : p '\n' = false) (cs : List Char) :
    run p (cs ++ '\n' :: more) = (run p cs).followed ('\n' :: more) :=
  run_before more hp cs

theorem word_newline (cs : List Char) :
    word (cs ++ '\n' :: more) = (word cs).map (·.followed ('\n' :: more)) :=
  word_before more (by decide) (by decide) (by decide) cs

theorem variableName_newline (cs : List Char) :
    variableName (cs ++ '\n' :: more) = (variableName cs).map (·.followed ('\n' :: more)) := by
  fun_cases variableName cs with
  | case1 cs =>
    rw [List.cons_append, variableName, qualified_before more (by decide) (by decide) (by decide),
      Option.map_map, Option.map_map]
    rfl
  | case2 cs hdollar =>
    rw [variableName, Option.map_none]
    intro rest he
    cases cs with
    | nil => cases he
    | cons c cs => cases he; exact hdollar cs rfl

theorem hexNumber_newline (cs : List Char) :
    hexNumber (cs ++ '\n' :: more) = (hexNumber cs).map (·.followed ('\n' :: more)) := by
  fun_cases hexNumber cs with
  | case1 x c cs hx =>
    rw [List.cons_append, List.cons_append, List.cons_append, hexNumber, if_pos hx,
      ← List.cons_append, run_newline more (by decide)]
    rfl
  | case2 x c cs hx =>
    rw [List.cons_append, List.cons_append, List.cons_append, hexNumber, if_neg hx, Option.map_none]
  | case3 cs hzero =>
    rw [Option.map_none, hexNumber.eq_def]
    split
    · next x c rest he =>
      rw [if_neg]
      match cs, he with
      | [], he => cases he
      | [_], he => cases he; simp
      | [_, _], he => cases he; simp [isHexDigit]
      | _ :: _ :: d :: ds, he => cases he; exact absurd rfl (hzero _ _ _)
    · rfl

theorem fraction_newline (cs : List Char) :
    fraction (cs ++ '\n' :: more) = (fraction cs).followed ('\n' :: more) := by
  fun_cases fraction cs with
  | case1 c cs hc =>
    rw [List.cons_append, List.cons_append, fraction, if_pos hc, ← List.cons_append,
      run_newline more (by decide)]
    rfl
  | case2 c cs hc =>
    rw [List.cons_append, List.cons_append, fraction, if_neg hc]
    rfl
  | case3 cs hdot =>
    rw [fraction.eq_def]
    split
    · next c rest he =>
      rw [if_neg]
      · rw [← he]; rfl
      match cs, he with
      | [], he => cases he
      | [_], he => cases he; decide
      | _ :: d :: ds, he => cases he; exact absurd rfl (hdot _ _)
    · rfl

theorem exponent_newline (cs : List Char) :
    exponent (cs ++ '\n' :: more) = (exponent cs).followed ('\n' :: more) := by
  have hnewline : isDecimal '\n' = false := by decide
  match cs with
  | [] =>
    match more with
    | [] => simp [exponent, Split.followed]
    | [_] => simp [exponent, Split.followed]
    | _ :: _ :: _ => simp [exponent, Split.followed]
  | [e] =>
    match more with
    | [] => simp [exponent, Split.followed, hnewline]
    | _ :: _ => simp [exponent, Split.followed, hnewline]
  | [e, s] =>
    simp only [List.cons_append, List.nil_append, exponent, hnewline, Bool.and_false]
    by_cases he : (decide (e = 'e') || decide (e = 'E')) = true
    · by_cases hs : isDecimal s = true
      · simp [he, hs, run, hnewline, Split.followed, Split.extend]
      · simp [he, hs, Split.followed]
    · simp [he, Split.followed]
  | e :: s :: c :: rest =>
    have hrun := run_newline more (p := isDecimal) hnewline
    simp only [List.cons_append, exponent]
    split
    · split
      · rw [← List.cons_append, ← List.cons_append, hrun]
        rfl
      · split
        · rw [← List.cons_append, hrun]
          rfl
        · rfl
    · rfl

theorem number_newline (cs : List Char) :
    number (cs ++ '\n' :: more) = (number cs).map (·.followed ('\n' :: more)) := by
  have hrun := run_newline more (p := isDecimal) (by decide) cs
  have hdecimal : decimalNumber (cs ++ '\n' :: more) =
      (decimalNumber cs).map (·.followed ('\n' :: more)) := by
    rw [decimalNumber, decimalNumber, hrun]
    by_cases hdigits : (run isDecimal cs).1.isEmpty = true
    · rw [if_pos hdigits, Split.followed_fst, if_pos hdigits, Option.map_none]
    · rw [if_neg hdigits, Split.followed_fst, if_neg hdigits, Option.map_some,
        Split.andThen_followed (fraction_newline more),
        Split.andThen_followed (exponent_newline more)]
  rw [number, number, hexNumber_newline, hdecimal]
  cases hexNumber cs <;> rfl

end Newline

/-! ## Lexemes on one line -/

/-- A reading that finds the same lexeme whether or not a line break follows the text gives lexemes
without line breaks: such a lexeme ends before the first line break of its text. -/
theorem unbroken_of_newline {f : List Char → Option Split}
    (hf : ∀ more cs, f (cs ++ '\n' :: more) = (f cs).map (·.followed ('\n' :: more)))
    (hwhole : ∀ {cs : List Char} {s : Split}, f cs = some s → s.whole = cs)
    {cs : List Char} {s : Split} (h : f cs = some s) : '\n' ∉ s.1 := by
  intro hmem
  have hcs : '\n' ∈ cs := by
    rw [← hwhole h]
    exact List.mem_append_left _ hmem
  obtain ⟨line, more, rfl, hline⟩ := List.eq_append_cons_of_mem hcs
  rw [hf, Option.map_eq_some_iff] at h
  obtain ⟨t, ht, rfl⟩ := h
  apply hline
  rw [← hwhole ht]
  exact List.mem_append_left _ hmem

theorem word_unbroken {cs : List Char} {s : Split} (h : word cs = some s) : '\n' ∉ s.1 :=
  unbroken_of_newline word_newline whole_of_word h

theorem variableName_unbroken {cs : List Char} {s : Split} (h : variableName cs = some s) :
    '\n' ∉ s.1 :=
  unbroken_of_newline variableName_newline whole_of_variableName h

theorem number_unbroken {cs : List Char} {s : Split} (h : number cs = some s) : '\n' ∉ s.1 :=
  unbroken_of_newline number_newline whole_of_number h

theorem regex_unbroken {cs : List Char} {s : Split} (h : regex cs = some s) : '\n' ∉ s.1 := by
  fun_induction regex cs generalizing s with
  | case1 => cases h
  | case2 c cs hnewline ih =>
    obtain ⟨t, ht, rfl⟩ := Option.map_eq_some_iff.1 h
    simp [Split.extend, ih ht, Ne.symm hnewline]
  | case3 => cases h
  | case4 => cases h; simp
  | case5 c cs hescape hmark hslash ih =>
    obtain ⟨t, ht, rfl⟩ := Option.map_eq_some_iff.1 h
    simp only [Bool.or_eq_true, decide_eq_true_eq, not_or] at hmark
    simp [Split.extend, ih ht, Ne.symm hmark.2]
  | case6 => cases h

end ManifestDocs.Lexeme
