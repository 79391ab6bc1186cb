/-
Texts cut off behind a lexeme. How far a lexeme reaches may depend on the characters behind it, but
only by where it has to stop: cut off anywhere behind its end, the text starts with the same lexeme
(`Cuttable`), and so it starts with the same piece (`First.cut`). Heredoc headers are left out: what
follows the line of a header belongs to the heredoc.

For the lexemes with a mark at their end the induction is over the text they were found in; the
characters in front of the mark are then the first ones of the text that was cut off. The others are
put together from runs of characters.
-/
import ManifestDocs.Proofs.Runs

namespace ManifestDocs.Lexeme

open ManifestDocs.Text

/-- A text may be cut anywhere behind a lexeme that `f` finds in it: the lexeme is found again. -/
def Cuttable (f : List Char → Option Split) : Prop :=
  ∀ ⦃cs more : List Char⦄ ⦃s : Split⦄, f (cs ++ more) = some s → s.1.length ≤ cs.length →
    ∃ t, f cs = some t ∧ s = t.followed more

/-- The same of a reading that always finds something, if only nothing. -/
theorem Cuttable.eq_followed {f : List Char → Split} (h : Cuttable (some ∘ f))
    {cs more : List Char} (hle : (f (cs ++ more)).1.length ≤ cs.length) :
    f (cs ++ more) = (f cs).followed more := by
  obtain ⟨t, ht, hs⟩ := h rfl hle
  cases ht
  exact hs

/-- Characters that fit into `cs` are the first ones of `cs`. -/
theorem cut_front (front : List Char) {rest cs more : List Char}
    (htext : front ++ rest = cs ++ more) (hle : front.length ≤ cs.length) :
    ∃ ds, cs = front ++ ds ∧ rest = ds ++ more := by
  obtain ⟨ds, rfl⟩ : front <+: cs :=
    List.prefix_of_prefix_length_le ⟨rest, htext⟩ (List.prefix_append cs more) hle
  rw [List.append_assoc, List.append_cancel_left_eq] at htext
  exact ⟨ds, rfl, htext⟩

/-- A reading that takes the characters `front` and goes on with `g`. -/
theorem cut_extend (front : List Char) {found : Option Split} {g : List Char → Option Split}
    {rest cs more : List Char} {s : Split} (htext : front ++ rest = cs ++ more)
    (h : (g rest).map (Split.extend front) = some s) (hle : s.1.length ≤ cs.length)
    (cut : ∀ {ds t}, g rest = some t → rest = ds ++ more → t.1.length ≤ ds.length →
      ∃ t', g ds = some t' ∧ t = t'.followed more)
    (hfound : ∀ ds, cs = front ++ ds → rest = ds ++ more →
      found = (g ds).map (Split.extend front)) :
    ∃ t, found = some t ∧ s = t.followed more := by
  obtain ⟨t, ht, rfl⟩ := Option.map_eq_some_iff.1 h
  have hlength : front.length + t.1.length ≤ cs.length := by
    simpa [Split.extend] using hle
  obtain ⟨ds, rfl, rfl⟩ := cut_front front htext (by omega)
  rw [List.length_append] at hlength
  obtain ⟨t', ht', rfl⟩ := cut ht rfl (by omega)
  refine ⟨t'.extend front, ?_, rfl⟩
  rw [hfound ds rfl rfl, ht']
  rfl

/-! ## Lexemes with a mark at their end -/

theorem blockComment_cut : Cuttable blockComment := by
  intro cs more s h hle
  generalize htext : cs ++ more = text at h
  fun_induction blockComment text generalizing cs s with
  | case1 rest =>
    cases h
    obtain ⟨ds, rfl, rfl⟩ := cut_front ['*', '/'] htext.symm hle
    exact ⟨_, rfl, rfl⟩
  | case2 c rest hmark ih =>
    refine cut_extend [c] htext.symm h hle (fun ht hrest hle => ih hle hrest.symm ht) ?_
    rintro ds rfl rfl
    rw [List.singleton_append, blockComment]
    rintro ds' hc rfl
    exact hmark (ds' ++ more) hc rfl
  | case3 => cases h

theorem singleQuoted_cut : Cuttable singleQuoted := by
  intro cs more s h hle
  generalize htext : cs ++ more = text at h
  fun_induction singleQuoted text generalizing cs s with
  | case1 c rest ih =>
    refine cut_extend ['\\', c] htext.symm h hle (fun ht hrest hle => ih hle hrest.symm ht) ?_
    rintro ds rfl rfl
    rfl
  | case2 => cases h
  | case3 rest hescape hc =>
    cases h
    obtain ⟨ds, rfl, rfl⟩ := cut_front ['\''] htext.symm hle
    exact ⟨_, rfl, rfl⟩
  | case4 c rest hescape hbackslash hquote ih =>
    refine cut_extend [c] htext.symm h hle (fun ht hrest hle => ih hle hrest.symm ht) ?_
    rintro ds rfl rfl
    rw [List.singleton_append, singleQuoted, if_neg hbackslash, if_neg hquote]
    rintro d ds' rfl
    exact absurd rfl hbackslash
  | case5 => cases h

theorem doubleQuoted_cut (depth : Nat) : Cuttable (doubleQuoted depth) := by
  intro cs more s h hle
  generalize htext : cs ++ more = text at h
  fun_induction doubleQuoted depth text generalizing cs s with
  | case1 depth c rest ih =>
    refine cut_extend ['\\', c] htext.symm h hle (fun ht hrest hle => ih hle hrest.symm ht) ?_
    rintro ds rfl rfl
    rfl
  | case2 depth rest ih =>
    refine cut_extend ['$', '\x7b'] htext.symm h hle (fun ht hrest hle => ih hle hrest.symm ht) ?_
    rintro ds rfl rfl
    rfl
  | case3 => cases h
  | case4 rest hescape hopens hbackslash =>
    cases h
    obtain ⟨ds, rfl, rfl⟩ := cut_front ['"'] htext.symm hle
    exact ⟨_, rfl, rfl⟩
  | case5 c rest hescape hopens hbackslash hquote ih =>
    refine cut_extend [c] htext.symm h hle (fun ht hrest hle => ih hle hrest.symm ht) ?_
    rintro ds rfl rfl
    rw [List.singleton_append, doubleQuoted, if_neg hbackslash]
    · simp only [if_neg hquote]
    · rintro d ds' rfl
      exact absurd rfl hbackslash
    · rintro ds' hc rfl
      exact hopens (ds' ++ more) hc rfl
  | case6 rest depth hescape hopens hbackslash ih =>
    refine cut_extend ['\x7b'] htext.symm h hle (fun ht hrest hle => ih hle hrest.symm ht) ?_
    rintro ds rfl rfl
    rfl
  | case7 rest depth hescape hopens hbackslash hopen ih =>
    refine cut_extend ['\x7d'] htext.symm h hle (fun ht hrest hle => ih hle hrest.symm ht) ?_
    rintro ds rfl rfl
    rfl
  | case8 c rest hescape hopens hbackslash depth hopen hclose ih =>
    refine cut_extend [c] htext.symm h hle (fun ht hrest hle => ih hle hrest.symm ht) ?_
    rintro ds rfl rfl
    rw [List.singleton_append, doubleQuoted, if_neg hbackslash]
    · simp only [if_neg hopen, if_neg hclose]
    · rintro d ds' rfl
      exact absurd rfl hbackslash
    · rintro ds' hc rfl
      exact hopens (ds' ++ more) hc rfl
  | case9 => cases h

theorem regex_cut : Cuttable regex := by
  intro cs more s h hle
  generalize htext : cs ++ more = text at h
  fun_induction regex text generalizing cs s with
  | case1 => cases h
  | case2 c rest hnewline ih =>
    refine cut_extend ['\\', c] htext.symm h hle (fun ht hrest hle => ih hle hrest.symm ht) ?_
    rintro ds rfl rfl
    rw [List.cons_append, List.singleton_append, regex, if_neg hnewline]
  | case3 => cases h
  | case4 rest hescape hmark =>
    cases h
    obtain ⟨ds, rfl, rfl⟩ := cut_front ['/'] htext.symm hle
    exact ⟨_, rfl, rfl⟩
  | case5 c rest hescape hmark hslash ih =>
    refine cut_extend [c] htext.symm h hle (fun ht hrest hle => ih hle hrest.symm ht) ?_
    rintro ds rfl rfl
    rw [List.singleton_append, regex, if_neg hmark, if_neg hslash]
    rintro d ds' rfl
    simp at hmark
  | case6 => cases h

/-! ## Lexemes that end where their characters do -/

theorem run_cut (p : Char → Bool) : Cuttable (some ∘ run p) := by
  intro cs more s h hle
  cases h
  refine ⟨_, rfl, ?_⟩
  induction cs with
  | nil =>
    have hnone : more.takeWhile p = [] := List.length_eq_zero_iff.1 (Nat.le_zero.1 hle)
    have hwhole := List.takeWhile_append_dropWhile (p := p) (l := more)
    rw [hnone, List.nil_append] at hwhole
    simp [run, Split.followed, hnone, hwhole]
  | cons c cs ih =>
    simp only [run, Split.followed, Prod.mk.injEq, List.cons_append, List.takeWhile_cons,
      List.dropWhile_cons] at ih hle ⊢
    by_cases hc : p c = true
    · simp only [hc, if_true, List.length_cons, List.cons.injEq, true_and] at hle ⊢
      exact ih (by omega)
    · simp [hc]

/-- One reading after the other. -/
theorem Cuttable.andThen {f g : List Char → Split} (hf : Cuttable (some ∘ f))
    (hwhole : ∀ cs, (f cs).whole = cs) (hg : Cuttable (some ∘ g)) :
    Cuttable (some ∘ fun cs => (f cs).andThen g) := by
  intro cs more s h hle
  cases h
  refine ⟨_, rfl, ?_⟩
  simp only [Split.andThen, Split.extend, List.length_append] at hle ⊢
  have hfirst : f (cs ++ more) = (f cs).followed more := hf.eq_followed (by omega)
  have hlength := congrArg List.length (hwhole cs)
  rw [Split.whole, List.length_append] at hlength
  rw [hfirst, Split.followed_fst, Split.followed_snd] at hle ⊢
  rw [hg.eq_followed (by omega)]
  rfl

/-- One reading, or the other where the first finds nothing. -/
theorem Cuttable.or {f g : List Char → Option Split} (hf : Cuttable f)
    (found : ∀ {cs s}, f cs = some s → ∀ more, ∃ t, f (cs ++ more) = some t) (hg : Cuttable g) :
    Cuttable fun cs => (f cs).or (g cs) := by
  intro cs more s h hle
  rcases Option.or_eq_some_iff.1 h with h | ⟨hnone, h⟩
  · obtain ⟨t, ht, hs⟩ := hf h hle
    exact ⟨t, Option.or_eq_some_iff.2 (.inl ht), hs⟩
  · obtain ⟨t, ht, hs⟩ := hg h hle
    cases hcut : f cs with
    | none => exact ⟨t, Option.or_eq_some_iff.2 (.inr ⟨hcut, ht⟩), hs⟩
    | some t' =>
      obtain ⟨t'', hfound⟩ := found hcut more
      rw [hnone] at hfound
      cases hfound

/-- A mark and the run of characters after it, or what `g` finds where there is no mark. -/
theorem cuttable_of_marks {f g : List Char → Option Split} {p : Char → Bool}
    {IsMark : List Char → Prop}
    (marked : ∀ front, IsMark front → ∀ cs, f (front ++ cs) = some ((run p cs).extend front))
    (plain : ∀ cs, (∀ front, IsMark front → ¬ front <+: cs) → f cs = g cs) (hg : Cuttable g) :
    Cuttable f := by
  intro cs more s h hle
  by_cases hmark : ∃ front, IsMark front ∧ front <+: cs ++ more
  · obtain ⟨front, hfront, rest, hrest⟩ := hmark
    rw [← hrest, marked front hfront] at h
    refine cut_extend front hrest (g := some ∘ run p) h hle ?_ ?_
    · rintro ds t ht rfl hle
      exact run_cut p ht hle
    · rintro ds rfl -
      exact marked front hfront ds
  · have hnone : ∀ front, IsMark front → ¬ front <+: cs ++ more :=
      fun front hfront hstarts => hmark ⟨front, hfront, hstarts⟩
    have hnone' : ∀ front, IsMark front → ¬ front <+: cs :=
      fun front hfront hstarts => hnone front hfront (hstarts.trans (List.prefix_append cs more))
    rw [plain _ hnone] at h
    rw [plain _ hnone']
    exact hg h hle

theorem cuttable_none : Cuttable fun _ => none := by
  intro cs more s h
  cases h

theorem cuttable_nil : Cuttable fun cs => some ([], cs) := by
  intro cs more s h hle
  cases h
  exact ⟨_, rfl, rfl⟩

/-! ### Names -/

theorem segments_cut (start : Char → Bool) : Cuttable (some ∘ segments start) := by
  intro cs more s h hle
  cases h
  refine ⟨_, rfl, ?_⟩
  fun_induction segments start cs with
  | case1 c rest hc ih =>
    rw [List.cons_append, List.cons_append, List.cons_append, segments, if_pos hc] at hle ⊢
    simp only [Split.extend, List.length_append, List.length_cons] at hle
    have hrun : run isWordChar (rest ++ more) = (run isWordChar rest).followed more :=
      (run_cut isWordChar).eq_followed
        (by show (List.takeWhile isWordChar (rest ++ more)).length ≤ _; omega)
    simp only [run, Split.followed, Prod.mk.injEq] at hrun
    have hlength := congrArg List.length (whole_run isWordChar rest)
    simp only [run, Split.whole, List.length_append] at hlength
    rw [hrun.1, hrun.2] at hle ⊢
    rw [ih (by omega)]
    rfl
  | case2 c rest hc =>
    rw [List.cons_append, List.cons_append, List.cons_append, segments, if_neg hc]
    rfl
  | case3 cs hcolons =>
    by_cases hends : ∃ c rest, cs ++ more = ':' :: ':' :: c :: rest ∧ start c = true
    · -- a segment that ends within `cs` starts there
      obtain ⟨c, rest, htext, hc⟩ := hends
      have hlength : 3 ≤ cs.length := by
        rw [htext, segments, if_pos hc] at hle
        simp only [Split.extend, List.length_append, List.length_cons] at hle
        omega
      obtain ⟨ds, rfl, -⟩ := cut_front [':', ':', c] htext.symm hlength
      exact absurd rfl (hcolons c ds)
    · rw [segments.eq_def]
      split
      · next c rest htext =>
        rw [if_neg fun hc => hends ⟨c, rest, htext, hc⟩]
        rfl
      · rfl

theorem path_cons {start : Char → Bool} {c : Char} (hc : start c = true) (cs : List Char) :
    path start (c :: cs) =
      some (((run isWordChar cs).andThen (segments start)).extend [c]) := by
  rw [path, if_pos hc]
  rfl

theorem path_cut (start : Char → Bool) : Cuttable (path start) := by
  intro cs more s h hle
  generalize htext : cs ++ more = text at h
  fun_cases path start text with
  | case1 c rest hc =>
    rw [path_cons hc] at h
    refine cut_extend [c] htext.symm (g := some ∘ fun cs => (run isWordChar cs).andThen _)
      h hle ?_ ?_
    · rintro ds t ht rfl hle
      exact (run_cut isWordChar).andThen (whole_run isWordChar) (segments_cut start) ht hle
    · rintro ds rfl -
      exact path_cons hc ds
  | case2 c rest hc =>
    rw [path, if_neg hc] at h
    cases h
  | case3 => cases h

theorem qualified_cut (start : Char → Bool) : Cuttable (qualified start) := by
  intro cs more s h hle
  generalize htext : cs ++ more = text at h
  fun_cases qualified start text with
  | case1 rest =>
    refine cut_extend [':', ':'] htext.symm h hle ?_ ?_
    · rintro ds t ht rfl hle
      exact path_cut start ht hle
    · rintro ds rfl -
      rfl
  | case2 text hcolons =>
    subst htext
    rw [qualified] at h
    · obtain ⟨t, ht, hs⟩ := path_cut start h hle
      refine ⟨t, ?_, hs⟩
      rw [qualified, ht]
      rintro ds rfl
      exact hcolons (ds ++ more) rfl
    · exact hcolons

theorem word_cut : Cuttable word :=
  qualified_cut startsWord

theorem variableName_cut : Cuttable variableName := by
  intro cs more s h hle
  generalize htext : cs ++ more = text at h
  fun_cases variableName text with
  | case1 rest =>
    refine cut_extend ['$'] htext.symm h hle ?_ ?_
    · rintro ds t ht rfl hle
      exact qualified_cut isWordChar ht hle
    · rintro ds rfl -
      rfl
  | case2 text hdollar =>
    rw [variableName] at h
    · cases h
    · exact hdollar

/-! ### Numbers -/

theorem run_cons {p : Char → Bool} {c : Char} (hc : p c = true) (cs : List Char) :
    run p (c :: cs) = (run p cs).extend [c] := by
  simp [run, Split.extend, hc]

/-- What tells a hexadecimal number: its first three characters. -/
def HexMark (front : List Char) : Prop :=
  ∃ x c, front = ['0', x, c] ∧ (x = 'x' ∨ x = 'X') ∧ isHexDigit c = true

theorem hexNumber_marked (front : List Char) (h : HexMark front) (cs : List Char) :
    hexNumber (front ++ cs) = some ((run isHexDigit cs).extend front) := by
  obtain ⟨x, c, rfl, hx, hc⟩ := h
  simp [hexNumber, hx, hc, run_cons hc, Split.extend]

theorem hexNumber_plain (cs : List Char) (h : ∀ front, HexMark front → ¬ front <+: cs) :
    hexNumber cs = none := by
  fun_cases hexNumber cs with
  | case1 x c cs hx =>
    simp only [Bool.and_eq_true, Bool.or_eq_true, decide_eq_true_eq] at hx
    exact absurd (List.prefix_append ['0', x, c] cs) (h _ ⟨x, c, rfl, hx⟩)
  | case2 => rfl
  | case3 => rfl

theorem hexNumber_cut : Cuttable hexNumber :=
  cuttable_of_marks hexNumber_marked hexNumber_plain cuttable_none

/-- What tells a fraction: a dot and a digit. -/
def FractionMark (front : List Char) : Prop :=
  ∃ c, front = ['.', c] ∧ isDecimal c = true

theorem fraction_marked (front : List Char) (h : FractionMark front) (cs : List Char) :
    fraction (front ++ cs) = (run isDecimal cs).extend front := by
  obtain ⟨c, rfl, hc⟩ := h
  simp [fraction, hc, run_cons hc, Split.extend]

theorem fraction_plain (cs : List Char) (h : ∀ front, FractionMark front → ¬ front <+: cs) :
    fraction cs = ([], cs) := by
  fun_cases fraction cs with
  | case1 c cs hc => exact absurd (List.prefix_append ['.', c] cs) (h _ ⟨c, rfl, hc⟩)
  | case2 => rfl
  | case3 => rfl

theorem fraction_cut : Cuttable (some ∘ fraction) :=
  cuttable_of_marks (fun front h cs => congrArg some (fraction_marked front h cs))
    (fun cs h => congrArg some (fraction_plain cs h)) cuttable_nil

/-- What tells an exponent: its letter and a digit, with a sign between them or without. -/
def ExponentMark (front : List Char) : Prop :=
  ∃ e sign c, front = e :: (sign ++ [c]) ∧ (e = 'e' ∨ e = 'E') ∧
    (sign = [] ∨ sign = ['+'] ∨ sign = ['-']) ∧ isDecimal c = true

theorem exponent_marked (front : List Char) (h : ExponentMark front) (cs : List Char) :
    exponent (front ++ cs) = (run isDecimal cs).extend front := by
  obtain ⟨e, sign, c, rfl, he, hsign, hc⟩ := h
  rcases hsign with rfl | rfl | rfl
  · cases cs with
    | nil => simp [exponent, he, hc, run, Split.extend]
    | cons d cs => simp [exponent, he, hc, run_cons hc, Split.extend]
  · have hplus : isDecimal '+' = false := by decide
    simp [exponent, he, hc, hplus, run_cons hc, Split.extend]
  · have hminus : isDecimal '-' = false := by decide
    simp [exponent, he, hc, hminus, run_cons hc, Split.extend]

theorem exponent_plain (cs : List Char) (h : ∀ front, ExponentMark front → ¬ front <+: cs) :
    exponent cs = ([], cs) := by
  fun_cases exponent cs with
  | case1 e c d rest he hc =>
    simp only [Bool.or_eq_true, decide_eq_true_eq] at he
    exact absurd (List.prefix_append [e, c] (d :: rest)) (h _ ⟨e, [], c, rfl, he, .inl rfl, hc⟩)
  | case2 e sign c rest he _ hc =>
    simp only [Bool.and_eq_true, Bool.or_eq_true, decide_eq_true_eq] at he hc
    have hsign : [sign] = [] ∨ [sign] = ['+'] ∨ [sign] = ['-'] := by simpa using hc.1
    exact absurd (List.prefix_append [e, sign, c] rest) (h _ ⟨e, [sign], c, rfl, he, hsign, hc.2⟩)
  | case5 e c hc =>
    simp only [Bool.and_eq_true, Bool.or_eq_true, decide_eq_true_eq] at hc
    exact absurd (List.prefix_refl [e, c]) (h _ ⟨e, [], c, rfl, hc.1, .inl rfl, hc.2⟩)
  | _ => rfl

theorem exponent_cut : Cuttable (some ∘ exponent) :=
  cuttable_of_marks (fun front h cs => congrArg some (exponent_marked front h cs))
    (fun cs h => congrArg some (exponent_plain cs h)) cuttable_nil

theorem decimalNumber_cut : Cuttable decimalNumber := by
  have hparts :
      Cuttable (some ∘ fun cs => ((run isDecimal cs).andThen fraction).andThen exponent) :=
    ((run_cut isDecimal).andThen (whole_run isDecimal) fraction_cut).andThen
      (fun cs => (Split.whole_andThen _ whole_fraction).trans (whole_run isDecimal cs)) exponent_cut
  intro cs more s h hle
  rw [decimalNumber] at h
  split at h
  · cases h
  · next hdigits =>
    obtain ⟨t, ht, hs⟩ := hparts h hle
    refine ⟨t, ?_, hs⟩
    -- the digits end within `cs`, so that there are some in it
    have hrun : run isDecimal (cs ++ more) = (run isDecimal cs).followed more := by
      refine (run_cut isDecimal).eq_followed ?_
      cases h
      simp only [Split.andThen, Split.extend, List.length_append] at hle
      omega
    rw [hrun, Split.followed_fst] at hdigits
    rw [decimalNumber, if_neg hdigits]
    exact ht

theorem number_cut : Cuttable number := by
  refine hexNumber_cut.or (fun {cs s} h more => ?_) decimalNumber_cut
  by_cases hmark : ∃ front, HexMark front ∧ front <+: cs
  · obtain ⟨front, hfront, ds, rfl⟩ := hmark
    rw [List.append_assoc, hexNumber_marked front hfront]
    exact ⟨_, rfl⟩
  · rw [hexNumber_plain cs fun front hfront hstarts => hmark ⟨front, hfront, hstarts⟩] at h
    cases h

end ManifestDocs.Lexeme

namespace ManifestDocs.Piece

open ManifestDocs.Text ManifestDocs.Lexeme

theorem operator?_cut {cs more rest : List Char} {o : Operator}
    (h : operator? (cs ++ more) = some (o, rest)) (hle : o.text.toList.length ≤ cs.length) :
    ∃ ds, operator? cs = some (o, ds) ∧ rest = ds ++ more := by
  obtain ⟨o', hfind, he⟩ := Option.map_eq_some_iff.1 h
  cases he
  obtain ⟨hstart, before, after, htable, hbefore⟩ := List.find?_eq_some_iff_append.1 hfind
  rw [List.isPrefixOf_iff_prefix] at hstart
  have hstart' : o.text.toList <+: cs :=
    List.prefix_of_prefix_length_le hstart (List.prefix_append cs more) hle
  -- an operator before it in the table is no start of the whole text, let alone of `cs`
  have hfind' : Operator.table.find? (fun o => o.text.toList.isPrefixOf cs) = some o := by
    refine List.find?_eq_some_iff_append.2
      ⟨List.isPrefixOf_iff_prefix.2 hstart', before, after, htable, fun o' ho' => ?_⟩
    have hno := hbefore o' ho'
    simp only [Bool.not_eq_true', ← Bool.not_eq_true, List.isPrefixOf_iff_prefix] at hno ⊢
    exact fun hstarts => hno (hstarts.trans (List.prefix_append cs more))
  refine ⟨cs.drop o.text.toList.length, ?_, List.drop_append_of_le_length hle⟩
  rw [operator?, hfind', Option.map_some]

theorem told_cut {c : Char} {cs more : List Char} (h : told c (cs ++ more) = false) :
    told c cs = false := by
  cases cs with
  | nil => simp_all [told]
  | cons => exact h

theorem startsWord_cut {c : Char} {cs more : List Char} (h : startsWord c (cs ++ more) = false) :
    startsWord c cs = false := by
  cases cs with
  | nil => simp_all [startsWord]
  | cons => exact h

/-- What starts a word and is one starts it by its own characters. -/
theorem startsWord_of_word {c : Char} {cs more : List Char} {s : Split}
    (h : startsWord c (cs ++ more) = true) (hword : Lexeme.word (c :: cs) = some s) :
    startsWord c cs = true := by
  cases cs with
  | nil =>
    by_cases hc : c = ':'
    · subst hc
      cases hword
    · simpa [startsWord, hc] using h
  | cons => exact h

/-- **A text cut off behind its first piece** starts with the same piece. -/
theorem First.cut {operand : Bool} {cs more rest : List Char} {p : Piece}
    (h : First operand (cs ++ more) p rest) (hle : p.text.length ≤ cs.length)
    (hp : ∀ tag text, p ≠ .header tag text) :
    ∃ ds, First operand cs p ds ∧ rest = ds ++ more := by
  obtain ⟨c, cs, rfl⟩ : ∃ c ds, cs = c :: ds := by
    refine List.exists_cons_of_length_pos (Nat.lt_of_lt_of_le ?_ hle)
    exact List.length_pos_iff.2 (Scanner.append_of_first h).2
  rw [List.cons_append] at h
  generalize htext : cs ++ more = text at h
  cases h with
  | newline => exact ⟨cs, .newline, htext.symm⟩
  | gap hc => exact ⟨cs, .gap hc, htext.symm⟩
  | lineComment =>
    subst htext
    have hrun := (run_cut (· != '\n')).eq_followed (Nat.le_of_succ_le_succ hle)
    rw [hrun]
    exact ⟨_, .lineComment, rfl⟩
  | @blockComment text s h =>
    obtain ⟨ds, rfl, rfl⟩ := cut_front ['*'] htext.symm (by simp [Piece.text] at hle ⊢; omega)
    obtain ⟨t, ht, rfl⟩ := blockComment_cut h (by simpa [Piece.text] using hle)
    exact ⟨t.2, .blockComment (s := t) ht, rfl⟩
  | singleQuoted h =>
    subst htext
    obtain ⟨t, ht, rfl⟩ := singleQuoted_cut h (Nat.le_of_succ_le_succ hle)
    exact ⟨t.2, .singleQuoted (s := t) ht, rfl⟩
  | doubleQuoted h =>
    subst htext
    obtain ⟨t, ht, rfl⟩ := doubleQuoted_cut 0 h (Nat.le_of_succ_le_succ hle)
    exact ⟨t.2, .doubleQuoted (s := t) ht, rfl⟩
  | header h => exact absurd rfl (hp _ _)
  | «variable» h =>
    subst htext
    obtain ⟨t, ht, rfl⟩ := variableName_cut h hle
    exact ⟨t.2, .variable (s := t) ht, rfl⟩
  | number plain digit h =>
    subst htext
    obtain ⟨t, ht, rfl⟩ := number_cut h hle
    exact ⟨t.2, .number (s := t) (told_cut plain) digit ht, rfl⟩
  | word plain digit starts h =>
    subst htext
    obtain ⟨t, ht, rfl⟩ := word_cut h hle
    exact ⟨t.2, .word (s := t) (told_cut plain) digit (startsWord_of_word starts ht) ht, rfl⟩
  | regex plain place h =>
    subst htext
    obtain ⟨t, ht, rfl⟩ := regex_cut h (Nat.le_of_succ_le_succ hle)
    exact ⟨t.2, .regex (s := t) (told_cut plain) place ht, rfl⟩
  | operator plain digit starts noRegex h =>
    subst htext
    obtain ⟨ds, hds, rfl⟩ := operator?_cut h hle
    have noRegex' : c = '/' → operand = true → Lexeme.regex cs = none := by
      intro hc hplace
      -- a regular expression in `cs` would be one in the whole text
      have hnone := noRegex hc hplace
      cases hregex : Lexeme.regex cs with
      | none => rfl
      | some s =>
        rw [regex_followed hregex] at hnone
        cases hnone
    exact ⟨ds, .operator (told_cut plain) digit (startsWord_cut starts) noRegex' hds, rfl⟩

end ManifestDocs.Piece
