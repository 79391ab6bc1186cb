/-
Maximal munch. The pattern of a word, a variable, a number or a regular expression is a language,
put together from classes of characters, and so is that of the operators. A reading `Munches` a
pattern if what it finds is in the pattern and no longer word of the pattern stands there. The
readings of all tokens with a pattern do (`First.longest`), and so every such token is the longest
word of its pattern at its place.

What has to be argued is that a reading never stops too late for the part after it: no character
that may go on with the first part starts the second (`Munches.seq`).
-/
import Mathlib.Computability.Language
import ManifestDocs.Proofs.Cuts
import ManifestDocs.Proofs.TokenTexts

namespace ManifestDocs.Lexeme

open ManifestDocs.Text
open scoped Computability

/-! ## Patterns -/

/-- One character of a class. -/
def one (p : Char → Bool) : Language Char :=
  {w | ∃ c, p c = true ∧ w = [c]}

/-- One or more characters of a class. -/
def many (p : Char → Bool) : Language Char :=
  one p * (one p)∗

/-- The characters of a text. -/
def just (s : String) : Language Char :=
  {s.toList}

/-- A word of a language, or nothing. -/
def perhaps (l : Language Char) : Language Char :=
  1 + l

/-- A segment that starts with a character of `start`. -/
def segmentPattern (start : Char → Bool) : Language Char :=
  one start * (one isWordChar)∗

/-- Words: segments between double colons, which may also stand at the start. -/
def wordPattern : Language Char :=
  perhaps (just "::") * segmentPattern startsWord * (just "::" * segmentPattern startsWord)∗

/-- Variables: a dollar sign and segments, each of any word characters. -/
def variablePattern : Language Char :=
  just "$" * perhaps (just "::") * (many isWordChar * just "::")∗ * many isWordChar

/-- Hexadecimal numbers. -/
def hexPattern : Language Char :=
  just "0" * one (fun c => c == 'x' || c == 'X') * many isHexDigit

/-- Fractions. -/
def fractionPattern : Language Char :=
  just "." * many isDecimal

/-- Exponents, with a sign or without. -/
def exponentPattern : Language Char :=
  one (fun c => c == 'e' || c == 'E') * perhaps (one fun c => c == '-' || c == '+') * many isDecimal

/-- Decimal numbers. -/
def decimalPattern : Language Char :=
  many isDecimal * perhaps fractionPattern * perhaps exponentPattern

/-- Numbers. -/
def numberPattern : Language Char :=
  hexPattern + decimalPattern

/-- A character of a regular expression, or an escaped one. -/
def regexItem : Language Char :=
  one (fun c => c != '/' && c != '\n' && c != '\\') + just "\\" * one (· != '\n')

/-- Regular expressions: their characters between slashes. -/
def regexPattern : Language Char :=
  just "/" * regexItem∗ * just "/"

/-- Operators, as they are written. -/
def operatorPattern : Language Char :=
  {w | ∃ o ∈ Operator.table, w = o.text.toList}

/-- `LongestPrefix l cs w`: of the words of `l` that `cs` starts with, `w` is the longest. -/
def LongestPrefix (l : Language Char) (cs w : List Char) : Prop :=
  w ∈ l ∧ w <+: cs ∧ ∀ v ∈ l, v <+: cs → v.length ≤ w.length

section Words

variable {p : Char → Bool} {l m : Language Char} {w : List Char} {c : Char}

@[simp] theorem mem_one : w ∈ one p ↔ ∃ c, p c = true ∧ w = [c] := Iff.rfl

@[simp] theorem mem_just {s : String} : w ∈ just s ↔ w = s.toList := Iff.rfl

@[simp] theorem mem_perhaps : w ∈ perhaps l ↔ w = [] ∨ w ∈ l := Iff.rfl

theorem append_mem_star {v : List Char} (hv : v ∈ l) (hw : w ∈ l∗) : v ++ w ∈ l∗ := by
  rw [← Language.one_add_self_mul_kstar_eq_kstar]
  exact .inr (Language.append_mem_mul hv hw)

theorem mem_star_one : w ∈ (one p)∗ ↔ ∀ c ∈ w, p c = true := by
  constructor
  · intro h c hc
    obtain ⟨ws, rfl, hws⟩ := Language.mem_kstar.1 h
    obtain ⟨v, hv, hcv⟩ := List.mem_flatten.1 hc
    obtain ⟨d, hd, rfl⟩ := hws v hv
    rwa [List.mem_singleton.1 hcv]
  · intro h
    induction w with
    | nil => exact Language.nil_mem_kstar _
    | cons c w ih =>
      have hc : [c] ∈ one p := ⟨c, h c (by simp), rfl⟩
      exact append_mem_star hc (ih fun d hd => h d (by simp [hd]))

/-- What starts a word of `l∗` starts one of `l`. -/
theorem head_of_star (h : c :: w ∈ l∗) : ∃ v, c :: v ∈ l := by
  obtain ⟨ws, he, hws⟩ := Language.mem_kstar_iff_exists_nonempty.1 h
  cases ws with
  | nil => cases he
  | cons v ws =>
    obtain ⟨hv, hne⟩ := hws v (by simp)
    obtain ⟨d, v, rfl⟩ := List.exists_cons_of_ne_nil hne
    rw [List.flatten_cons, List.cons_append, List.cons.injEq] at he
    exact ⟨v, he.1 ▸ hv⟩

/-- Repeating before or behind is the same, since both solve one equation. -/
theorem star_mul_eq (h : [] ∉ l * m) : (l * m)∗ * l = l * (m * l)∗ := by
  symm
  rw [← Language.self_eq_mul_add_iff h]
  calc l * (m * l)∗ = l * (1 + m * l * (m * l)∗) := by
        rw [Language.one_add_self_mul_kstar_eq_kstar]
    _ = l * m * (l * (m * l)∗) + l := by rw [mul_add, mul_one, add_comm, mul_assoc m, mul_assoc l]

/-- All characters of the words of a language are of a class. -/
def Over (p : Char → Bool) (l : Language Char) : Prop :=
  ∀ w ∈ l, ∀ c ∈ w, p c = true

theorem Over.mul (hl : Over p l) (hm : Over p m) : Over p (l * m) := by
  intro w hw c hc
  obtain ⟨a, ha, b, hb, rfl⟩ := Language.mem_mul.1 hw
  rcases List.mem_append.1 hc with hc | hc
  · exact hl a ha c hc
  · exact hm b hb c hc

theorem Over.perhaps (hl : Over p l) : Over p (perhaps l) := by
  rintro w (hw | hw) c hc
  · cases hw
    cases hc
  · exact hl w hw c hc

theorem over_one {q : Char → Bool} (h : ∀ c, q c = true → p c = true) : Over p (one q) := by
  rintro _ ⟨d, hd, rfl⟩ c hc
  rw [List.mem_singleton.1 hc]
  exact h d hd

theorem over_star_one {q : Char → Bool} (h : ∀ c, q c = true → p c = true) :
    Over p (one q)∗ := by
  intro w hw c hc
  exact h c (mem_star_one.1 hw c hc)

theorem over_many {q : Char → Bool} (h : ∀ c, q c = true → p c = true) : Over p (many q) :=
  (over_one h).mul (over_star_one h)

theorem over_just {s : String} (h : s.toList.all p = true) : Over p (just s) := by
  rintro _ rfl c hc
  exact List.all_eq_true.1 h c hc

end Words

/-! ## Readings that take the longest word -/

/-- A reading finds words of a language and loses nothing, and where a text starts with a word it
finds one that is no shorter. -/
structure Munches (l : Language Char) (f : List Char → Option Split) : Prop where
  mem : ∀ {cs : List Char} {s : Split}, f cs = some s → s.1 ∈ l
  whole : ∀ {cs : List Char} {s : Split}, f cs = some s → s.whole = cs
  reaches : ∀ {w : List Char}, w ∈ l → ∀ more, ∃ s, f (w ++ more) = some s ∧ w.length ≤ s.1.length

section Munches

variable {l m : Language Char} {f g : List Char → Option Split} {p : Char → Bool}

theorem Munches.longest {cs : List Char} {s : Split} (h : Munches l f) (hs : f cs = some s) :
    LongestPrefix l cs s.1 := by
  refine ⟨h.mem hs, ⟨s.2, h.whole hs⟩, ?_⟩
  rintro v hv ⟨more, rfl⟩
  obtain ⟨s', hs', hle⟩ := h.reaches hv more
  cases hs.symm.trans hs'
  exact hle

theorem munches_none : Munches 0 fun _ => none where
  mem h := by cases h
  whole h := by cases h
  reaches h := by cases h

theorem munches_nil : Munches 1 fun cs => some ([], cs) where
  mem h := by cases h; rfl
  whole h := by cases h; rfl
  reaches h more := by
    cases h
    exact ⟨_, rfl, Nat.le_refl _⟩

theorem munches_run (p : Char → Bool) : Munches (one p)∗ (some ∘ run p) where
  mem h := by
    cases h
    exact mem_star_one.2 fun c hc => List.all_eq_true.1 List.all_takeWhile c hc
  whole h := by
    cases h
    exact whole_run p _
  reaches h more := by
    refine ⟨_, rfl, ?_⟩
    simp only [run, List.takeWhile_append_of_pos (mem_star_one.1 h), List.length_append]
    omega

/-- A mark and the run of characters after it, or what `g` finds where there is no mark. -/
theorem munches_of_marks {marks : Language Char}
    (marked : ∀ front ∈ marks, ∀ cs, f (front ++ cs) = some ((run p cs).extend front))
    (plain : ∀ cs, (∀ front ∈ marks, ¬ front <+: cs) → f cs = g cs) (hg : Munches m g)
    (hm : ∀ w ∈ m, w = []) : Munches (m + marks * (one p)∗) f := by
  have hcases (cs : List Char) : f cs = g cs ∨
      ∃ front ∈ marks, ∃ ds, cs = front ++ ds ∧ f cs = some ((run p ds).extend front) := by
    by_cases hmark : ∃ front ∈ marks, front <+: cs
    · obtain ⟨front, hfront, ds, rfl⟩ := hmark
      exact .inr ⟨front, hfront, ds, rfl, marked front hfront ds⟩
    · exact .inl (plain cs fun front hfront hstarts => hmark ⟨front, hfront, hstarts⟩)
  constructor
  · intro cs s h
    rcases hcases cs with he | ⟨front, hfront, ds, -, he⟩
    · exact .inl (hg.mem (he ▸ h))
    · cases he.symm.trans h
      exact .inr (Language.append_mem_mul hfront ((munches_run p).mem rfl))
  · intro cs s h
    rcases hcases cs with he | ⟨front, hfront, ds, rfl, he⟩
    · exact hg.whole (he ▸ h)
    · cases he.symm.trans h
      simp
  · rintro w (hw | hw) more
    · cases hm w hw
      rcases hcases more with he | ⟨front, -, ds, -, he⟩
      · rw [List.nil_append, he]
        exact hg.reaches hw more
      · exact ⟨_, he, Nat.zero_le _⟩
    · obtain ⟨front, hfront, r, hr, rfl⟩ := Language.mem_mul.1 hw
      obtain ⟨s, hs, hle⟩ := (munches_run p).reaches hr more
      cases hs
      refine ⟨_, by rw [List.append_assoc, marked front hfront], ?_⟩
      simp only [Split.extend, List.length_append]
      omega

/-- **One reading after the other** takes the longest word if no character of the first part can
start the second. -/
theorem Munches.seq (hf : Munches l f) (hg : Munches m g) (hl : Over p l)
    (hm : ∀ c w, c :: w ∈ m → p c = false) :
    Munches (l * m) fun cs => (f cs).bind (·.andThen? g) := by
  constructor
  · intro cs s h
    obtain ⟨s₁, h₁, h⟩ := Option.bind_eq_some_iff.1 h
    obtain ⟨s₂, h₂, rfl⟩ := Option.map_eq_some_iff.1 h
    exact Language.append_mem_mul (hf.mem h₁) (hg.mem h₂)
  · intro cs s h
    obtain ⟨s₁, h₁, h⟩ := Option.bind_eq_some_iff.1 h
    rw [Split.whole_of_andThen? hg.whole h, hf.whole h₁]
  · intro vw hvw more
    obtain ⟨v, hv, w, hw, rfl⟩ := Language.mem_mul.1 hvw
    obtain ⟨s₁, h₁, hle⟩ := hf.reaches hv (w ++ more)
    have hwhole : s₁.1 ++ s₁.2 = v ++ (w ++ more) := hf.whole h₁
    obtain ⟨u, hu⟩ : v <+: s₁.1 :=
      List.prefix_of_prefix_length_le ⟨_, rfl⟩ ⟨_, hwhole⟩ hle
    rw [← hu, List.append_assoc, List.append_cancel_left_eq] at hwhole
    -- what the first part has beyond `v` would start the second
    have hrest : ∃ s₂, g s₁.2 = some s₂ ∧ w.length ≤ u.length + s₂.1.length := by
      cases u with
      | nil =>
        rw [List.nil_append] at hwhole
        obtain ⟨s₂, h₂, hle⟩ := hg.reaches hw more
        exact ⟨s₂, hwhole ▸ h₂, by omega⟩
      | cons c u =>
        cases w with
        | nil =>
          obtain ⟨s₂, h₂, -⟩ := hg.reaches hw s₁.2
          exact ⟨s₂, h₂, Nat.zero_le _⟩
        | cons d w =>
          have hcd : c = d := by
            simp only [List.cons_append, List.cons.injEq] at hwhole
            exact hwhole.1
          have hc := hl _ (hf.mem h₁) c (by simp [← hu])
          rw [hcd, hm d w hw] at hc
          cases hc
    obtain ⟨s₂, h₂, hle₂⟩ := hrest
    refine ⟨s₂.extend s₁.1, ?_, ?_⟩
    · rw [List.append_assoc, h₁, Option.bind_some, Split.andThen?, h₂]
      rfl
    · simp only [Split.extend, ← hu, List.length_append]
      omega

theorem LongestPrefix.after (front : String) {cs w : List Char} (h : LongestPrefix l cs w) :
    LongestPrefix (just front * l) (front.toList ++ cs) (front.toList ++ w) := by
  obtain ⟨hw, hstarts, hlongest⟩ := h
  refine ⟨Language.append_mem_mul rfl hw, (List.prefix_append_right_inj _).2 hstarts, ?_⟩
  intro v hv hvs
  obtain ⟨_, rfl, u, hu, rfl⟩ := Language.mem_mul.1 hv
  have hle := hlongest u hu ((List.prefix_append_right_inj _).1 hvs)
  simp only [List.length_append]
  omega

end Munches

/-! ## Names -/

/-- A character of `start` and the run of characters of a class after it. -/
def runFrom (start p : Char → Bool) : List Char → Option Split
  | c :: cs => if start c then some ((run p cs).extend [c]) else none
  | [] => none

theorem munches_runFrom (start p : Char → Bool) :
    Munches (one start * (one p)∗) (runFrom start p) := by
  rw [← zero_add (one start * (one p)∗)]
  refine munches_of_marks ?_ ?_ munches_none (by rintro _ ⟨⟩)
  · rintro _ ⟨c, hc, rfl⟩ cs
    exact if_pos hc
  · intro cs h
    cases cs with
    | nil => rfl
    | cons c cs => exact if_neg fun hc => h [c] ⟨c, hc, rfl⟩ ⟨cs, rfl⟩

variable {start : Char → Bool}

theorem mem_further {w : List Char} : w ∈ just "::" * segmentPattern start ↔
    ∃ c r, w = ':' :: ':' :: c :: r ∧ start c = true ∧ ∀ d ∈ r, isWordChar d = true := by
  simp only [segmentPattern, Language.mem_mul, mem_just, mem_one, mem_star_one]
  constructor
  · rintro ⟨_, rfl, _, ⟨_, ⟨c, hc, rfl⟩, r, hr, rfl⟩, rfl⟩
    exact ⟨c, r, rfl, hc, hr⟩
  · rintro ⟨c, r, rfl, hc, hr⟩
    exact ⟨_, rfl, _, ⟨[c], ⟨c, hc, rfl⟩, r, hr, rfl⟩, rfl⟩

/-- Further segments are read to their end: a segment ends where the colons of the next one are. -/
theorem munches_segments (start : Char → Bool) :
    Munches (just "::" * segmentPattern start)∗ (some ∘ segments start) := by
  constructor
  · intro cs s h
    cases h
    fun_induction segments start cs with
    | case1 c rest hc ih =>
      refine append_mem_star (mem_further.2 ⟨c, _, rfl, hc, ?_⟩) ih
      exact fun d hd => List.all_eq_true.1 List.all_takeWhile d hd
    | case2 | case3 => exact Language.nil_mem_kstar _
  · intro cs s h
    cases h
    exact whole_segments start cs
  · intro w hw more
    refine ⟨_, rfl, ?_⟩
    obtain ⟨ws, rfl, hws⟩ := Language.mem_kstar.1 hw
    clear hw
    induction ws with
    | nil => exact Nat.zero_le _
    | cons v ws ih =>
      obtain ⟨c, r, rfl, hc, hr⟩ := mem_further.1 (hws v (by simp))
      have hmore := ih fun w hw => hws w (by simp [hw])
      simp only [List.flatten_cons, List.append_assoc, List.cons_append]
      rw [segments, if_pos hc, List.takeWhile_append_of_pos hr, List.dropWhile_append_of_pos hr]
      -- either the last segment goes on, or the next one starts with a colon
      have hends : ws.flatten = [] ∨ (ws.flatten ++ more).takeWhile isWordChar = [] ∧
          (ws.flatten ++ more).dropWhile isWordChar = ws.flatten ++ more := by
        cases ws with
        | nil => exact .inl rfl
        | cons v ws =>
          obtain ⟨c', r', rfl, -⟩ := mem_further.1 (hws v (by simp))
          have hcolon : isWordChar ':' = false := by decide
          exact .inr (by simp [hcolon])
      simp only [Split.extend, List.length_append, List.length_cons]
      rcases hends with hnil | ⟨htake, hdrop⟩
      · rw [hnil, List.length_nil]
        omega
      · rw [htake, hdrop, List.length_nil]
        omega

theorem munches_path (hcolon : start ':' = false) :
    Munches (segmentPattern start * (just "::" * segmentPattern start)∗) (path start) := by
  have hpath : path start =
      fun cs => (runFrom start isWordChar cs).bind (·.andThen? (some ∘ segments start)) := by
    funext cs
    cases cs with
    | nil => rfl
    | cons c cs =>
      by_cases hc : start c = true
      · simp [path, runFrom, hc, Split.andThen?, Split.extend, run]
      · simp [path, runFrom, hc]
  rw [hpath]
  refine (munches_runFrom start isWordChar).seq (munches_segments start)
    (p := fun c => start c || isWordChar c) ?_ ?_
  · exact (over_one (by simp +contextual)).mul (over_star_one (by simp +contextual))
  · intro c w h
    obtain ⟨v, hv⟩ := head_of_star h
    obtain ⟨d, r, he, -⟩ := mem_further.1 hv
    cases he
    simp only [hcolon, Bool.false_or]
    decide

/-- Double colons, if a text starts with them. -/
def colons : List Char → Split
  | ':' :: ':' :: cs => ([':', ':'], cs)
  | cs => ([], cs)

theorem munches_colons : Munches (perhaps (just "::")) (some ∘ colons) := by
  constructor
  · intro cs s h
    cases h
    fun_cases colons cs with
    | case1 => exact .inr rfl
    | case2 => exact .inl rfl
  · intro cs s h
    cases h
    fun_cases colons cs with
    | case1 => rfl
    | case2 => rfl
  · rintro w (rfl | rfl) more
    · exact ⟨_, rfl, Nat.zero_le _⟩
    · exact ⟨_, rfl, Nat.le_refl _⟩

theorem munches_qualified (hcolon : start ':' = false) :
    Munches (perhaps (just "::") * (segmentPattern start * (just "::" * segmentPattern start)∗))
      (qualified start) := by
  have hqualified : qualified start =
      fun cs => ((some ∘ colons) cs).bind (·.andThen? (path start)) := by
    funext cs
    simp only [Function.comp, Option.bind_some, Split.andThen?]
    fun_cases qualified start cs with
    | case1 cs => rfl
    | case2 cs hcolons =>
      rw [colons]
      · cases path start cs <;> rfl
      · exact hcolons
  rw [hqualified]
  refine munches_colons.seq (munches_path hcolon) (p := (· == ':')) ?_ ?_
  · exact (over_just (by decide)).perhaps
  · intro c w h
    obtain ⟨_, ⟨_, ⟨d, hd, rfl⟩, r, -, rfl⟩, u, -, he⟩ := h
    cases he
    rw [beq_eq_false_iff_ne]
    rintro rfl
    rw [hcolon] at hd
    cases hd

theorem word_longest {cs : List Char} {s : Split} (h : word cs = some s) :
    LongestPrefix wordPattern cs s.1 := by
  rw [wordPattern, mul_assoc]
  exact (munches_qualified (by decide)).longest h

/-- A word starts with a basic letter or an underscore, behind the colons; it tells the sort. -/
theorem word_start {cs : List Char} {s : Split} (h : word cs = some s) :
    ∃ colons c tail, s.1 = colons ++ c :: tail ∧ (colons = [] ∨ colons = [':', ':']) ∧
      startsWord c = true ∧ isTypeName s.1 = c.isUpper := by
  obtain ⟨_, ⟨colons, hcolons, _, ⟨_, ⟨c, hc, rfl⟩, r, -, rfl⟩, rfl⟩, u, -, htext⟩ :=
    (word_longest h).1
  have hword : s.1 = colons ++ c :: (r ++ u) := by simp [← htext]
  have hne : c ≠ ':' := by
    rintro rfl
    exact absurd hc (by decide)
  have hdrop : s.1.dropWhile (· == ':') = c :: (r ++ u) := by
    rw [hword]
    rcases hcolons with rfl | rfl <;> simp [hne]
  refine ⟨colons, c, r ++ u, hword, hcolons, hc, ?_⟩
  rw [isTypeName, hdrop]

theorem variable_longest {cs : List Char} {s : Split} (h : variableName ('$' :: cs) = some s) :
    LongestPrefix variablePattern ('$' :: cs) s.1 := by
  obtain ⟨t, ht, rfl⟩ := Option.map_eq_some_iff.1 h
  have hstar : (many isWordChar * just "::")∗ * many isWordChar =
      many isWordChar * (just "::" * many isWordChar)∗ := by
    refine star_mul_eq ?_
    rintro ⟨v, -, _, rfl, he⟩
    simp at he
  rw [variablePattern, mul_assoc, hstar, mul_assoc]
  exact ((munches_qualified (by decide)).longest ht).after "$"

/-! ## Numbers -/

theorem munches_hexNumber : Munches hexPattern hexNumber := by
  have hmark (front : List Char) :
      front ∈ just "0" * one (fun c => c == 'x' || c == 'X') * one isHexDigit ↔
        HexMark front := by
    simp only [Language.mem_mul, mem_just, mem_one, HexMark]
    constructor
    · rintro ⟨_, ⟨_, rfl, _, ⟨x, hx, rfl⟩, rfl⟩, _, ⟨c, hc, rfl⟩, rfl⟩
      exact ⟨x, c, rfl, by simpa using hx, hc⟩
    · rintro ⟨x, c, rfl, hx, hc⟩
      exact ⟨['0', x], ⟨_, rfl, [x], ⟨x, by simpa using hx, rfl⟩, rfl⟩, [c], ⟨c, hc, rfl⟩, rfl⟩
  rw [hexPattern, many, ← mul_assoc, ← zero_add (_ * (one isHexDigit)∗)]
  refine munches_of_marks (fun front h => hexNumber_marked front ((hmark front).1 h)) ?_
    munches_none (by rintro _ ⟨⟩)
  exact fun cs h => hexNumber_plain cs fun front hf => h front ((hmark front).2 hf)

theorem munches_fraction : Munches (perhaps fractionPattern) (some ∘ fraction) := by
  have hmark (front : List Char) : front ∈ just "." * one isDecimal ↔ FractionMark front := by
    simp only [Language.mem_mul, mem_just, mem_one, FractionMark]
    constructor
    · rintro ⟨_, rfl, _, ⟨c, hc, rfl⟩, rfl⟩
      exact ⟨c, rfl, hc⟩
    · rintro ⟨c, rfl, hc⟩
      exact ⟨_, rfl, [c], ⟨c, hc, rfl⟩, rfl⟩
  rw [perhaps, fractionPattern, many, ← mul_assoc]
  refine munches_of_marks
    (fun front h cs => congrArg some (fraction_marked front ((hmark front).1 h) cs)) ?_
    munches_nil fun w hw => hw
  exact fun cs h => congrArg some (fraction_plain cs fun front hf => h front ((hmark front).2 hf))

theorem munches_exponent : Munches (perhaps exponentPattern) (some ∘ exponent) := by
  have hmark (front : List Char) :
      front ∈ one (fun c => c == 'e' || c == 'E') * perhaps (one fun c => c == '-' || c == '+') *
        one isDecimal ↔ ExponentMark front := by
    simp only [Language.mem_mul, mem_perhaps, mem_one, ExponentMark]
    constructor
    · rintro ⟨_, ⟨_, ⟨e, he, rfl⟩, sign, hsign, rfl⟩, _, ⟨c, hc, rfl⟩, rfl⟩
      refine ⟨e, sign, c, rfl, by simpa using he, ?_, hc⟩
      rcases hsign with rfl | ⟨d, hd, rfl⟩
      · exact .inl rfl
      · exact .inr (by simpa [or_comm] using hd)
    · rintro ⟨e, sign, c, rfl, he, hsign, hc⟩
      refine ⟨e :: sign, ⟨[e], ⟨e, by simpa using he, rfl⟩, sign, ?_, rfl⟩, [c], ⟨c, hc, rfl⟩, rfl⟩
      rcases hsign with rfl | rfl | rfl
      · exact .inl rfl
      · exact .inr ⟨'+', rfl, rfl⟩
      · exact .inr ⟨'-', rfl, rfl⟩
  rw [perhaps, exponentPattern, many, ← mul_assoc]
  refine munches_of_marks
    (fun front h cs => congrArg some (exponent_marked front ((hmark front).1 h) cs)) ?_
    munches_nil fun w hw => hw
  exact fun cs h => congrArg some (exponent_plain cs fun front hf => h front ((hmark front).2 hf))

theorem munches_decimalNumber : Munches decimalPattern decimalNumber := by
  have hparts : decimalNumber = fun cs =>
      ((runFrom isDecimal isDecimal cs).bind (·.andThen? (some ∘ fraction))).bind
        (·.andThen? (some ∘ exponent)) := by
    funext cs
    cases cs with
    | nil => rfl
    | cons c cs =>
      by_cases hc : isDecimal c = true
      · simp [decimalNumber, runFrom, hc, run_cons hc, Split.andThen?, Split.andThen, Split.extend]
      · simp [decimalNumber, runFrom, hc, run]
  rw [hparts]
  refine ((munches_runFrom isDecimal isDecimal).seq munches_fraction (p := isDecimal) ?_ ?_).seq
    munches_exponent (p := fun c => isDecimal c || c == '.') ?_ ?_
  · exact over_many fun _ h => h
  · rintro c w (h | ⟨_, rfl, u, -, he⟩)
    · cases h
    · cases he
      decide
  · have hdigits : Over (fun c => isDecimal c || c == '.') (many isDecimal) :=
      over_many (by simp +contextual)
    exact hdigits.mul ((over_just (by decide)).mul hdigits).perhaps
  · rintro c w (h | ⟨_, ⟨_, ⟨e, he, rfl⟩, sign, -, rfl⟩, u, -, hw⟩)
    · cases h
    · cases hw
      have he : c = 'e' ∨ c = 'E' := by simpa using he
      rcases he with rfl | rfl <;> decide

/-- A decimal number has no `x` in it: where a hexadecimal one starts, only the zero is decimal. -/
theorem over_decimal : Over (fun c => c != 'x' && c != 'X') decimalPattern := by
  have hdigits : Over (fun c => c != 'x' && c != 'X') (many isDecimal) := by
    refine over_many fun c hc => ?_
    have hx : isDecimal 'x' = false ∧ isDecimal 'X' = false := by decide
    simp only [Bool.and_eq_true, bne_iff_ne]
    constructor <;> rintro rfl <;> simp [hx] at hc
  refine (hdigits.mul ((over_just (by decide)).mul hdigits).perhaps).mul
    (((over_one ?_).mul (over_one ?_).perhaps).mul hdigits).perhaps
  · intro c hc
    have hc : c = 'e' ∨ c = 'E' := by simpa using hc
    rcases hc with rfl | rfl <;> decide
  · intro c hc
    have hc : c = '-' ∨ c = '+' := by simpa using hc
    rcases hc with rfl | rfl <;> decide

theorem munches_number : Munches numberPattern number := by
  constructor
  · intro cs s h
    rcases Option.or_eq_some_iff.1 h with h | ⟨-, h⟩
    · exact .inl (munches_hexNumber.mem h)
    · exact .inr (munches_decimalNumber.mem h)
  · exact whole_of_number
  · rintro w (hw | hw) more
    · obtain ⟨s, hs, hle⟩ := munches_hexNumber.reaches hw more
      exact ⟨s, Option.or_eq_some_iff.2 (.inl hs), hle⟩
    · cases hhex : hexNumber (w ++ more) with
      | none =>
        obtain ⟨s, hs, hle⟩ := munches_decimalNumber.reaches hw more
        exact ⟨s, Option.or_eq_some_iff.2 (.inr ⟨hhex, hs⟩), hle⟩
      | some s =>
        refine ⟨s, Option.or_eq_some_iff.2 (.inl hhex), ?_⟩
        obtain ⟨_, ⟨_, rfl, _, ⟨x, hx, rfl⟩, rfl⟩, r, -, hlexeme⟩ := munches_hexNumber.mem hhex
        have hwhole : s.1 ++ s.2 = w ++ more := munches_hexNumber.whole hhex
        rw [← hlexeme] at hwhole ⊢
        match w, hw, hwhole with
        | [], _, _ => exact Nat.zero_le _
        | [_], _, _ => simp
        | a :: b :: w, hw, hwhole =>
          have hb : x = b := by
            have htail := (List.cons.inj hwhole).2
            exact (List.cons.inj htail).1
          have hx' := over_decimal _ hw x (by simp [hb])
          simp only [Bool.and_eq_true, bne_iff_ne, Bool.or_eq_true, beq_iff_eq] at hx hx'
          exact absurd hx (not_or.2 hx')

/-! ## Regular expressions and operators -/

theorem munches_regex : Munches (regexItem∗ * just "/") regex := by
  have hitem {v cs : List Char} (hv : v ∈ regexItem) :
      regex (v ++ cs) = (regex cs).map (Split.extend v) := by
    rcases hv with ⟨c, hc, rfl⟩ | ⟨_, rfl, _, ⟨c, hc, rfl⟩, rfl⟩
    · simp only [Bool.and_eq_true, bne_iff_ne] at hc
      rw [List.singleton_append, regex, if_neg (by simp [hc]), if_neg hc.1.1]
      rintro d ds rfl
      exact absurd rfl hc.2
    · exact if_neg (by simpa using hc)
  constructor
  · intro cs s h
    fun_induction regex cs generalizing s with
    | case1 => cases h
    | case2 c cs hc ih =>
      obtain ⟨t, ht, rfl⟩ := Option.map_eq_some_iff.1 h
      obtain ⟨v, hv, w, hw, he⟩ := ih ht
      have hescape : ['\\', c] ∈ regexItem := .inr ⟨_, rfl, [c], ⟨c, by simpa using hc, rfl⟩, rfl⟩
      exact ⟨_, append_mem_star hescape hv, w, hw, by simp [Split.extend, ← he]⟩
    | case3 => cases h
    | case4 =>
      cases h
      exact ⟨[], Language.nil_mem_kstar _, _, rfl, rfl⟩
    | case5 c cs _ hmark hslash ih =>
      obtain ⟨t, ht, rfl⟩ := Option.map_eq_some_iff.1 h
      obtain ⟨v, hv, w, hw, he⟩ := ih ht
      have hplain : [c] ∈ regexItem := by
        simp only [Bool.or_eq_true, decide_eq_true_eq, not_or] at hmark
        exact .inl ⟨c, by simp [hmark, hslash], rfl⟩
      exact ⟨_, append_mem_star hplain hv, w, hw, by simp [Split.extend, ← he]⟩
    | case6 => cases h
  · exact whole_of_regex
  · intro w hw more
    obtain ⟨v, hv, _, rfl, rfl⟩ := Language.mem_mul.1 hw
    obtain ⟨ws, rfl, hws⟩ := Language.mem_kstar.1 hv
    clear hw hv
    induction ws with
    | nil => exact ⟨_, rfl, Nat.le_refl _⟩
    | cons v ws ih =>
      obtain ⟨s, hs, hle⟩ := ih fun w hw => hws w (by simp [hw])
      refine ⟨s.extend v, ?_, ?_⟩
      · rw [List.flatten_cons, List.append_assoc, List.append_assoc, hitem (hws v (by simp)),
          ← List.append_assoc, hs]
        rfl
      · simp only [List.flatten_cons, Split.extend, List.length_append] at hle ⊢
        omega

end ManifestDocs.Lexeme

namespace ManifestDocs

/-- The pattern of a kind of token; strings and heredoc headers have none. -/
def Token.Kind.pattern? : Token.Kind → Option (Language Char)
  | .name | .typeName => some Lexeme.wordPattern
  | .variable => some Lexeme.variablePattern
  | .number => some Lexeme.numberPattern
  | .regex => some Lexeme.regexPattern
  | .operator _ => some Lexeme.operatorPattern
  | .string | .heredoc => none

namespace Piece

open ManifestDocs.Text ManifestDocs.Lexeme

theorem table_longest_first : Operator.table.Pairwise fun o o' =>
    o'.text.toList.length ≤ o.text.toList.length := by
  decide

theorem operator_longest {cs rest : List Char} {o : Operator}
    (h : operator? cs = some (o, rest)) : LongestPrefix operatorPattern cs o.text.toList := by
  obtain ⟨o', hfind, he⟩ := Option.map_eq_some_iff.1 h
  cases he
  obtain ⟨hstart, before, after, htable, hbefore⟩ := List.find?_eq_some_iff_append.1 hfind
  refine ⟨⟨o, Operator.mem_table o, rfl⟩, List.isPrefixOf_iff_prefix.1 hstart, ?_⟩
  rintro _ ⟨o', ho', rfl⟩ hstart'
  -- what stands before `o` in the table does not start the text, and what stands behind is shorter
  have hsorted := table_longest_first
  rw [htable] at ho' hsorted
  rcases List.mem_append.1 ho' with ho' | ho'
  · have hno := hbefore o' ho'
    rw [List.isPrefixOf_iff_prefix.2 hstart'] at hno
    cases hno
  · rcases List.mem_cons.1 ho' with rfl | ho'
    · exact Nat.le_refl _
    · exact (List.pairwise_cons.1 (List.pairwise_append.1 hsorted).2.1).1 o' ho'

/-- A lexeme with a pattern is the longest word of it that the text starts with. -/
theorem First.longest {operand : Bool} {cs text rest : List Char} {kind : Token.Kind}
    {l : Language Char} (h : First operand cs (.lexeme kind text) rest)
    (hl : kind.pattern? = some l) : LongestPrefix l cs text := by
  generalize hp : Piece.lexeme kind text = p at h
  cases h with
  | singleQuoted | doubleQuoted =>
    cases hp
    cases hl
  | «variable» h =>
    cases hp
    cases hl
    exact variable_longest h
  | number _ _ h =>
    cases hp
    cases hl
    exact munches_number.longest h
  | word _ _ _ h =>
    simp only [ofWord, Piece.lexeme.injEq] at hp
    obtain ⟨rfl, rfl⟩ := hp
    split at hl <;> cases hl <;> exact word_longest h
  | regex _ _ h =>
    cases hp
    cases hl
    rw [regexPattern, mul_assoc]
    exact (munches_regex.longest h).after "/"
  | operator _ _ _ _ h =>
    cases hp
    cases hl
    exact operator_longest h
  | _ => cases hp

/-- A word is the name of a type just if its first letter, behind the colons, is a capital one. -/
theorem First.isUpper_of_word {operand : Bool} {cs text rest : List Char} {kind : Token.Kind}
    (h : First operand cs (.lexeme kind text) rest) (hkind : kind = .name ∨ kind = .typeName) :
    ∃ colons c tail, text = colons ++ c :: tail ∧ (colons = [] ∨ colons = [':', ':']) ∧
      Lexeme.startsWord c = true ∧ (kind = .typeName ↔ c.isUpper = true) := by
  generalize hp : Piece.lexeme kind text = p at h
  cases h with
  | word _ _ _ h =>
    simp only [ofWord, Piece.lexeme.injEq] at hp
    obtain ⟨rfl, rfl⟩ := hp
    obtain ⟨colons, c, tail, htext, hcolons, hc, htype⟩ := word_start h
    refine ⟨colons, c, tail, htext, hcolons, hc, ?_⟩
    rw [htype]
    split <;> simp_all
  | singleQuoted | doubleQuoted | «variable» | number | regex | operator =>
    cases hp
    simp at hkind
  | _ => cases hp

theorem First.operator_text {operand : Bool} {cs text rest : List Char} {o : Operator}
    (h : First operand cs (.lexeme (.operator o) text) rest) : text = o.text.toList := by
  generalize hp : Piece.lexeme (.operator o) text = p at h
  cases h with
  | word =>
    simp only [ofWord, Piece.lexeme.injEq] at hp
    split at hp <;> cases hp.1
  | operator =>
    cases hp
    rfl
  | _ => cases hp

end Piece

/-- **Maximal munch.** In every text that scans, each token of a kind with a pattern is the longest
word of the pattern at its place. A word is the name of a type just if its first letter is a capital
one, and an operator is written as its kind says. -/
theorem tokens_longest {text : String} {scan : Scan} (h : Scan.ofText text = .ok scan) :
    ∀ t ∈ scan.tokens,
      (∀ l, t.kind.pattern? = some l →
        Lexeme.LongestPrefix l (text.toList.drop t.start.offset) t.value.toList) ∧
      (t.kind = .name ∨ t.kind = .typeName →
        ∃ colons c tail, t.value.toList = colons ++ c :: tail ∧
          (colons = [] ∨ colons = [':', ':']) ∧ Lexeme.startsWord c = true ∧
          (t.kind = .typeName ↔ c.isUpper = true)) ∧
      ∀ o, t.kind = .operator o → t.value = o.text := by
  intro t ht
  obtain ⟨operand, before, rest, htext, hoffset, hpiece⟩ :=
    (Scanner.run_eq_ok.1 h).piece_at t ht
  have hdrop : text.toList.drop t.start.offset = t.value.toList ++ rest := by
    have hplace : t.start.offset = before.length := hoffset.trans (Nat.zero_add _)
    have hwhole : text.toList = before ++ (t.value.toList ++ rest) := htext
    rw [hplace, hwhole, List.drop_left]
  rw [hdrop]
  rcases hpiece with hfirst | ⟨hkind, -⟩
  · refine ⟨fun l hl => hfirst.longest hl, hfirst.isUpper_of_word, fun o ho => ?_⟩
    rw [ho] at hfirst
    exact String.toList_inj.1 hfirst.operator_text
  · rw [hkind]
    simp [Token.Kind.pattern?]

/-- Without a digit behind it, the sign of a hexadecimal number is not part of a number. -/
theorem hexSign_left_over :
    Scan.ofText "0xg" =
      .ok ⟨[⟨.number, "0", ⟨0, 1, 1⟩, 1⟩, ⟨.name, "xg", ⟨1, 1, 2⟩, 3⟩], ⟨3, 1, 4⟩⟩ ∧
    Lexeme.LongestPrefix Lexeme.numberPattern ['0', 'x', 'g'] ['0'] ∧
    Lexeme.LongestPrefix Lexeme.wordPattern ['x', 'g'] ['x', 'g'] := by
  have hscan : Scan.ofText "0xg" =
      .ok ⟨[⟨.number, "0", ⟨0, 1, 1⟩, 1⟩, ⟨.name, "xg", ⟨1, 1, 2⟩, 3⟩], ⟨3, 1, 4⟩⟩ := by
    decide +kernel
  have hnumber := (tokens_longest hscan ⟨.number, "0", ⟨0, 1, 1⟩, 1⟩ (by simp)).1 _ rfl
  have hname := (tokens_longest hscan ⟨.name, "xg", ⟨1, 1, 2⟩, 3⟩ (by simp)).1 _ rfl
  exact ⟨hscan, hnumber, hname⟩

end ManifestDocs
