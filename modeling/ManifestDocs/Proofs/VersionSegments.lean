/-
The segments of versions. A version consists of marks, numbers and words (`isSegment_of_mem`), and
versions compare as the lists of their segments do (`compare_eq_compareLists`): a version whose
segments come to an end goes before those that go on. A number is read as its value unless it is too
long (`readInteger_number`), and the upper case of a word has neither digits nor marks in it
(`mem_upper_word`).
-/
import Mathlib.Data.List.SplitBy
import Mathlib.Data.Nat.Digits.Defs
import ManifestDocs.VersionOrder

namespace ManifestDocs.Text

/-! ## Characters -/

theorem isDigit_iff {c : Char} : c.isDigit = true ↔ 48 ≤ c.toNat ∧ c.toNat ≤ 57 :=
  Char.isDigit_iff_toNat

theorem decimalValue?_of_isDigit {c : Char} (h : c.isDigit = true) :
    decimalValue? c = some (c.toNat - 48) := by
  have hbasic : c.toNat < 128 := by
    have := isDigit_iff.1 h
    omega
  simp [decimalValue?, hbasic, h]

theorem isDecimal_of_isDigit {c : Char} (h : c.isDigit = true) : isDecimal c = true := by
  simp [isDecimal, decimalValue?_of_isDigit h]

theorem isDecimal_of_lt {c : Char} (h : c.toNat < 128) : isDecimal c = c.isDigit := by
  cases hc : c.isDigit <;> simp [isDecimal, decimalValue?, h, hc]

theorem toNat_toUpper (c : Char) :
    c.toUpper.toNat = if 97 ≤ c.toNat ∧ c.toNat ≤ 122 then c.toNat - 32 else c.toNat := by
  unfold Char.toUpper
  split
  · next h =>
    simp only [UInt32.le_iff_toNat_le] at h
    have hc : 97 ≤ c.toNat ∧ c.toNat ≤ 122 := h
    rw [if_pos hc]
    show (c.val + _).toNat = _
    rw [UInt32.toNat_add]
    show (c.toNat + 4294967264) % 4294967296 = _
    omega
  · next h =>
    simp only [UInt32.le_iff_toNat_le] at h
    have hc : ¬ (97 ≤ c.toNat ∧ c.toNat ≤ 122) := h
    rw [if_neg hc]

theorem upperChar_of_lt {c : Char} (h : c.toNat < 128) : upperChar c = [c.toUpper] := by
  simp [upperChar, h]

theorem upperChar_of_lt_letters {c : Char} (h : c.toNat < 97) : upperChar c = [c] := by
  have hsame : c.toUpper = c := Char.toNat_inj.1 (by rw [toNat_toUpper, if_neg (by omega)])
  rw [upperChar_of_lt (by omega), hsame]

theorem upper_eq_self {cs : List Char} (h : ∀ c ∈ cs, upperChar c = [c]) : upper cs = cs := by
  rw [upper, List.flatMap_congr h, List.flatMap_singleton']

theorem toNat_ofNat (n : Nat) : (Char.ofNat n).toNat = n ∨ (Char.ofNat n).toNat = 0 := by
  by_cases hn : n.isValidChar
  · left
    rw [Char.ofNat, dif_pos hn]
    rfl
  · right
    rw [Char.ofNat, dif_neg hn]
    rfl

theorem le_of_mem_upperExpansions : ∀ e ∈ upperExpansions, ∀ n ∈ e.2, 65 ≤ n := by
  decide +kernel

theorem le_of_mem_upperRuns : ∀ r ∈ upperRuns, 65 ≤ Int.ofNat r.first + r.shift := by
  decide +kernel

theorem le_move_upperRuns {n : Nat} (h : CaseRun.move upperRuns n ≠ n) :
    65 ≤ CaseRun.move upperRuns n := by
  unfold CaseRun.move at h ⊢
  split
  · next r hr =>
    have hshift := le_of_mem_upperRuns r (List.mem_of_find?_eq_some hr)
    have hcovers := List.find?_some hr
    simp only [CaseRun.covers, Bool.and_eq_true, decide_eq_true_eq] at hcovers
    have hfirst := Int.ofNat_le.2 hcovers.1.1
    simp only [Int.ofNat_eq_natCast] at hshift ⊢
    omega
  · next hnone => simp [hnone] at h

/-- What the upper case of a character holds is the character itself, or not below the letters, or
the null character, which stands for a code point that is no character. -/
theorem mem_upperChar {c d : Char} (h : d ∈ upperChar c) :
    d = c ∨ d.toNat = 0 ∨ 65 ≤ d.toNat := by
  unfold upperChar at h
  split at h
  · rw [List.mem_singleton] at h
    have htoNat := toNat_toUpper c
    rw [← h] at htoNat
    split at htoNat
    · omega
    · exact .inl (Char.toNat_inj.1 htoNat)
  · split at h
    · next ns hns =>
      obtain ⟨before, after, htable, -⟩ := List.lookup_eq_some_iff.1 hns
      obtain ⟨n, hn, rfl⟩ := List.mem_map.1 h
      have hle := le_of_mem_upperExpansions (c.toNat, ns) (by simp [htable]) n hn
      rcases toNat_ofNat n with hd | hd <;> omega
    · rw [List.mem_singleton] at h
      by_cases hmove : CaseRun.move upperRuns c.toNat = c.toNat
      · rw [hmove, Char.ofNat_toNat] at h
        exact .inl h
      · have hle := le_move_upperRuns hmove
        rw [h]
        rcases toNat_ofNat (CaseRun.move upperRuns c.toNat) with hd | hd <;> omega

/-! ## Integers -/

/-- A run of the usual digits. -/
structure IsNumber (cs : List Char) : Prop where
  ne_nil : cs ≠ []
  digits : ∀ c ∈ cs, c.isDigit = true

theorem IsNumber.ne_singleton {cs : List Char} (h : IsNumber cs) {c : Char}
    (hc : c.isDigit = false) : cs ≠ [c] := by
  intro hcs
  have hdigit := h.digits c (by simp [hcs])
  rw [hc] at hdigit
  cases hdigit

/-- The value of a number. -/
def numberValue (cs : List Char) : Nat :=
  Nat.ofDigits 10 (cs.map (·.toNat - 48)).reverse

theorem decimalNumber_eq_ofDigits (ns : List Nat) :
    decimalNumber ns = Nat.ofDigits 10 ns.reverse := by
  rw [decimalNumber, Nat.ofDigits_eq_foldr, List.foldr_reverse]
  simp [Nat.add_comm, Nat.mul_comm]

theorem leadingDigits_digits {cs : List Char} (h : ∀ c ∈ cs, c.isDigit = true) :
    leadingDigits cs = (cs.map (·.toNat - 48), []) := by
  induction cs with
  | nil => rfl
  | cons c cs ih =>
    have hc := h c (by simp)
    have hvalue := decimalValue?_of_isDigit hc
    rw [leadingDigits]
    · simp [hvalue, ih fun d hd => h d (by simp [hd])]
    · intro d ds hunderscore
      rw [hunderscore] at hc
      cases hc

theorem exists_decimal_of_leadingDigits {cs : List Char} (h : (leadingDigits cs).1 ≠ []) :
    ∃ c ∈ cs, isDecimal c = true := by
  unfold leadingDigits at h
  split at h
  · exact absurd rfl h
  · next c cs =>
    split at h
    · next n hn => exact ⟨c, by simp, by simp [isDecimal, hn]⟩
    · exact absurd rfl h
  · next c cs _ =>
    split at h
    · next n hn => exact ⟨c, by simp, by simp [isDecimal, hn]⟩
    · exact absurd rfl h

theorem splitSign_subset (cs : List Char) : (splitSign cs).2 ⊆ cs := by
  unfold splitSign
  split
  · exact List.subset_cons_self _ _
  · exact List.subset_cons_self _ _
  · exact List.Subset.refl _

theorem trimAround_subset (cs : List Char) : trimAround cs ⊆ cs := by
  intro c hc
  rw [trimAround, List.mem_reverse] at hc
  have hreverse := (List.dropWhile_suffix isAroundInteger).subset hc
  exact (List.dropWhile_suffix isAroundInteger).subset (List.mem_reverse.1 hreverse)

/-- A text that says an integer has a decimal digit. -/
theorem exists_decimal_of_readInteger {cs : List Char} {n : Int} (h : readInteger cs = .ok n) :
    ∃ c ∈ cs, isDecimal c = true := by
  have hdigits : (leadingDigits (splitSign (trimAround cs)).2).1 ≠ [] := by
    intro hnone
    simp [readInteger, hnone] at h
  obtain ⟨c, hc, hdecimal⟩ := exists_decimal_of_leadingDigits hdigits
  exact ⟨c, trimAround_subset cs (splitSign_subset _ hc), hdecimal⟩

theorem trimAround_eq_self {cs : List Char} (h : ∀ c ∈ cs, isAroundInteger c = false) :
    trimAround cs = cs := by
  have hdrop : ∀ ds ⊆ cs, ds.dropWhile isAroundInteger = ds := by
    intro ds hds
    cases ds with
    | nil => rfl
    | cons d ds => simp [h d (hds (by simp))]
  rw [trimAround, hdrop cs (List.Subset.refl _), hdrop _ (by simp), List.reverse_reverse]

theorem splitSign_eq_self {c : Char} {cs : List Char} (hminus : c ≠ '-') (hplus : c ≠ '+') :
    splitSign (c :: cs) = (false, c :: cs) := by
  unfold splitSign
  split
  · next he => exact absurd (List.cons.inj he).1 hminus
  · next he => exact absurd (List.cons.inj he).1 hplus
  · rfl

theorem trimAround_digits {cs : List Char} (h : ∀ c ∈ cs, c.isDigit = true) :
    trimAround cs = cs := by
  refine trimAround_eq_self fun c hc => ?_
  have hdigit := isDigit_iff.1 (h c hc)
  simp [isAroundInteger, isBlank]
  omega

/-- A number says its value, unless it is too long. -/
theorem readInteger_number {cs : List Char} (h : IsNumber cs) :
    readInteger cs = if maxIntegerDigits < cs.length then .error (.tooLong cs.length)
      else .ok (numberValue cs) := by
  obtain ⟨c, ds, rfl⟩ := List.exists_cons_of_ne_nil h.ne_nil
  have hchar : ∀ d : Char, d.isDigit = false → c ≠ d := by
    intro d hd hcd
    rw [← hcd, h.digits c (by simp)] at hd
    cases hd
  have hsign : splitSign (c :: ds) = (false, c :: ds) :=
    splitSign_eq_self (hchar '-' (by decide)) (hchar '+' (by decide))
  have hunderscore : c ≠ '_' := hchar '_' (by decide)
  simp only [readInteger, trimAround_digits h.digits, hsign, leadingDigits_digits h.digits]
  simp [hunderscore, numberValue, decimalNumber_eq_ofDigits]

theorem upper_number {cs : List Char} (h : IsNumber cs) : upper cs = cs := by
  refine upper_eq_self fun c hc => upperChar_of_lt_letters ?_
  have hdigit := isDigit_iff.1 (h.digits c hc)
  omega

end ManifestDocs.Text

namespace ManifestDocs.VersionOrder

open ManifestDocs.Text

/-! ## Segments -/

/-- A segment: a mark, a number or a word. Where every decimal digit is one of the usual ten, there
are no others. -/
inductive IsSegment : List Char → Prop
  | mark {c : Char} (h : isMark c = true) : IsSegment [c]
  | number {s : List Char} (h : IsNumber s) : IsSegment s
  | word {s : List Char} (hne : s ≠ []) (h : ∀ c ∈ s, isDecimal c = false ∧ isMark c = false) :
    IsSegment s

theorem IsSegment.ne_nil {s : List Char} (h : IsSegment s) : s ≠ [] := by
  cases h with
  | mark => simp
  | number h => exact h.ne_nil
  | word hne => exact hne

theorem isMark_iff {c : Char} : isMark c = true ↔ c.toNat = 45 ∨ c.toNat = 46 := by
  simp only [isMark, Bool.or_eq_true, beq_iff_eq, ← Char.toNat_inj]
  rfl

theorem sameSegment_iff {c d : Char} :
    sameSegment c d = true ↔ isMark c = false ∧ isMark d = false ∧ isDecimal c = isDecimal d := by
  simp [sameSegment, and_assoc]

theorem sameSegment_of_mem {version cs : List Char} {c d : Char}
    (h : c :: cs ∈ segments version) (hd : d ∈ cs) : sameSegment c d = true := by
  have htrans : IsTrans Char fun c d => sameSegment c d = true := by
    refine ⟨fun c d e hcd hde => ?_⟩
    rw [sameSegment_iff] at hcd hde ⊢
    exact ⟨hcd.1, hde.2.1, hcd.2.2.trans hde.2.2⟩
  have hpairs := (List.isChain_of_mem_splitBy h).pairwise
  exact List.rel_of_pairwise_cons hpairs hd

theorem flatten_segments (version : List Char) : (segments version).flatten = version :=
  List.flatten_splitBy sameSegment version

theorem mem_of_mem_segments {version s : List Char} {c : Char} (hs : s ∈ segments version)
    (hc : c ∈ s) : c ∈ version := by
  rw [← flatten_segments version]
  exact List.mem_flatten_of_mem hs hc

/-- What versions are made of. -/
theorem isSegment_of_mem {version s : List Char} (hs : s ∈ segments version)
    (h : ∀ c ∈ s, isDecimal c = true → c.isDigit = true) : IsSegment s := by
  obtain ⟨c, cs, rfl⟩ := List.exists_cons_of_ne_nil (List.ne_nil_of_mem_splitBy hs)
  have hsame : ∀ d ∈ cs, isMark c = false ∧ isMark d = false ∧ isDecimal c = isDecimal d :=
    fun d hd => sameSegment_iff.1 (sameSegment_of_mem hs hd)
  cases hmark : isMark c with
  | true =>
    cases cs with
    | nil => exact .mark hmark
    | cons d ds =>
      have hd := hsame d (by simp)
      simp [hmark] at hd
  | false =>
    cases hdecimal : isDecimal c with
    | true =>
      refine .number ⟨by simp, fun d hd => h d hd ?_⟩
      rcases List.mem_cons.1 hd with rfl | hd
      · exact hdecimal
      · rw [← (hsame d hd).2.2, hdecimal]
    | false =>
      refine .word (by simp) fun d hd => ?_
      rcases List.mem_cons.1 hd with rfl | hd
      · exact ⟨hdecimal, hmark⟩
      · exact ⟨by rw [← (hsame d hd).2.2, hdecimal], (hsame d hd).2.1⟩

theorem upper_mark {c : Char} (h : isMark c = true) : upper [c] = [c] := by
  refine upper_eq_self fun d hd => upperChar_of_lt_letters ?_
  have hmark := isMark_iff.1 h
  rw [List.mem_singleton.1 hd]
  omega

/-- The upper case of a word has neither digits nor marks. -/
theorem mem_upper_word {s : List Char} (h : ∀ c ∈ s, isDecimal c = false ∧ isMark c = false)
    {d : Char} (hd : d ∈ upper s) : d.isDigit = false ∧ isMark d = false := by
  obtain ⟨c, hc, hd⟩ := List.mem_flatMap.1 hd
  rcases mem_upperChar hd with rfl | hletter
  · refine ⟨?_, (h d hc).2⟩
    by_contra hdigit
    rw [Bool.not_eq_false] at hdigit
    have hdecimal := isDecimal_of_isDigit hdigit
    rw [(h d hc).1] at hdecimal
    cases hdecimal
  · rw [← Bool.not_eq_true, ← Bool.not_eq_true, isDigit_iff, isMark_iff]
    omega

/-- A segment that says an integer is a number. -/
theorem IsSegment.isNumber_of_readInteger {s : List Char} (h : IsSegment s) {n : Int}
    (hread : readInteger s = .ok n) : IsNumber s := by
  obtain ⟨c, hc, hdecimal⟩ := exists_decimal_of_readInteger hread
  cases h with
  | mark hmark =>
    rw [List.mem_singleton.1 hc] at hdecimal
    have hcode := isMark_iff.1 hmark
    rw [isDecimal_of_lt (by omega), isDigit_iff] at hdecimal
    omega
  | number hnumber => exact hnumber
  | word hne hword =>
    rw [(hword c hc).1] at hdecimal
    cases hdecimal

/-! ## Lists of segments -/

/-- The order of two lists of segments: that of their first different pair, and a list before those
that go on after it. -/
def compareLists : List (List Char) → List (List Char) → Except IntegerError Ordering
  | [], [] => .ok .eq
  | [], _ :: _ => .ok .lt
  | _ :: _, [] => .ok .gt
  | a :: as, b :: bs => if a = b then compareLists as bs else compareSegments a b

theorem compareText_append (s t u : List Char) :
    compareText (s ++ t) (s ++ u) = compareText t u := by
  induction s with
  | nil => rfl
  | cons c s ih =>
    rw [compareText, List.cons_append, List.cons_append, List.compareLex_cons_cons]
    simpa [compareOn, compareText] using ih

/-- Where no segments differ, the text that goes on is the text with more segments. -/
theorem compareFirst_getD {as bs : List (List Char)} (ha : [] ∉ as) (hb : [] ∉ bs) :
    (compareFirst as bs).getD (.ok (compareText as.flatten bs.flatten)) = compareLists as bs := by
  induction as generalizing bs with
  | nil =>
    cases bs with
    | nil => rfl
    | cons b bs =>
      obtain ⟨c, cs, rfl⟩ := List.exists_cons_of_ne_nil fun h => hb (h ▸ List.mem_cons_self)
      rfl
  | cons a as ih =>
    cases bs with
    | nil =>
      obtain ⟨c, cs, rfl⟩ := List.exists_cons_of_ne_nil fun h => ha (h ▸ List.mem_cons_self)
      rfl
    | cons b bs =>
      rw [compareFirst, compareLists]
      split
      · next hab =>
        rw [hab, List.flatten_cons, List.flatten_cons, compareText_append]
        exact ih (fun h => ha (by simp [h])) fun h => hb (by simp [h])
      · rfl

theorem nil_notMem_segments (version : List Char) : [] ∉ segments version :=
  List.nil_notMem_splitBy sameSegment version

/-- Versions compare as their segments do. -/
theorem compare_eq_compareLists (a b : String) :
    compare a b = compareLists (segments a.toList) (segments b.toList) := by
  rw [← compareFirst_getD (nil_notMem_segments _) (nil_notMem_segments _), flatten_segments,
    flatten_segments, compare]
  cases compareFirst (segments a.toList) (segments b.toList) <;> rfl

theorem compare_self (a : String) : compare a a = .ok .eq := by
  have hsame : ∀ as, compareLists as as = .ok .eq := by
    intro as
    induction as with
    | nil => rfl
    | cons a as ih => rw [compareLists, if_pos rfl, ih]
  rw [compare_eq_compareLists, hsame]

end ManifestDocs.VersionOrder
