/-
Versions in order. On versions of basic Latin characters without capitals, comparing decides a
strict total order (`compare_strict_total`): the lexicographic order of the segments, in which one
segment goes before another as `SegmentBefore` says. Only a number that is too long to read makes it
fail.
-/
import ManifestDocs.Proofs.VersionPlaces

namespace ManifestDocs.VersionOrder

open ManifestDocs.Text

/-! ## The order as it is told -/

/-- Which segment goes before which: a dash before all else and then a dot, numbers with a leading
zero before those without, the former by their text and the latter by their value, and all other
segments by their upper case. -/
inductive SegmentBefore : List Char → List Char → Prop
  | dash {b : List Char} (hdash : b ≠ ['-']) : SegmentBefore ['-'] b
  | dot {b : List Char} (hdash : b ≠ ['-']) (hdot : b ≠ ['.']) : SegmentBefore ['.'] b
  | leadingZero {a b : List Char} (ha : IsNumber a) (hb : IsNumber b)
    (hzero : a.head? = some '0') (hzero' : b.head? ≠ some '0') : SegmentBefore a b
  | leadingZeros {a b : List Char} (ha : IsNumber a) (hb : IsNumber b)
    (hzero : a.head? = some '0') (hzero' : b.head? = some '0') (h : a < b) : SegmentBefore a b
  | integers {a b : List Char} (ha : IsNumber a) (hb : IsNumber b) (hzero : a.head? ≠ some '0')
    (hzero' : b.head? ≠ some '0') (h : numberValue a < numberValue b) : SegmentBefore a b
  | texts {a b : List Char} (ha : a ∉ [['-'], ['.']]) (hb : b ∉ [['-'], ['.']])
    (hnumbers : ¬ (IsNumber a ∧ IsNumber b)) (h : upper a < upper b) : SegmentBefore a b

/-- One version goes before another if it does at the first different segments, or ends before the
other. -/
def Precedes (a b : String) : Prop :=
  List.Lex SegmentBefore (segments a.toList) (segments b.toList)

/-- Whether a character is a basic Latin one and no capital letter. -/
def isPlain (c : Char) : Bool :=
  c.toNat < 128 && !c.isUpper

/-- A version without capitals and characters beyond the basic Latin ones. -/
def IsPlain (version : String) : Prop :=
  ∀ c ∈ version.toList, isPlain c = true

instance (version : String) : Decidable (IsPlain version) :=
  decidable_of_iff (version.toList.all isPlain = true) List.all_eq_true

/-! ## Plain segments -/

/-- A segment of a plain version. -/
structure PlainSegment (s : List Char) : Prop where
  isSegment : IsSegment s
  plain : ∀ c ∈ s, isPlain c = true

theorem isUpper_iff {c : Char} : c.isUpper = true ↔ 65 ≤ c.toNat ∧ c.toNat ≤ 90 := by
  have hupper : c.isUpper = decide (65 ≤ c.val ∧ c.val ≤ 90) := rfl
  rw [hupper, decide_eq_true_eq, UInt32.le_iff_toNat_le, UInt32.le_iff_toNat_le]
  rfl

theorem isPlain_iff {c : Char} :
    isPlain c = true ↔ c.toNat < 128 ∧ ¬ (65 ≤ c.toNat ∧ c.toNat ≤ 90) := by
  rw [isPlain, Bool.and_eq_true, decide_eq_true_eq, Bool.not_eq_true', ← Bool.not_eq_true,
    isUpper_iff]

/-- Segments of plain versions. -/
def PlainSegments (ss : List (List Char)) : Prop :=
  ∀ s ∈ ss, PlainSegment s

theorem PlainSegments.head {s : List Char} {ss : List (List Char)} (h : PlainSegments (s :: ss)) :
    PlainSegment s :=
  h s List.mem_cons_self

theorem PlainSegments.tail {s : List Char} {ss : List (List Char)} (h : PlainSegments (s :: ss)) :
    PlainSegments ss :=
  fun t ht => h t (List.mem_cons_of_mem s ht)

theorem IsPlain.plainSegments {version : String} (h : IsPlain version) :
    PlainSegments (segments version.toList) := by
  intro s hs
  have hplain : ∀ c ∈ s, isPlain c = true := fun c hc => h c (mem_of_mem_segments hs hc)
  refine ⟨isSegment_of_mem hs fun c hc hdecimal => ?_, hplain⟩
  rwa [isDecimal_of_lt (isPlain_iff.1 (hplain c hc)).1] at hdecimal

theorem lowerChar_toUpper {c : Char} (h : isPlain c = true) : lowerChar c.toUpper = c := by
  have hc := isPlain_iff.1 h
  have hupper := toNat_toUpper c
  have hcode : lowerCode c.toUpper.toNat = c.toNat := by
    rw [hupper]
    simp only [lowerCode, Bool.and_eq_true, decide_eq_true_eq]
    split_ifs <;> omega
  rw [lowerChar, hcode, Char.ofNat_toNat]

/-- A plain text is the lower case of its upper case. -/
theorem lower_upper {s : List Char} (h : ∀ c ∈ s, isPlain c = true) : lower (upper s) = s := by
  have hchar : ∀ c ∈ s, lower (upperChar c) = [c] := by
    intro c hc
    have hplain := isPlain_iff.1 (h c hc)
    have hdotted : c.toUpper ≠ '\u0130' := by
      intro hdotted
      have hupper := toNat_toUpper c
      rw [hdotted] at hupper
      change 304 = _ at hupper
      split_ifs at hupper <;> omega
    rw [upperChar_of_lt hplain.1]
    simp [lower, hdotted, lowerChar_toUpper (h c hc)]
  rw [upper, lower, List.flatMap_assoc]
  exact (List.flatMap_congr hchar).trans (List.flatMap_singleton' s)

theorem PlainSegment.place_inj {a b : List Char} (ha : PlainSegment a) (hb : PlainSegment b)
    (h : place (upper a) = place (upper b)) : a = b := by
  rw [← lower_upper ha.plain, place_injective h, lower_upper hb.plain]

theorem PlainSegment.isNumber_of_isDigits {s : List Char} (h : PlainSegment s)
    (hdigits : isDigits s = true) : IsNumber s := by
  refine ⟨h.isSegment.ne_nil, fun c hc => ?_⟩
  have hbasic := (isPlain_iff.1 (h.plain c hc)).1
  have hdigit := List.all_eq_true.1 hdigits c hc
  simpa [isDigit, isDecimal_of_lt hbasic, Nat.not_le.2 hbasic] using hdigit

/-- Comparing two plain segments fails only for numbers of which one is too long. -/
theorem PlainSegment.compareSegments_error {a b : List Char} (ha : PlainSegment a)
    (hb : PlainSegment b) {e : IntegerError} (h : compareSegments a b = .error e) :
    IsCount a ∧ IsCount b ∧
      ∃ s ∈ [a, b], maxIntegerDigits < s.length ∧ e = .tooLong s.length := by
  have hcounts : IsCount a ∧ IsCount b := by
    unfold compareSegments at h
    split_ifs at h with _ _ _ _ hdigits
    simp only [Bool.and_eq_true, bne_iff_ne] at hdigits
    exact ⟨⟨ha.isNumber_of_isDigits hdigits.1.1.1, hdigits.1.2⟩,
      hb.isNumber_of_isDigits hdigits.1.1.2, hdigits.2⟩
  obtain ⟨hcounta, hcountb⟩ := hcounts
  refine ⟨hcounta, hcountb, ?_⟩
  rw [compareSegments_counts hcounta hcountb] at h
  split_ifs at h with hlonga hlongb
  · exact ⟨a, by simp, hlonga, (Except.error.inj h).symm⟩
  · exact ⟨b, by simp, hlongb, (Except.error.inj h).symm⟩

theorem PlainSegment.compareSegments_trans {a b c : List Char} (ha : PlainSegment a)
    (hb : PlainSegment b) (hc : PlainSegment c) (hab : a ≠ b) (hbc : b ≠ c)
    (h : compareSegments a b = .ok .lt) (h' : compareSegments b c = .ok .lt) :
    a ≠ c ∧ compareSegments a c = .ok .lt := by
  have hlt : place (upper a) < place (upper b) :=
    compareSegments_compares ha.isSegment hb.isSegment hab h
  have hlt' : place (upper b) < place (upper c) :=
    compareSegments_compares hb.isSegment hc.isSegment hbc h'
  have hac : a ≠ c := by
    intro hac
    rw [hac] at hlt
    exact lt_asymm hlt hlt'
  refine ⟨hac, ?_⟩
  cases hfound : compareSegments a c with
  | error e =>
    -- between two numbers without a leading zero there are only such numbers
    obtain ⟨hcounta, hcountc, s, hs, hlong, -⟩ := ha.compareSegments_error hc hfound
    have hcountb : IsCount b := hb.isSegment.isCount_of_between hcounta hcountc hlt hlt'
    rw [compareSegments_counts hcounta hcountb] at h
    rw [compareSegments_counts hcountb hcountc] at h'
    split_ifs at h h'
    rw [List.mem_pair] at hs
    rcases hs with rfl | rfl <;> contradiction
  | ok o =>
    have horder := compareSegments_compares ha.isSegment hc.isSegment hac hfound
    rw [horder.eq_lt.2 (hlt.trans hlt')]

/-! ## Lists of plain segments -/

section Lists

variable {as bs cs : List (List Char)}

/-- If lists of plain segments can be compared, they compare as the lists of the places. -/
theorem compareLists_compares (ha : PlainSegments as) (hb : PlainSegments bs)
    {o : Ordering} (h : compareLists as bs = .ok o) :
    o.Compares (as.map fun s => place (upper s)) (bs.map fun s => place (upper s)) := by
  fun_induction compareLists as bs with
  | case1 =>
    cases h
    rfl
  | case2 b bs =>
    cases h
    exact List.nil_lt_cons _ _
  | case3 a as =>
    cases h
    exact List.nil_lt_cons _ _
  | case4 as b bs ih =>
    exact compares_cons _ (ih ha.tail hb.tail h)
  | case5 a as b bs hne =>
    have horder := compareSegments_compares ha.head.isSegment hb.head.isSegment hne h
    exact compares_cons_of_ne horder (fun h => hne (ha.head.place_inj hb.head h)) _ _

/-- Comparing lists of plain segments fails only for a number that is too long. -/
theorem compareLists_error (ha : PlainSegments as) (hb : PlainSegments bs)
    {e : IntegerError} (h : compareLists as bs = .error e) :
    ∃ s ∈ as ++ bs, IsNumber s ∧ maxIntegerDigits < s.length ∧ e = .tooLong s.length := by
  fun_induction compareLists as bs with
  | case1 => cases h
  | case2 b bs => cases h
  | case3 a as => cases h
  | case4 as b bs ih =>
    obtain ⟨s, hs, hlong⟩ := ih ha.tail hb.tail h
    refine ⟨s, ?_, hlong⟩
    rcases List.mem_append.1 hs with hs | hs <;> simp [hs]
  | case5 a as b bs hne =>
    obtain ⟨hcounta, hcountb, s, hs, hlong⟩ := ha.head.compareSegments_error hb.head h
    rw [List.mem_pair] at hs
    rcases hs with rfl | rfl
    · exact ⟨s, by simp, hcounta.isNumber, hlong⟩
    · exact ⟨s, by simp, hcountb.isNumber, hlong⟩

theorem compareLists_trans (ha : PlainSegments as) (hb : PlainSegments bs)
    (hc : PlainSegments cs) (h : compareLists as bs = .ok .lt)
    (h' : compareLists bs cs = .ok .lt) : compareLists as cs = .ok .lt := by
  fun_induction compareLists as bs generalizing cs with
  | case1 => cases h
  | case2 b bs =>
    cases cs with
    | nil => cases h'
    | cons c cs => rfl
  | case3 a as => cases h
  | case4 as b bs ih =>
    cases cs with
    | nil => cases h'
    | cons c cs =>
      rw [compareLists] at h' ⊢
      split_ifs at h' ⊢
      · exact ih ha.tail hb.tail hc.tail h h'
      · exact h'
  | case5 a as b bs hne =>
    cases cs with
    | nil => cases h'
    | cons c cs =>
      rw [compareLists] at h' ⊢
      by_cases hbc : b = c
      · subst hbc
        rw [if_neg hne, h]
      · rw [if_neg hbc] at h'
        obtain ⟨hac, hfound⟩ := ha.head.compareSegments_trans hb.head hc.head hne hbc h h'
        rw [if_neg hac, hfound]

end Lists

/-! ## The order that comparing decides -/

theorem band_of_leadingZero {s : List Char} (hzero : s.head? = some '0') : band s = 3 := by
  obtain ⟨cs, rfl⟩ := List.head?_eq_some_iff.1 hzero
  rfl

theorem SegmentBefore.place_lt {a b : List Char} (h : SegmentBefore a b) (ha : IsSegment a)
    (hb : IsSegment b) : place (upper a) < place (upper b) := by
  cases h with
  | dash hdash => exact hb.place_dash_lt hdash
  | dot hdash hdot => exact hb.place_dot_lt hdash hdot
  | leadingZero hna hnb hzero hzero' =>
    have hcount : IsCount b := ⟨hnb, hzero'⟩
    rw [upper_number hna, upper_number hnb]
    refine place_lt_of_rank ?_
    rw [rank_number hna, band_of_leadingZero hzero, hcount.rank_eq]
    decide
  | leadingZeros hna hnb hzero hzero' hlt =>
    rw [upper_number hna, upper_number hnb]
    refine place_lt_of_lt (rank_number hna) (rank_number hnb) ?_ ?_ (fun h => h.1.head_ne hzero) hlt
    · simp [band_of_leadingZero hzero]
    · simp [band_of_leadingZero hzero']
  | integers hna hnb hzero hzero' hlt =>
    rw [upper_number hna, upper_number hnb]
    exact place_lt_of_numberValue ⟨hna, hzero⟩ ⟨hnb, hzero'⟩ hlt
  | texts hmarka hmarkb hnumbers hlt =>
    simp only [List.mem_cons, List.not_mem_nil, or_false, not_or] at hmarka hmarkb
    refine place_lt_of_lt (ha.rank_eq_band hmarka.1 hmarka.2) (hb.rank_eq_band hmarkb.1 hmarkb.2)
      ha.isCount_upper hb.isCount_upper (fun h => hnumbers ?_) hlt
    exact ⟨(ha.isCount_of_upper h.1).isNumber, (hb.isCount_of_upper h.2).isNumber⟩

/-- Of two different plain segments, one goes before the other. -/
theorem PlainSegment.before_or_before {a b : List Char} (ha : PlainSegment a) (hb : PlainSegment b)
    (hne : a ≠ b) : SegmentBefore a b ∨ SegmentBefore b a := by
  by_cases hdash : a = ['-']
  · subst hdash
    exact .inl (.dash hne.symm)
  by_cases hdash' : b = ['-']
  · subst hdash'
    exact .inr (.dash hne)
  by_cases hdot : a = ['.']
  · subst hdot
    exact .inl (.dot hdash' hne.symm)
  by_cases hdot' : b = ['.']
  · subst hdot'
    exact .inr (.dot hdash hne)
  by_cases hnumbers : IsNumber a ∧ IsNumber b
  · obtain ⟨hna, hnb⟩ := hnumbers
    by_cases hzero : a.head? = some '0' <;> by_cases hzero' : b.head? = some '0'
    · rcases lt_or_gt_of_ne hne with hlt | hgt
      · exact .inl (.leadingZeros hna hnb hzero hzero' hlt)
      · exact .inr (.leadingZeros hnb hna hzero' hzero hgt)
    · exact .inl (.leadingZero hna hnb hzero hzero')
    · exact .inr (.leadingZero hnb hna hzero' hzero)
    · have hvalue : numberValue a ≠ numberValue b := fun h =>
        hne (IsCount.numberValue_inj ⟨hna, hzero⟩ ⟨hnb, hzero'⟩ h)
      rcases lt_or_gt_of_ne hvalue with hlt | hgt
      · exact .inl (.integers hna hnb hzero hzero' hlt)
      · exact .inr (.integers hnb hna hzero' hzero hgt)
  · have hupper : upper a ≠ upper b := fun h => hne (ha.place_inj hb (congrArg place h))
    rcases lt_or_gt_of_ne hupper with hlt | hgt
    · exact .inl (.texts (by simp [hdash, hdot]) (by simp [hdash', hdot']) hnumbers hlt)
    · exact .inr (.texts (by simp [hdash', hdot']) (by simp [hdash, hdot])
        (fun h => hnumbers h.symm) hgt)

/-- Plain segments go before each other as their places do. -/
theorem PlainSegment.before_iff {a b : List Char} (ha : PlainSegment a) (hb : PlainSegment b) :
    SegmentBefore a b ↔ place (upper a) < place (upper b) := by
  refine ⟨fun h => h.place_lt ha.isSegment hb.isSegment, fun hlt => ?_⟩
  have hne : a ≠ b := by
    intro hab
    subst hab
    exact lt_irrefl _ hlt
  rcases ha.before_or_before hb hne with h | h
  · exact h
  · exact absurd (h.place_lt hb.isSegment ha.isSegment) (lt_asymm hlt)

theorem lex_before_iff {as bs : List (List Char)} (ha : PlainSegments as)
    (hb : PlainSegments bs) :
    List.Lex SegmentBefore as bs ↔
      as.map (fun s => place (upper s)) < bs.map fun s => place (upper s) := by
  induction as generalizing bs with
  | nil => cases bs <;> simp
  | cons a as ih =>
    cases bs with
    | nil => simp
    | cons b bs =>
      have hsame : place (upper a) = place (upper b) ↔ a = b :=
        ⟨ha.head.place_inj hb.head, fun h => h ▸ rfl⟩
      rw [List.map_cons, List.map_cons, List.cons_lt_cons_iff, ← ha.head.before_iff hb.head,
        ← ih ha.tail hb.tail, hsame, List.cons_lex_cons_iff]

/-- The places of the segments of a version. -/
def places (version : String) : List (ℕ ×ₗ ℕ ×ₗ List Char) :=
  (segments version.toList).map fun s => place (upper s)

theorem places_inj {a b : String} (ha : IsPlain a) (hb : IsPlain b) (h : places a = places b) :
    a = b := by
  have hback : ∀ {v}, IsPlain v → ((segments v.toList).map upper).map lower = segments v.toList := by
    intro v hv
    rw [List.map_map]
    exact (List.map_congr_left fun s hs => lower_upper (hv.plainSegments s hs).plain).trans
      (List.map_id _)
  have hupper : (segments a.toList).map upper = (segments b.toList).map upper := by
    refine List.map_injective_iff.2 place_injective ?_
    rw [List.map_map, List.map_map]
    exact h
  rw [← String.toList_inj, ← flatten_segments a.toList, ← hback ha, hupper, hback hb,
    flatten_segments]

theorem IsPlain.compare_compares {a b : String} (ha : IsPlain a) (hb : IsPlain b) {o : Ordering}
    (h : compare a b = .ok o) : o.Compares (places a) (places b) := by
  rw [compare_eq_compareLists] at h
  exact compareLists_compares ha.plainSegments hb.plainSegments h

theorem IsPlain.precedes_iff {a b : String} (ha : IsPlain a) (hb : IsPlain b) :
    Precedes a b ↔ places a < places b :=
  lex_before_iff ha.plainSegments hb.plainSegments

/-- **Comparing is a strict total order on plain versions**, with the capitals and the characters
beyond the basic Latin ones left out. It fails only for a number with more digits than can be read;
the versions that it finds equal are the same; it is transitive; and what it decides is `Precedes`,
the lexicographic order of the segments, which is a strict total order on all plain versions. -/
theorem compare_strict_total {a b c : String} (ha : IsPlain a) (hb : IsPlain b) (hc : IsPlain c) :
    ((∃ o, compare a b = .ok o) ∨
      ∃ s ∈ segments a.toList ++ segments b.toList, IsNumber s ∧ maxIntegerDigits < s.length ∧
        compare a b = .error (.tooLong s.length)) ∧
    (compare a b = .ok .eq ↔ a = b) ∧
    (compare a b = .ok .lt → compare b c = .ok .lt → compare a c = .ok .lt) ∧
    (∀ o, compare a b = .ok o → (o = .lt ↔ Precedes a b) ∧ (o = .gt ↔ Precedes b a)) ∧
    ¬ Precedes a a ∧ (Precedes a b → Precedes b c → Precedes a c) ∧
    (Precedes a b ∨ a = b ∨ Precedes b a) := by
  refine ⟨?_, ⟨fun h => ?_, fun h => ?_⟩, fun h h' => ?_, fun o h => ?_, ?_, ?_, ?_⟩
  · cases h : compare a b with
    | ok o => exact .inl ⟨o, rfl⟩
    | error e =>
      rw [compare_eq_compareLists] at h
      obtain ⟨s, hs, hnumber, hlong, rfl⟩ :=
        compareLists_error ha.plainSegments hb.plainSegments h
      exact .inr ⟨s, hs, hnumber, hlong, rfl⟩
  · exact places_inj ha hb (ha.compare_compares hb h)
  · subst h
    exact compare_self a
  · rw [compare_eq_compareLists] at h h' ⊢
    exact compareLists_trans ha.plainSegments hb.plainSegments hc.plainSegments h h'
  · rw [ha.precedes_iff hb, hb.precedes_iff ha]
    have horder := ha.compare_compares hb h
    exact ⟨horder.eq_lt, horder.eq_gt⟩
  · rw [ha.precedes_iff ha]
    exact lt_irrefl _
  · rw [ha.precedes_iff hb, hb.precedes_iff hc, ha.precedes_iff hc]
    exact lt_trans
  · rw [ha.precedes_iff hb, hb.precedes_iff ha]
    rcases lt_trichotomy (places a) (places b) with hlt | heq | hgt
    · exact .inl hlt
    · exact .inr (.inl (places_inj ha hb heq))
    · exact .inr (.inr hgt)

/-- A number with a leading zero goes before nine, and nine before ten. -/
theorem leadingZero_before_ten :
    (IsPlain "1.010" ∧ IsPlain "1.9" ∧ IsPlain "1.10-rc") ∧
    compare "1.010" "1.9" = .ok .lt ∧ compare "1.9" "1.10-rc" = .ok .lt ∧
    compare "1.010" "1.10-rc" = .ok .lt ∧ Precedes "1.010" "1.9" ∧ Precedes "1.9" "1.10-rc" := by
  have hplain : IsPlain "1.010" ∧ IsPlain "1.9" ∧ IsPlain "1.10-rc" := by decide +kernel
  have hzero : compare "1.010" "1.9" = .ok .lt := by decide +kernel
  have hten : compare "1.9" "1.10-rc" = .ok .lt := by decide +kernel
  obtain ⟨ha, hb, hc⟩ := hplain
  obtain ⟨-, -, htrans, horder, -⟩ := compare_strict_total ha hb hc
  obtain ⟨-, -, -, horder', -⟩ := compare_strict_total hb hc ha
  exact ⟨⟨ha, hb, hc⟩, hzero, hten, htrans hzero hten, (horder _ hzero).1.1 rfl,
    (horder' _ hten).1.1 rfl⟩

end ManifestDocs.VersionOrder
