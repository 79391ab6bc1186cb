/-
Versions compared both ways. The other way round, two versions compare to the opposite order, and
they cannot be compared at all just if they cannot this way (`compare_antisymmetric`). That is
decided by the first segments that differ: both are digits without a leading zero, and one of them
is unreadable, for its digits are not decimal ones or there are too many of them
(`unreadable_segment_iff`).
-/
import ManifestDocs.Proofs.TokenTexts
import ManifestDocs.Proofs.Upgrades

namespace ManifestDocs.Text

/-! ## Unreadable texts -/

/-- No integer is written with these characters. -/
def Unreadable (cs : List Char) : Prop :=
  ∃ e, readInteger cs = .error e

theorem unreadable_iff {cs : List Char} : Unreadable cs ↔ ∀ n, readInteger cs ≠ .ok n := by
  cases h : readInteger cs with
  | error e => simp [Unreadable, h]
  | ok n => simp [Unreadable, h]

theorem isDecimal_of_isBlank {c : Char} (h : isBlank c = true) : isDecimal c = false := by
  have hdigit := (plain_of_isBlank h).2
  rw [isDigit, Bool.or_eq_false_iff] at hdigit
  exact hdigit.1

theorem leadingDigits_decimals {cs : List Char} (h : ∀ c ∈ cs, isDecimal c = true) :
    ∃ digits, leadingDigits cs = (digits, []) ∧ digits.length = cs.length := by
  induction cs with
  | nil => exact ⟨[], rfl, rfl⟩
  | cons c cs ih =>
    obtain ⟨digits, hdigits, hlength⟩ := ih fun d hd => h d (List.mem_cons_of_mem c hd)
    have hc := h c List.mem_cons_self
    obtain ⟨n, hn⟩ := Option.isSome_iff_exists.1 hc
    refine ⟨n :: digits, ?_, by simp [hlength]⟩
    rw [leadingDigits]
    · simp [hn, hdigits]
    · rintro d ds rfl -
      exact absurd hc (by decide)

/-- Decimal digits of any script say an integer, unless there are too many. -/
theorem readInteger_decimals {cs : List Char} (hne : cs ≠ []) (h : ∀ c ∈ cs, isDecimal c = true) :
    ∃ n, readInteger cs =
      if maxIntegerDigits < cs.length then .error (.tooLong cs.length) else .ok n := by
  obtain ⟨c, ds, rfl⟩ := List.exists_cons_of_ne_nil hne
  have hchar : ∀ d : Char, isDecimal d = false → c ≠ d := by
    rintro d hd rfl
    rw [h c List.mem_cons_self] at hd
    cases hd
  have htrim : trimAround (c :: ds) = c :: ds := by
    refine trimAround_eq_self fun d hd => ?_
    rw [isAroundInteger, Bool.and_eq_false_iff]
    left
    by_contra hblank
    have hdecimal := isDecimal_of_isBlank (Bool.eq_true_of_not_eq_false hblank)
    rw [h d hd] at hdecimal
    cases hdecimal
  have hsign : splitSign (c :: ds) = (false, c :: ds) :=
    splitSign_eq_self (hchar '-' (by decide)) (hchar '+' (by decide))
  have hunderscore : c ≠ '_' := hchar '_' (by decide)
  obtain ⟨digits, hdigits, hlength⟩ := leadingDigits_decimals h
  have hsome : digits.isEmpty = false := by
    rw [List.isEmpty_eq_false_iff]
    rintro rfl
    cases hlength
  refine ⟨decimalNumber digits, ?_⟩
  simp only [readInteger, htrim, hsign, hdigits, hsome, hlength]
  simp [hunderscore]

theorem unreadable_decimals_iff {cs : List Char} (hne : cs ≠ [])
    (h : ∀ c ∈ cs, isDecimal c = true) : Unreadable cs ↔ maxIntegerDigits < cs.length := by
  obtain ⟨n, hn⟩ := readInteger_decimals hne h
  rw [Unreadable, hn]
  split
  · next hlong => simp [hlong]
  · next hshort => simp [hshort]

end ManifestDocs.Text

namespace ManifestDocs.VersionOrder

open ManifestDocs.Text

/-! ## Segments -/

/-- A segment has decimal digits only, or none at all. -/
theorem decimals_or_none {version s : List Char} (hs : s ∈ segments version) :
    (∀ c ∈ s, isDecimal c = true) ∨ ∀ c ∈ s, isDecimal c = false := by
  obtain ⟨c, cs, rfl⟩ := List.exists_cons_of_ne_nil (List.ne_nil_of_mem_splitBy hs)
  have hsame : ∀ d ∈ c :: cs, isDecimal d = isDecimal c := by
    intro d hd
    rcases List.mem_cons.1 hd with rfl | hd
    · rfl
    · exact (sameSegment_iff.1 (sameSegment_of_mem hs hd)).2.2.symm
  cases hc : isDecimal c with
  | true => exact .inl fun d hd => (hsame d hd).trans hc
  | false => exact .inr fun d hd => (hsame d hd).trans hc

/-- Which segments are unreadable. -/
theorem unreadable_segment_iff {version s : List Char} (hs : s ∈ segments version) :
    Unreadable s ↔ (∃ c ∈ s, isDecimal c = false) ∨ maxIntegerDigits < s.length := by
  have hne := List.ne_nil_of_mem_splitBy hs
  rcases decimals_or_none hs with hdecimals | hnone
  · rw [unreadable_decimals_iff hne hdecimals]
    refine (or_iff_right ?_).symm
    rintro ⟨c, hc, hother⟩
    rw [hdecimals c hc] at hother
    cases hother
  · obtain ⟨c, cs, rfl⟩ := List.exists_cons_of_ne_nil hne
    refine iff_of_true (unreadable_iff.2 fun n hn => ?_)
      (.inl ⟨c, List.mem_cons_self, hnone c List.mem_cons_self⟩)
    obtain ⟨d, hd, hdecimal⟩ := exists_decimal_of_readInteger hn
    rw [hnone d hd] at hdecimal
    cases hdecimal

/-- Two segments that compare as integers, but one of which is none. -/
structure Incomparable (s t : List Char) : Prop where
  digits : isDigits s = true ∧ isDigits t = true
  noZero : s.head? ≠ some '0' ∧ t.head? ≠ some '0'
  unreadable : Unreadable s ∨ Unreadable t

theorem Incomparable.symm {s t : List Char} (h : Incomparable s t) : Incomparable t s :=
  ⟨h.digits.symm, h.noZero.symm, h.unreadable.symm⟩

theorem ne_mark_of_isDigits {s : List Char} (h : isDigits s = true) : s ≠ ['-'] ∧ s ≠ ['.'] := by
  constructor
  · rintro rfl
    exact absurd h (by decide)
  · rintro rfl
    exact absurd h (by decide)

/-- Comparing segments fails only for integers, where one of them cannot be read. -/
theorem compareSegments_fails_iff {s t : List Char} :
    (∃ e, compareSegments s t = .error e) ↔ Incomparable s t := by
  constructor
  · rintro ⟨e, h⟩
    unfold compareSegments at h
    split_ifs at h with hdash hdash' hdot hdot' hdigits
    simp only [Bool.and_eq_true, bne_iff_ne] at hdigits
    refine ⟨hdigits.1.1, ⟨hdigits.1.2, hdigits.2⟩, ?_⟩
    cases hs : readInteger s with
    | error e' => exact .inl ⟨e', hs⟩
    | ok m =>
      cases ht : readInteger t with
      | error e' => exact .inr ⟨e', ht⟩
      | ok n =>
        rw [hs, ht] at h
        cases h
  · rintro ⟨hdigits, hzero, hunreadable⟩
    obtain ⟨hdash, hdot⟩ := ne_mark_of_isDigits hdigits.1
    obtain ⟨hdash', hdot'⟩ := ne_mark_of_isDigits hdigits.2
    have hcond :
        (isDigits s && isDigits t && s.head? != some '0' && t.head? != some '0') = true := by
      simp [hdigits, hzero]
    rw [compareSegments, if_neg hdash, if_neg hdash', if_neg hdot, if_neg hdot', if_pos hcond]
    cases hs : readInteger s with
    | error e => exact ⟨e, rfl⟩
    | ok m =>
      rcases hunreadable with ⟨e, he⟩ | ⟨e, he⟩
      · rw [hs] at he
        cases he
      · rw [he]
        exact ⟨e, rfl⟩

/-! ## The first segments that differ -/

/-- The lists start alike and then go on with `s` and with `t`, which are different. -/
structure DifferFirst (as bs : List (List Char)) (s t : List Char) : Prop where
  ne : s ≠ t
  alike : ∃ front as' bs', as = front ++ s :: as' ∧ bs = front ++ t :: bs'

variable {as bs : List (List Char)} {s t : List Char}

theorem DifferFirst.symm (h : DifferFirst as bs s t) : DifferFirst bs as t s := by
  obtain ⟨hne, front, as', bs', has, hbs⟩ := h
  exact ⟨hne.symm, front, bs', as', hbs, has⟩

theorem DifferFirst.cons (h : DifferFirst as bs s t) (x : List Char) :
    DifferFirst (x :: as) (x :: bs) s t := by
  obtain ⟨hne, front, as', bs', rfl, rfl⟩ := h
  exact ⟨hne, x :: front, as', bs', rfl, rfl⟩

/-- The first segments that differ decide. -/
theorem DifferFirst.compareLists (h : DifferFirst as bs s t) :
    compareLists as bs = compareSegments s t := by
  obtain ⟨hne, front, as', bs', rfl, rfl⟩ := h
  induction front with
  | nil => rw [List.nil_append, List.nil_append, VersionOrder.compareLists, if_neg hne]
  | cons x front ih =>
    rw [List.cons_append, List.cons_append, VersionOrder.compareLists, if_pos rfl, ih]

/-- Where no segments differ, the lists compare both ways. -/
theorem differFirst_or_ok (as bs : List (List Char)) :
    (∃ s t, DifferFirst as bs s t) ∨
      ∃ o, compareLists as bs = .ok o ∧ compareLists bs as = .ok o.swap := by
  fun_induction compareLists as bs with
  | case1 => exact .inr ⟨.eq, rfl, rfl⟩
  | case2 b bs => exact .inr ⟨.lt, rfl, rfl⟩
  | case3 a as => exact .inr ⟨.gt, rfl, rfl⟩
  | case4 as a bs ih =>
    rcases ih with ⟨s, t, h⟩ | ⟨o, h, h'⟩
    · exact .inl ⟨s, t, h.cons a⟩
    · refine .inr ⟨o, h, ?_⟩
      rw [compareLists, if_pos rfl, h']
  | case5 a as b bs hne => exact .inl ⟨a, b, hne, [], as, bs, rfl, rfl⟩

theorem compareLists_fails_iff :
    (∃ e, compareLists as bs = .error e) ↔ ∃ s t, DifferFirst as bs s t ∧ Incomparable s t := by
  constructor
  · rintro ⟨e, he⟩
    rcases differFirst_or_ok as bs with ⟨s, t, h⟩ | ⟨o, ho, -⟩
    · rw [h.compareLists] at he
      exact ⟨s, t, h, compareSegments_fails_iff.1 ⟨e, he⟩⟩
    · rw [ho] at he
      cases he
  · rintro ⟨s, t, h, hincomparable⟩
    rw [h.compareLists]
    exact compareSegments_fails_iff.2 hincomparable

theorem compareLists_swap {o : Ordering} (h : compareLists as bs = .ok o) :
    compareLists bs as = .ok o.swap := by
  rcases differFirst_or_ok as bs with ⟨s, t, hdiffer⟩ | ⟨o', ho, ho'⟩
  · rw [hdiffer.compareLists] at h
    rw [hdiffer.symm.compareLists, compareSegments_swap hdiffer.ne h]
  · rw [h] at ho
    cases ho
    exact ho'

/-! ## Versions -/

theorem compare_swap {a b : String} {o : Ordering} (h : compare a b = .ok o) :
    compare b a = .ok o.swap := by
  rw [compare_eq_compareLists] at h ⊢
  exact compareLists_swap h

/-- **Versions compare both ways**, whatever their characters are. Comparing fails one way if and
only if it fails the other way, and otherwise the orders are opposite. It fails exactly if the first
segments that differ are both digits, neither starts with a zero, and no integer is written with at
least one of them: a segment of digits that are not decimal ones, or of more than 4300. -/
theorem compare_antisymmetric (a b : String) :
    ((∃ e, compare a b = .error e) ↔ ∃ e, compare b a = .error e) ∧
    (∀ o, compare a b = .ok o ↔ compare b a = .ok o.swap) ∧
    ((∃ e, compare a b = .error e) ↔
      ∃ s t, DifferFirst (segments a.toList) (segments b.toList) s t ∧ Incomparable s t) ∧
    ∀ s ∈ segments a.toList, isDigits s = true →
      (Unreadable s ↔ (∃ c ∈ s, isDecimal c = false) ∨ 4300 < s.length) := by
  have hfails (a b : String) : (∃ e, compare a b = .error e) ↔
      ∃ s t, DifferFirst (segments a.toList) (segments b.toList) s t ∧ Incomparable s t := by
    rw [compare_eq_compareLists]
    exact compareLists_fails_iff
  refine ⟨?_, fun o => ⟨compare_swap, fun h => ?_⟩, hfails a b,
    fun s hs _ => unreadable_segment_iff hs⟩
  · rw [hfails a b, hfails b a]
    constructor
    · rintro ⟨s, t, hdiffer, hincomparable⟩
      exact ⟨t, s, hdiffer.symm, hincomparable.symm⟩
    · rintro ⟨s, t, hdiffer, hincomparable⟩
      exact ⟨t, s, hdiffer.symm, hincomparable.symm⟩
  · have hback := compare_swap h
    rwa [Ordering.swap_swap] at hback

-- a superscript is a digit, but no integer is written with it; beside a letter it is a text
example : compare "1.²" "1.3" = .error (.malformed ['²']) ∧ compare "1.²" "1.a" = .ok .gt := by
  decide +kernel

end ManifestDocs.VersionOrder
