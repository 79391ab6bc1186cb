/-
The places of segments. The upper cases of segments have places in one linear order (`place`): the
dash first and the dot next, then all texts by their first character, with the numbers that have no
leading zero by their value where their digits stand. If two segments can be compared, they compare
as their places do (`compareSegments_compares`).
-/
import Mathlib.Data.Char
import Mathlib.Data.List.Lex
import Mathlib.Data.Nat.Digits.Lemmas
import Mathlib.Data.Prod.Lex
import ManifestDocs.Proofs.VersionSegments

namespace ManifestDocs.VersionOrder

open ManifestDocs.Text

/-! ## Lists in order -/

section Lists

variable {α : Type*} [LinearOrder α] {o : Ordering} {s t : List α} {x y : α}

theorem compares_cons (x : α) (h : o.Compares s t) : o.Compares (x :: s) (x :: t) := by
  cases o <;> simpa [Ordering.Compares] using h

theorem compares_cons_of_ne (h : o.Compares x y) (hne : x ≠ y) (s t : List α) :
    o.Compares (x :: s) (y :: t) := by
  cases o with
  | lt => exact List.cons_lt_cons_iff.2 (.inl h)
  | eq => exact absurd h hne
  | gt => exact List.cons_lt_cons_iff.2 (.inl h)

end Lists

theorem compareText_compares (s t : List Char) : (compareText s t).Compares s t := by
  rw [compareText]
  induction s generalizing t with
  | nil => cases t <;> simp [List.compareLex, Ordering.Compares]
  | cons c s ih =>
    cases t with
    | nil => simp [List.compareLex, Ordering.Compares]
    | cons d t =>
      rw [List.compareLex_cons_cons]
      rcases lt_trichotomy c d with hlt | rfl | hgt
      · have horder : compareOn Char.toNat c d = .lt := Nat.compare_eq_lt.2 hlt
        rw [horder]
        exact compares_cons_of_ne (o := .lt) hlt hlt.ne s t
      · simpa [compareOn] using compares_cons c (ih t)
      · have horder : compareOn Char.toNat c d = .gt := Nat.compare_eq_gt.2 hgt
        rw [horder]
        exact compares_cons_of_ne (o := .gt) hgt hgt.ne' s t

/-! ## Numbers -/

/-- A number without a leading zero. -/
structure IsCount (t : List Char) : Prop where
  isNumber : IsNumber t
  head_ne : t.head? ≠ some '0'

instance (t : List Char) : Decidable (IsCount t) :=
  decidable_of_iff (t ≠ [] ∧ t.all Char.isDigit = true ∧ t.head? ≠ some '0')
    ⟨fun h => ⟨⟨h.1, List.all_eq_true.1 h.2.1⟩, h.2.2⟩,
      fun h => ⟨h.isNumber.ne_nil, List.all_eq_true.2 h.isNumber.digits, h.head_ne⟩⟩

theorem toNat_ne_of_head?_ne {c : Char} {cs : List Char} (h : (c :: cs).head? ≠ some '0') :
    c.toNat ≠ 48 := by
  intro hc
  have hzero : c = '0' := Char.toNat_inj.1 hc
  exact h (by simp [hzero])

/-- The digits of a number without a leading zero are those of its value. -/
theorem IsCount.digits_numberValue {t : List Char} (h : IsCount t) :
    Nat.digits 10 (numberValue t) = (t.map (·.toNat - 48)).reverse := by
  obtain ⟨⟨hne, hdigits⟩, hzero⟩ := h
  refine Nat.digits_ofDigits 10 (by omega) _ ?_ ?_
  · intro n hn
    obtain ⟨c, hc, rfl⟩ := List.mem_map.1 (List.mem_reverse.1 hn)
    have := isDigit_iff.1 (hdigits c hc)
    omega
  · intro _
    obtain ⟨c, cs, rfl⟩ := List.exists_cons_of_ne_nil hne
    have hc := isDigit_iff.1 (hdigits c (by simp))
    have hc' := toNat_ne_of_head?_ne hzero
    simp
    omega

theorem IsCount.numberValue_pos {t : List Char} (h : IsCount t) : 0 < numberValue t := by
  by_contra hzero
  have hdigits := h.digits_numberValue
  rw [Nat.eq_zero_of_not_pos hzero] at hdigits
  simp at hdigits
  exact h.isNumber.ne_nil hdigits

theorem IsCount.numberValue_inj {t u : List Char} (ht : IsCount t) (hu : IsCount u)
    (h : numberValue t = numberValue u) : t = u := by
  have hback : ∀ {s}, IsCount s → (s.map (·.toNat - 48)).map (Char.ofNat <| · + 48) = s := by
    intro s hs
    rw [List.map_map]
    refine (List.map_congr_left fun c hc => ?_).trans (List.map_id s)
    have hc := isDigit_iff.1 (hs.isNumber.digits c hc)
    rw [Function.comp_apply, Nat.sub_add_cancel hc.1, Char.ofNat_toNat, id]
  have hdigits := ht.digits_numberValue
  rw [h, hu.digits_numberValue, List.reverse_inj] at hdigits
  rw [← hback ht, ← hback hu, hdigits]

/-! ## Places -/

/-- Where a text stands by its first character: before the digits, at the zero, at the other digits
or after them. -/
def band : List Char → Nat
  | [] => 2
  | c :: _ => if c.toNat < 48 then 2 else if c.toNat = 48 then 3 else if c.toNat ≤ 57 then 4 else 5

theorem two_le_band (t : List Char) : 2 ≤ band t := by
  unfold band
  split
  · exact Nat.le_refl 2
  · split_ifs <;> omega

theorem band_le_of_lt {t u : List Char} (h : t < u) : band t ≤ band u := by
  cases u with
  | nil => cases h
  | cons d u =>
    cases t with
    | nil => exact two_le_band (d :: u)
    | cons c t =>
      have hcd : c.toNat ≤ d.toNat := by
        rcases List.cons_lt_cons_iff.1 h with hlt | ⟨rfl, -⟩
        · exact Nat.le_of_lt hlt
        · exact Nat.le_refl _
      simp only [band]
      split_ifs <;> omega

theorem IsCount.band_eq {t : List Char} (h : IsCount t) : band t = 4 := by
  obtain ⟨⟨hne, hdigits⟩, hzero⟩ := h
  obtain ⟨c, cs, rfl⟩ := List.exists_cons_of_ne_nil hne
  have hc := isDigit_iff.1 (hdigits c (by simp))
  have hc' := toNat_ne_of_head?_ne hzero
  simp only [band]
  split_ifs <;> omega

/-- The place of a text goes first by its rank, with the dash and the dot before all else. -/
def rank (t : List Char) : Nat :=
  if t = ['-'] then 0 else if t = ['.'] then 1 else band t

/-- The place of the upper case of a segment: by rank, then numbers without a leading zero by their
value and all else by its text. -/
def place (t : List Char) : ℕ ×ₗ ℕ ×ₗ List Char :=
  toLex (rank t, if IsCount t then toLex (numberValue t, []) else toLex (0, t))

/-- Different texts have different places. -/
theorem place_injective : Function.Injective place := by
  intro t u h
  have hlabel := congrArg (fun p => (ofLex p).2) h
  simp only [place, ofLex_toLex] at hlabel
  split_ifs at hlabel with ht hu hu
  · exact ht.numberValue_inj hu (by simpa using hlabel)
  · have := ht.numberValue_pos
    simp at hlabel
    omega
  · have := hu.numberValue_pos
    simp at hlabel
    omega
  · simpa using hlabel

theorem place_lt_of_rank {t u : List Char} (h : rank t < rank u) : place t < place u :=
  Prod.Lex.toLex_lt_toLex.2 (.inl h)

theorem rank_le_of_place_lt {t u : List Char} (h : place t < place u) : rank t ≤ rank u := by
  rcases Prod.Lex.toLex_lt_toLex.1 h with hlt | ⟨heq, -⟩
  · exact Nat.le_of_lt hlt
  · exact Nat.le_of_eq heq

theorem rank_eq_zero_iff {t : List Char} : rank t = 0 ↔ t = ['-'] := by
  have hband := two_le_band t
  unfold rank
  split_ifs <;> simp_all
  omega

theorem rank_eq_one_iff {t : List Char} : rank t = 1 ↔ t = ['.'] := by
  have hband := two_le_band t
  unfold rank
  split_ifs <;> simp_all
  omega

theorem rank_of_ne {t : List Char} (hdash : t ≠ ['-']) (hdot : t ≠ ['.']) : rank t = band t := by
  rw [rank, if_neg hdash, if_neg hdot]

theorem band_eq_four_of_rank {t : List Char} (h : rank t = 4) : band t = 4 := by
  unfold rank at h
  split_ifs at h <;> omega

theorem rank_number {t : List Char} (h : IsNumber t) : rank t = band t :=
  rank_of_ne (h.ne_singleton rfl) (h.ne_singleton rfl)

theorem IsCount.rank_eq {t : List Char} (h : IsCount t) : rank t = 4 := by
  rw [rank_number h.isNumber, h.band_eq]

theorem place_lt_of_numberValue {t u : List Char} (ht : IsCount t) (hu : IsCount u)
    (h : numberValue t < numberValue u) : place t < place u := by
  refine Prod.Lex.toLex_lt_toLex.2 (.inr ⟨ht.rank_eq.trans hu.rank_eq.symm, ?_⟩)
  simpa [ht, hu, Prod.Lex.toLex_lt_toLex] using h

/-- Where only numbers without a leading zero stand among the digits, texts that are not both such
numbers have the order of their places. -/
theorem place_lt_of_lt {t u : List Char} (ht : rank t = band t) (hu : rank u = band u)
    (hcount : band t = 4 → IsCount t) (hcount' : band u = 4 → IsCount u)
    (hboth : ¬ (IsCount t ∧ IsCount u)) (h : t < u) : place t < place u := by
  rcases (band_le_of_lt h).lt_or_eq with hlt | heq
  · exact place_lt_of_rank (by rwa [ht, hu])
  · -- in one band, either both are numbers without a leading zero or neither is
    have hneither : ¬ IsCount t ∧ ¬ IsCount u := by
      refine ⟨fun h => hboth ⟨h, hcount' ?_⟩, fun h => hboth ⟨hcount ?_, h⟩⟩
      · rw [← heq, h.band_eq]
      · rw [heq, h.band_eq]
    refine Prod.Lex.toLex_lt_toLex.2 (.inr ⟨by rw [ht, hu, heq], ?_⟩)
    simpa [hneither, Prod.Lex.toLex_lt_toLex] using h

/-! ## The places of segments -/

/-- At the digits, there are no segments but numbers without a leading zero. -/
theorem IsSegment.isCount_upper {s : List Char} (h : IsSegment s) (hband : band (upper s) = 4) :
    IsCount (upper s) := by
  cases h with
  | mark hc =>
    rw [upper_mark hc] at hband
    simp only [isMark, Bool.or_eq_true, beq_iff_eq] at hc
    rcases hc with rfl | rfl <;> cases hband
  | number hnumber =>
    rw [upper_number hnumber] at hband ⊢
    refine ⟨hnumber, fun hzero => ?_⟩
    obtain ⟨cs, rfl⟩ := List.head?_eq_some_iff.1 hzero
    cases hband
  | word hne hword =>
    cases hupper : upper s with
    | nil => simp [hupper, band] at hband
    | cons d ds =>
      have hd := (mem_upper_word hword (d := d) (by simp [hupper])).1
      rw [← Bool.not_eq_true, isDigit_iff] at hd
      rw [hupper, band] at hband
      split_ifs at hband <;> omega

theorem IsSegment.upper_eq_mark_iff {s : List Char} (h : IsSegment s) {c : Char}
    (hc : isMark c = true) : upper s = [c] ↔ s = [c] := by
  refine ⟨fun hupper => ?_, fun hs => hs ▸ upper_mark hc⟩
  cases h with
  | mark hd => rwa [upper_mark hd] at hupper
  | number hnumber => rwa [upper_number hnumber] at hupper
  | word hne hword =>
    have hmark := (mem_upper_word hword (d := c) (by simp [hupper])).2
    rw [hc] at hmark
    cases hmark

theorem IsSegment.rank_upper {s : List Char} (h : IsSegment s) :
    (rank (upper s) = 0 ↔ s = ['-']) ∧ (rank (upper s) = 1 ↔ s = ['.']) := by
  rw [rank_eq_zero_iff, rank_eq_one_iff, h.upper_eq_mark_iff rfl, h.upper_eq_mark_iff rfl]
  simp

/-- The dash goes before all other segments. -/
theorem IsSegment.place_dash_lt {s : List Char} (h : IsSegment s) (hdash : s ≠ ['-']) :
    place (upper ['-']) < place (upper s) := by
  have hlater := mt h.rank_upper.1.1 hdash
  exact place_lt_of_rank (Nat.pos_of_ne_zero hlater)

/-- The dot goes before all other segments but the dash. -/
theorem IsSegment.place_dot_lt {s : List Char} (h : IsSegment s) (hdash : s ≠ ['-'])
    (hdot : s ≠ ['.']) : place (upper ['.']) < place (upper s) := by
  have hfirst : rank (upper ['.']) = 1 := rfl
  have hlater := mt h.rank_upper.1.1 hdash
  have hlater' := mt h.rank_upper.2.1 hdot
  exact place_lt_of_rank (by omega)

theorem IsSegment.rank_eq_band {s : List Char} (h : IsSegment s) (hdash : s ≠ ['-'])
    (hdot : s ≠ ['.']) : rank (upper s) = band (upper s) :=
  rank_of_ne (mt (h.upper_eq_mark_iff rfl).1 hdash) (mt (h.upper_eq_mark_iff rfl).1 hdot)

theorem IsSegment.upper_of_isCount {s : List Char} (h : IsSegment s) (hcount : IsCount (upper s)) :
    upper s = s := by
  cases h with
  | mark hc => exact upper_mark hc
  | number hnumber => exact upper_number hnumber
  | word hne hword =>
    obtain ⟨d, ds, hupper⟩ := List.exists_cons_of_ne_nil hcount.isNumber.ne_nil
    have hmem : d ∈ upper s := by simp [hupper]
    have hdigit := hcount.isNumber.digits d hmem
    rw [(mem_upper_word hword hmem).1] at hdigit
    cases hdigit

theorem IsSegment.isCount_of_upper {s : List Char} (h : IsSegment s) (hcount : IsCount (upper s)) :
    IsCount s :=
  h.upper_of_isCount hcount ▸ hcount

/-- Between numbers without a leading zero, there are only such numbers. -/
theorem IsSegment.isCount_of_between {a b c : List Char} (hb : IsSegment b) (ha : IsCount a)
    (hc : IsCount c) (hlt : place (upper a) < place (upper b))
    (hlt' : place (upper b) < place (upper c)) : IsCount b := by
  have hle := rank_le_of_place_lt hlt
  have hle' := rank_le_of_place_lt hlt'
  rw [upper_number ha.isNumber, ha.rank_eq] at hle
  rw [upper_number hc.isNumber, hc.rank_eq] at hle'
  have hrank : rank (upper b) = 4 := by omega
  exact hb.isCount_of_upper (hb.isCount_upper (band_eq_four_of_rank hrank))

/-- Segments that are not both numbers without a leading zero have the order of their upper cases. -/
theorem IsSegment.compareText_compares {a b : List Char} (ha : IsSegment a) (hb : IsSegment b)
    (hmarka : rank (upper a) = band (upper a)) (hmarkb : rank (upper b) = band (upper b))
    (hboth : ¬ (IsCount (upper a) ∧ IsCount (upper b))) :
    (compareText (upper a) (upper b)).Compares (place (upper a)) (place (upper b)) := by
  have horder := VersionOrder.compareText_compares (upper a) (upper b)
  generalize compareText (upper a) (upper b) = o at horder ⊢
  cases o with
  | lt => exact place_lt_of_lt hmarka hmarkb ha.isCount_upper hb.isCount_upper hboth horder
  | eq => exact congrArg place horder
  | gt =>
    exact place_lt_of_lt hmarkb hmarka hb.isCount_upper ha.isCount_upper (fun h => hboth h.symm)
      horder

theorem compare_natCast (m n : Nat) :
    Ord.compare (m : Int) (n : Int) = Ord.compare m n := by
  rcases lt_trichotomy m n with hlt | heq | hgt
  · rw [compare_lt_iff_lt.2 hlt, compare_lt_iff_lt.2 (Int.ofNat_lt.2 hlt)]
  · rw [compare_eq_iff_eq.2 heq, compare_eq_iff_eq.2 (congrArg _ heq)]
  · rw [compare_gt_iff_gt.2 hgt, compare_gt_iff_gt.2 (Int.ofNat_lt.2 hgt)]

/-- Numbers without a leading zero compare by their value, unless one of them is too long. -/
theorem compareSegments_counts {a b : List Char} (ha : IsCount a) (hb : IsCount b) :
    compareSegments a b =
      if maxIntegerDigits < a.length then .error (.tooLong a.length)
      else if maxIntegerDigits < b.length then .error (.tooLong b.length)
      else .ok (Ord.compare (numberValue a) (numberValue b)) := by
  have hdigits : ∀ {s}, IsCount s → isDigits s = true := by
    intro s hs
    simp only [isDigits, List.all_eq_true, isDigit, Bool.or_eq_true]
    exact fun c hc => .inl (isDecimal_of_isDigit (hs.isNumber.digits c hc))
  have hcond : (isDigits a && isDigits b && a.head? != some '0' && b.head? != some '0') = true := by
    simp [hdigits ha, hdigits hb, ha.head_ne, hb.head_ne]
  have hmark : ∀ {s c}, IsCount s → c.isDigit = false → s ≠ [c] := fun hs => hs.isNumber.ne_singleton
  rw [compareSegments, if_neg (hmark ha rfl), if_neg (hmark hb rfl), if_neg (hmark ha rfl),
    if_neg (hmark hb rfl), if_pos hcond, readInteger_number ha.isNumber,
    readInteger_number hb.isNumber]
  by_cases hlonga : maxIntegerDigits < a.length
  · rw [if_pos hlonga, if_pos hlonga]
    rfl
  · rw [if_neg hlonga, if_neg hlonga]
    by_cases hlongb : maxIntegerDigits < b.length
    · rw [if_pos hlongb, if_pos hlongb]
      rfl
    · rw [if_neg hlongb, if_neg hlongb]
      exact congrArg Except.ok (compare_natCast _ _)

theorem readInteger_of_compare {a b : List Char} {o : Ordering}
    (h : (do
      let m ← readInteger a
      let n ← readInteger b
      return Ord.compare m n : Except IntegerError Ordering) = .ok o) :
    ∃ m n, readInteger a = .ok m ∧ readInteger b = .ok n ∧ o = Ord.compare m n := by
  cases hm : readInteger a with
  | error e =>
    rw [hm] at h
    cases h
  | ok m =>
    cases hn : readInteger b with
    | error e =>
      rw [hm, hn] at h
      cases h
    | ok n =>
      rw [hm, hn] at h
      exact ⟨m, n, rfl, rfl, (Except.ok.inj h).symm⟩

theorem place_compares_of_counts {a b : List Char} (ha : IsCount a) (hb : IsCount b) :
    (Ord.compare (numberValue a) (numberValue b)).Compares (place a) (place b) := by
  rcases lt_trichotomy (numberValue a) (numberValue b) with hlt | heq | hgt
  · rw [compare_lt_iff_lt.2 hlt]
    exact place_lt_of_numberValue ha hb hlt
  · rw [compare_eq_iff_eq.2 heq]
    exact congrArg place (ha.numberValue_inj hb heq)
  · rw [compare_gt_iff_gt.2 hgt]
    exact place_lt_of_numberValue hb ha hgt

/-- **If segments can be compared, they compare as their places do.** -/
theorem compareSegments_compares {a b : List Char} (ha : IsSegment a) (hb : IsSegment b)
    (hne : a ≠ b) {o : Ordering} (h : compareSegments a b = .ok o) :
    o.Compares (place (upper a)) (place (upper b)) := by
  by_cases hcounts : IsCount a ∧ IsCount b
  · obtain ⟨hcounta, hcountb⟩ := hcounts
    rw [compareSegments_counts hcounta hcountb] at h
    split_ifs at h
    cases h
    rw [upper_number hcounta.isNumber, upper_number hcountb.isNumber]
    exact place_compares_of_counts hcounta hcountb
  unfold compareSegments at h
  split_ifs at h with hdash hdash' hdot hdot' hdigits
  · cases h
    subst hdash
    exact hb.place_dash_lt hne.symm
  · cases h
    subst hdash'
    exact ha.place_dash_lt hne
  · cases h
    subst hdot
    exact hb.place_dot_lt hdash' hne.symm
  · cases h
    subst hdot'
    exact ha.place_dot_lt hdash hne
  · -- a word of digits that are not decimal is no integer, so that both are numbers
    obtain ⟨m, n, hm, hn, -⟩ := readInteger_of_compare h
    simp only [Bool.and_eq_true, bne_iff_ne] at hdigits
    exact absurd ⟨⟨ha.isNumber_of_readInteger hm, hdigits.1.2⟩, hb.isNumber_of_readInteger hn,
      hdigits.2⟩ hcounts
  · cases h
    exact ha.compareText_compares hb (ha.rank_eq_band hdash hdot) (hb.rank_eq_band hdash' hdot')
      fun h => hcounts ⟨ha.isCount_of_upper h.1, hb.isCount_of_upper h.2⟩

end ManifestDocs.VersionOrder
