/-
Upgrades and plans. A policy on plans that lets a file through should let it through on every newer
runtime, and so it does unless the order of versions breaks down. That happens in two ways
(`Confused`): comparing ends at the first segments that differ even if they count as equal, as words
in different case do; and numbers in the digits of another script go among the words by their text,
but among the numbers by their value.
-/
import ManifestDocs.PlanPolicy
import ManifestDocs.Proofs.VersionPlaces

namespace ManifestDocs.VersionOrder

open ManifestDocs.Text

/-! ## Where the order breaks down -/

/-- A decimal digit of a text is not one of the usual ten. -/
def HasOtherDigit (s : List Char) : Prop :=
  ∃ c ∈ s, isDecimal c = true ∧ c.isDigit = false

/-- `Confused ws vs ms`: after the same segments in all three lists, either `ws` and `ms` go on with
one segment and `vs` with another that counts as equal to it, since only its case is different or it
has other digits; or the three go on with three different segments, none below the next, among which
are other digits. -/
inductive Confused : List (List Char) → List (List Char) → List (List Char) → Prop
  | equalled {x y : List Char} {ws vs ms : List (List Char)} (hne : x ≠ y)
    (hcase : upper x = upper y ∨ HasOtherDigit (x ++ y)) (h : compareSegments x y = .ok .eq) :
    Confused (x :: ws) (y :: vs) (x :: ms)
  | mixed {x y z : List Char} {ws vs ms : List (List Char)} (hxy : x ≠ y) (hyz : y ≠ z) (hxz : x ≠ z)
    (hdigit : HasOtherDigit (x ++ y ++ z)) (h : compareSegments x y ≠ .ok .lt)
    (h' : compareSegments y z ≠ .ok .lt) : Confused (x :: ws) (y :: vs) (z :: ms)
  | there {ws vs ms : List (List Char)} (x : List Char) (h : Confused ws vs ms) :
    Confused (x :: ws) (x :: vs) (x :: ms)

theorem compareText_swap (s t : List Char) : compareText t s = (compareText s t).swap :=
  (compareText_compares t s).inj (Ordering.compares_swap.2 (compareText_compares s t))

/-- Segments compare the other way round as they should. -/
theorem compareSegments_swap {a b : List Char} (hne : a ≠ b) {o : Ordering}
    (h : compareSegments a b = .ok o) : compareSegments b a = .ok o.swap := by
  have hcomm : (isDigits b && isDigits a && b.head? != some '0' && a.head? != some '0') =
      (isDigits a && isDigits b && a.head? != some '0' && b.head? != some '0') := by
    ac_rfl
  unfold compareSegments at h ⊢
  rw [hcomm]
  split_ifs at h with hdash hdash' hdot hdot' hdigits
  · cases h
    rw [if_neg fun hb => hne (hdash.trans hb.symm), if_pos hdash]
    rfl
  · cases h
    rw [if_pos hdash']
    rfl
  · cases h
    rw [if_neg hdash', if_neg hdash, if_neg fun hb => hne (hdot.trans hb.symm), if_pos hdot]
    rfl
  · cases h
    rw [if_neg hdash', if_neg hdash, if_pos hdot']
    rfl
  · rw [if_neg hdash', if_neg hdash, if_neg hdot', if_neg hdot, if_pos hdigits]
    obtain ⟨m, n, hm, hn, rfl⟩ := readInteger_of_compare h
    rw [hm, hn]
    exact congrArg Except.ok Std.OrientedCmp.eq_swap
  · cases h
    rw [if_neg hdash', if_neg hdash, if_neg hdot', if_neg hdot, if_neg hdigits, compareText_swap]

section Lists

variable {ws vs ms : List (List Char)} {o o' : Ordering}

/-- Segments with the usual digits are in order. -/
theorem IsSegment.compareSegments_trans {x y z : List Char} (hx : IsSegment x) (hy : IsSegment y)
    (hz : IsSegment z) (hxy : x ≠ y) (hyz : y ≠ z) (hxz : x ≠ z) (h : compareSegments x y = .ok o)
    (ho : o ≠ .lt) (h' : compareSegments y z = .ok o') (ho' : o' ≠ .lt) :
    compareSegments x z ≠ .ok .lt := by
  intro hlt
  have hle := not_lt.1 (mt (compareSegments_compares hx hy hxy h).eq_lt.2 ho)
  have hle' := not_lt.1 (mt (compareSegments_compares hy hz hyz h').eq_lt.2 ho')
  exact not_lt.2 (hle'.trans hle) (compareSegments_compares hx hz hxz hlt)

theorem HasOtherDigit.subset {s t : List Char} (h : HasOtherDigit s) (hst : s ⊆ t) :
    HasOtherDigit t := by
  obtain ⟨c, hc, hdigit⟩ := h
  exact ⟨c, hst hc, hdigit⟩

/-- What the segments of versions are, if their digits are the usual ones. -/
def AreSegments (ss : List (List Char)) : Prop :=
  ∀ s ∈ ss, ¬ HasOtherDigit s → IsSegment s

theorem AreSegments.head {s t : List Char} {ss : List (List Char)} (h : AreSegments (s :: ss))
    (ht : ¬ HasOtherDigit t) (hst : s ⊆ t) : IsSegment s :=
  h s List.mem_cons_self fun hs => ht (hs.subset hst)

theorem AreSegments.tail {s : List Char} {ss : List (List Char)} (h : AreSegments (s :: ss)) :
    AreSegments ss :=
  fun t ht => h t (List.mem_cons_of_mem s ht)

theorem areSegments_segments (version : List Char) : AreSegments (segments version) := by
  intro s hs husual
  refine isSegment_of_mem hs fun c hc hdecimal => ?_
  by_contra hdigit
  exact husual ⟨c, hc, hdecimal, Bool.eq_false_of_not_eq_true hdigit⟩

/-- Segments that go in a circle are confused. -/
theorem confused_of_compareSegments {x y z : List Char} (hx : AreSegments (x :: ws))
    (hy : AreSegments (y :: vs)) (hz : AreSegments (z :: ms)) (hxy : x ≠ y) (hyz : y ≠ z)
    (h : compareSegments x y = .ok o) (ho : o ≠ .lt) (h' : compareSegments y z = .ok o')
    (ho' : o' ≠ .lt) (hlt : x ≠ z → compareSegments x z = .ok .lt) :
    Confused (x :: ws) (y :: vs) (z :: ms) := by
  by_cases hxz : x = z
  · subst hxz
    have hswap := compareSegments_swap hxy h
    rw [h'] at hswap
    have heq : o = .eq := by
      cases o with
      | lt => exact absurd rfl ho
      | eq => rfl
      | gt => exact absurd (Except.ok.inj hswap) ho'
    subst heq
    refine .equalled hxy (or_iff_not_imp_right.2 fun husual => ?_) h
    have horder := compareSegments_compares (hx.head husual (by simp)) (hy.head husual (by simp))
      hxy h
    exact place_injective horder
  · refine .mixed hxy hyz hxz ?_ (by simpa [h] using ho) (by simpa [h'] using ho')
    by_contra husual
    exact (hx.head husual (by simp)).compareSegments_trans (hy.head husual (by simp))
      (hz.head husual (by simp)) hxy hyz hxz h ho h' ho' (hlt hxz)

/-- The order of versions is transitive but where it breaks down. -/
theorem confused_of_compareLists (hw : AreSegments ws) (hv : AreSegments vs) (hm : AreSegments ms)
    (hwv : compareLists ws vs = .ok o) (ho : o ≠ .lt) (hvm : compareLists vs ms = .ok o')
    (ho' : o' ≠ .lt) (hwm : compareLists ws ms = .ok .lt) : Confused ws vs ms := by
  fun_induction compareLists ws vs generalizing ms with
  | case1 =>
    rw [hwm] at hvm
    exact absurd (Except.ok.inj hvm).symm ho'
  | case2 v vs => exact absurd (Except.ok.inj hwv).symm ho
  | case3 w ws =>
    cases ms with
    | nil => cases hwm
    | cons m ms => exact absurd (Except.ok.inj hvm).symm ho'
  | case4 ws x vs ih =>
    cases ms with
    | nil => cases hwm
    | cons m ms =>
      rw [compareLists] at hvm hwm
      by_cases hxm : x = m
      · subst hxm
        rw [if_pos rfl] at hvm hwm
        exact .there x (ih hw.tail hv.tail hm.tail hwv hvm hwm)
      · -- `vs` and `ms` differ first where `ws` and `ms` do, and in the same segments
        rw [if_neg hxm] at hvm hwm
        rw [hwm] at hvm
        exact absurd (Except.ok.inj hvm).symm ho'
  | case5 w ws v vs hne =>
    cases ms with
    | nil => cases hwm
    | cons m ms =>
      rw [compareLists] at hvm hwm
      by_cases hvm' : v = m
      · subst hvm'
        rw [if_neg hne, hwv] at hwm
        exact absurd (Except.ok.inj hwm) ho
      · rw [if_neg hvm'] at hvm
        refine confused_of_compareSegments hw hv hm hne hvm' hwv ho hvm ho' fun hwm' => ?_
        rwa [if_neg hwm'] at hwm

/-- Where the order breaks down, comparing does not come to what follows. -/
theorem Confused.compareLists_ne (h : Confused ws vs ms) :
    compareLists ws vs ≠ .ok .lt ∧ compareLists vs ms ≠ .ok .lt := by
  induction h with
  | equalled hne hcase h =>
    rw [compareLists, compareLists, if_neg hne, if_neg hne.symm, h, compareSegments_swap hne h]
    simp
  | mixed hxy hyz hxz hdigit h h' =>
    rw [compareLists, compareLists, if_neg hxy, if_neg hyz]
    exact ⟨h, h'⟩
  | there x h ih =>
    rw [compareLists, compareLists, if_pos rfl, if_pos rfl]
    exact ih

end Lists

end ManifestDocs.VersionOrder

namespace ManifestDocs.PlanPolicy

open ManifestDocs.VersionOrder

/-! ## Files that an upgrade blocks -/

variable {w v m pattern file : String} {hit : Bool} {wv vm wm : Ordering}

theorem blocks_eq (hfound : found pattern file = .ok hit) (h : VersionOrder.compare v m = .ok vm) :
    blocks ⟨v, m, pattern⟩ file = .ok (vm == .lt && hit) := by
  rw [blocks, h]
  cases vm with
  | lt => exact hfound
  | eq => rfl
  | gt => rfl

/-- **Which upgrades block a file.** If the pattern is a valid one and the versions can be compared,
a runtime `w` that is not below `v` blocks a file that `v` lets through if and only if the pattern is
found in the file, `w` is below the minimum `m`, and the order of versions breaks down between the
three. All other upgrades leave open what was open. -/
theorem blocked_by_upgrade_iff (hfound : found pattern file = .ok hit)
    (hwv : VersionOrder.compare w v = .ok wv) (hvm : VersionOrder.compare v m = .ok vm)
    (hwm : VersionOrder.compare w m = .ok wm) :
    (wv ≠ .lt ∧ blocks ⟨v, m, pattern⟩ file = .ok false ∧ blocks ⟨w, m, pattern⟩ file = .ok true) ↔
    (wm = .lt ∧ hit = true ∧
      Confused (segments w.toList) (segments v.toList) (segments m.toList)) := by
  rw [blocks_eq hfound hvm, blocks_eq hfound hwm]
  rw [compare_eq_compareLists] at hwv hvm hwm
  simp only [Except.ok.injEq, Bool.and_eq_true, Bool.and_eq_false_iff, beq_iff_eq, beq_eq_false_iff_ne]
  constructor
  · intro ⟨hup, hopen, hbelow, hhit⟩
    have hnot : vm ≠ .lt := by
      rcases hopen with hnot | hmiss
      · exact hnot
      · rw [hmiss] at hhit
        cases hhit
    rw [hbelow] at hwm
    exact ⟨hbelow, hhit, confused_of_compareLists (areSegments_segments _) (areSegments_segments _)
      (areSegments_segments _) hwv hup hvm hnot hwm⟩
  · intro ⟨hbelow, hhit, hconfused⟩
    obtain ⟨hup, hnot⟩ := hconfused.compareLists_ne
    rw [hwv] at hup
    rw [hvm] at hnot
    exact ⟨fun h => hup (congrArg _ h), .inl fun h => hnot (congrArg _ h), hbelow, hhit⟩

theorem found_plan : found defaultPattern "plans/a.pp" = .ok true := by
  have hhit : (found defaultPattern "plans/a.pp").toOption = some true := by decide +kernel
  cases hfound : found defaultPattern "plans/a.pp" with
  | error e =>
    rw [hfound] at hhit
    cases hhit
  | ok hit =>
    rw [hfound] at hhit
    cases hhit
    rfl

/-- An Arabic three goes after a letter and the letter after five, but three before five: the
upgrade from the letter to the three blocks the file. -/
theorem arabicThree_blocked_by_upgrade :
    (found defaultPattern "plans/a.pp" = .ok true ∧ VersionOrder.compare "٣" "a" = .ok .gt ∧
      VersionOrder.compare "a" "5" = .ok .gt ∧ VersionOrder.compare "٣" "5" = .ok .lt) ∧
    blocks ⟨"a", "5", defaultPattern⟩ "plans/a.pp" = .ok false ∧
    blocks ⟨"٣", "5", defaultPattern⟩ "plans/a.pp" = .ok true := by
  have hup : VersionOrder.compare "٣" "a" = .ok .gt := by decide +kernel
  have hover : VersionOrder.compare "a" "5" = .ok .gt := by decide +kernel
  have hbelow : VersionOrder.compare "٣" "5" = .ok .lt := by decide +kernel
  have hconfused : Confused (segments "٣".toList) (segments "a".toList) (segments "5".toList) :=
    .mixed (by decide) (by decide) (by decide) ⟨'٣', by decide, by decide⟩ (by decide +kernel)
      (by decide +kernel)
  exact ⟨⟨found_plan, hup, hover, hbelow⟩,
    ((blocked_by_upgrade_iff found_plan hup hover hbelow).2 ⟨rfl, rfl, hconfused⟩).2⟩

/-- The first release candidate in capitals counts as equal to both of the others, so that the upgrade
from it to the first one blocks the file. -/
theorem equal_version_blocked :
    VersionOrder.compare "5.0.0-rc1" "5.0.0-RC1" = .ok .eq ∧
    VersionOrder.compare "5.0.0-RC1" "5.0.0-rc2" = .ok .eq ∧
    VersionOrder.compare "5.0.0-rc1" "5.0.0-rc2" = .ok .lt ∧
    blocks ⟨"5.0.0-RC1", "5.0.0-rc2", defaultPattern⟩ "plans/a.pp" = .ok false ∧
    blocks ⟨"5.0.0-rc1", "5.0.0-rc2", defaultPattern⟩ "plans/a.pp" = .ok true := by
  have hup : VersionOrder.compare "5.0.0-rc1" "5.0.0-RC1" = .ok .eq := by decide +kernel
  have hequal : VersionOrder.compare "5.0.0-RC1" "5.0.0-rc2" = .ok .eq := by decide +kernel
  have hbelow : VersionOrder.compare "5.0.0-rc1" "5.0.0-rc2" = .ok .lt := by decide +kernel
  exact ⟨hup, hequal, hbelow, blocks_eq found_plan hequal, blocks_eq found_plan hbelow⟩

end ManifestDocs.PlanPolicy
