/-
Where the tokens of a scan stand. A cursor is right about its line and column as long as it has seen
every line break before it; the only line breaks it does not see are those inside heredoc headers.
So the place of a token is exact if and only if no header before it has a line break in it, and its
line is short by just the line breaks that were not seen.
-/
import Mathlib.Algebra.GroupWithZero.Nat
import Mathlib.Data.List.DropRight
import ManifestDocs.Proofs.Runs

namespace ManifestDocs.Scanner

/-- The exact place of an offset in a text: its line is one more than the line breaks before it, and
its column is counted from the last of them. -/
def placeAt (text : List Char) (offset : Nat) : Place :=
  ⟨offset, 1 + (text.take offset).count '\n',
    offset - ((text.take offset).rdropWhile (· != '\n')).length + 1⟩

/-- The line breaks that are passed unseen: those inside the headers among `ts`. -/
def unseenBreaks (ts : List Token) : Nat :=
  ((ts.filter (·.kind == .heredoc)).map (·.value.toList.count '\n')).sum

@[simp] theorem unseenBreaks_nil : unseenBreaks [] = 0 := rfl

theorem unseenBreaks_append (ts us : List Token) :
    unseenBreaks (ts ++ us) = unseenBreaks ts + unseenBreaks us := by
  simp [unseenBreaks]

theorem unseenBreaks_header {t : Token} (h : t.kind = .heredoc) (ts : List Token) :
    unseenBreaks (t :: ts) = t.value.toList.count '\n' + unseenBreaks ts := by
  simp [unseenBreaks, h]

theorem unseenBreaks_other {t : Token} (h : t.kind ≠ .heredoc) (ts : List Token) :
    unseenBreaks (t :: ts) = unseenBreaks ts := by
  simp [unseenBreaks, h]

theorem unseenBreaks_eq_zero_iff {ts : List Token} :
    unseenBreaks ts = 0 ↔ ∀ t ∈ ts, t.kind = .heredoc → '\n' ∉ t.value.toList := by
  induction ts with
  | nil => simp
  | cons t ts ih =>
    rw [List.forall_mem_cons, ← ih]
    by_cases hkind : t.kind = .heredoc
    · rw [unseenBreaks_header hkind, Nat.add_eq_zero_iff, List.count_eq_zero]
      exact and_congr_left fun _ => ⟨fun hnone _ => hnone, fun hnone => hnone hkind⟩
    · rw [unseenBreaks_other hkind]
      exact ⟨fun hzero => ⟨fun he => absurd he hkind, hzero⟩, fun hboth => hboth.2⟩

/-! ## Cursors -/

/-- The cursor `c` stands after the text `passed`, and `unseen` line breaks of it were not seen. -/
structure Tracks (passed : List Char) (unseen : Nat) (c : Cursor) : Prop where
  offset : c.offset = passed.length
  line : c.line + unseen = 1 + passed.count '\n'
  lineStart : unseen = 0 → c.lineStart = (passed.rdropWhile (· != '\n')).length

theorem tracks_start : Tracks [] 0 Cursor.start :=
  ⟨rfl, rfl, fun _ => rfl⟩

theorem Tracks.next {passed : List Char} {unseen : Nat} {c : Cursor} (h : Tracks passed unseen c)
    (x : Char) : Tracks (passed ++ [x]) unseen (c.next x) := by
  obtain ⟨hoffset, hline, hstart⟩ := h
  by_cases hx : x = '\n'
  · subst hx
    refine ⟨by simp [hoffset], ?_, fun _ => ?_⟩
    · simp [Cursor.next]
      omega
    · simp [Cursor.next, hoffset]
  · refine ⟨by simp [hoffset], ?_, fun hunseen => ?_⟩
    · simp [Cursor.next, hx]
      omega
    · simp [Cursor.next, hx, hstart hunseen]

theorem Tracks.past {passed : List Char} {unseen : Nat} {c : Cursor} (h : Tracks passed unseen c)
    (xs : List Char) : Tracks (passed ++ xs) unseen (c.past xs) := by
  induction xs generalizing passed c with
  | nil => rwa [List.append_nil]
  | cons x xs ih =>
    have hmore := ih (h.next x)
    rwa [List.append_assoc, List.singleton_append] at hmore

theorem past_lineStart_of_not_mem (c : Cursor) {xs : List Char} (h : '\n' ∉ xs) :
    (c.past xs).lineStart = c.lineStart := by
  induction xs generalizing c with
  | nil => rfl
  | cons x xs ih =>
    rw [List.mem_cons, not_or] at h
    rw [Cursor.past_cons, ih (c.next x) h.2, Cursor.next, if_neg (Ne.symm h.1)]

/-- Characters that are passed as if on one line add their line breaks to the unseen ones. -/
theorem Tracks.skip {passed : List Char} {unseen : Nat} {c : Cursor} (h : Tracks passed unseen c)
    (xs : List Char) :
    Tracks (passed ++ xs) (unseen + xs.count '\n') (c.skip xs.length) := by
  have hpast := h.past xs
  refine ⟨by simp [Cursor.skip, h.offset], ?_, fun hunseen => ?_⟩
  · have hline := h.line
    rw [List.count_append, Cursor.skip]
    show c.line + _ = _
    omega
  · -- nothing was missed, so that counting the characters would have given the same line start
    have hnone : '\n' ∉ xs := List.count_eq_zero.1 (by omega)
    exact (past_lineStart_of_not_mem c hnone).symm.trans (hpast.lineStart (by omega))

/-- A cursor is at the exact place if and only if it has seen every line break. -/
theorem Tracks.place_eq_iff {passed : List Char} {unseen : Nat} {c : Cursor}
    (h : Tracks passed unseen c) (rest : List Char) :
    c.place = placeAt (passed ++ rest) c.offset ↔ unseen = 0 := by
  obtain ⟨hoffset, hline, hstart⟩ := h
  have htake : (passed ++ rest).take c.offset = passed := by rw [hoffset, List.take_left]
  rw [placeAt, htake, Cursor.place, Place.mk.injEq]
  constructor
  · intro he
    omega
  · intro hunseen
    refine ⟨rfl, by omega, ?_⟩
    rw [Cursor.column, hstart hunseen]

/-! ## Runs -/

/-- The place `p` of the text is the one of a cursor that has not seen `unseen` line breaks. -/
def Tracked (text : List Char) (unseen : Nat) (p : Place) : Prop :=
  ∃ passed rest c, text = passed ++ rest ∧ Tracks passed unseen c ∧ p = c.place

theorem Tracked.eq_placeAt_iff {text : List Char} {unseen : Nat} {p : Place}
    (h : Tracked text unseen p) : p = placeAt text p.offset ↔ unseen = 0 := by
  obtain ⟨passed, rest, c, rfl, hc, rfl⟩ := h
  exact hc.place_eq_iff rest

theorem Tracked.line_add {text : List Char} {unseen : Nat} {p : Place}
    (h : Tracked text unseen p) : p.line + unseen = (placeAt text p.offset).line := by
  obtain ⟨passed, rest, c, rfl, hc, rfl⟩ := h
  have htake : (passed ++ rest).take c.place.offset = passed := by
    show (passed ++ rest).take c.offset = passed
    rw [hc.offset, List.take_left]
  rw [placeAt, htake]
  exact hc.line

/-- One step: the cursor tracks the text again, and a header adds its line breaks to those unseen. -/
theorem Passes.tracks {s s' : Scanner} {passed before : List Char} {t : Option Token}
    {unseen : Nat} (h : Passes s passed t s') (hs : Tracks before unseen s.cursor) :
    Tracks (before ++ passed) (unseen + unseenBreaks t.toList) s'.cursor := by
  cases t with
  | none =>
    rw [h.counted (by simp)]
    exact hs.past passed
  | some t =>
    by_cases hkind : t.kind = .heredoc
    · have hvalue : t.value.toList = passed := by
        rw [h.token t rfl]
        simp [Scanner.token]
      rw [h.skipped t rfl hkind, Option.toList_some, unseenBreaks_header hkind, hvalue,
        unseenBreaks_nil, Nat.add_zero]
      exact hs.skip passed
    · rw [h.counted (by simpa using hkind), Option.toList_some, unseenBreaks_other hkind,
        unseenBreaks_nil, Nat.add_zero]
      exact hs.past passed

/-- A whole run: each token is tracked with the line breaks of the headers before it unseen. -/
theorem Runs.tracked {s : Scanner} {scan : Scan} (h : Runs s scan) {passed : List Char}
    {unseen : Nat} (hs : Tracks passed unseen s.cursor) :
    (∀ before t after, scan.tokens = before ++ t :: after →
      Tracked (passed ++ s.rest) (unseen + unseenBreaks before) t.start) ∧
    Tracked (passed ++ s.rest) (unseen + unseenBreaks scan.tokens) scan.stop := by
  induction h generalizing passed unseen with
  | @stop s ended _ =>
    refine ⟨by simp, passed, s.rest, s.cursor, rfl, ?_, rfl⟩
    simpa using hs
  | @step s s' p rest t scan hfirst hpass more ih =>
    obtain ⟨xs, hpasses⟩ := passes_of_step hfirst hpass
    have hwhole : passed ++ s.rest = passed ++ xs ++ s'.rest := by
      rw [hpasses.rest, List.append_assoc]
    obtain ⟨htokens, hstop⟩ := ih (hpasses.tracks hs)
    rw [← hwhole] at htokens hstop
    refine ⟨fun before u after he => ?_, ?_⟩
    · cases t with
      | none => simpa using htokens before u after he
      | some t =>
        cases before with
        | nil =>
          -- the token of this step, which starts where the scanner stands
          cases he
          refine ⟨passed, s.rest, s.cursor, rfl, hs, ?_⟩
          rw [hpasses.token u rfl]
          rfl
        | cons t' before =>
          obtain ⟨rfl, hmore⟩ := List.cons.inj he
          have htracked := htokens before u after hmore
          rwa [Nat.add_assoc, ← unseenBreaks_append] at htracked
    · rwa [Nat.add_assoc, ← unseenBreaks_append] at hstop

/-! ## The places of a scan -/

/-- **Which places are exact.** In every text that scans, the place of a token is exact if and only
if no heredoc header before it has a line break in it, and the same holds of the end of the text;
the line is always short by the line breaks in those headers. -/
theorem place_exact_iff {text : String} {scan : Scan} (h : Scan.ofText text = .ok scan) :
    (∀ before t after, scan.tokens = before ++ t :: after →
      (t.start = placeAt text.toList t.start.offset ↔
        ∀ u ∈ before, u.kind = .heredoc → '\n' ∉ u.value.toList) ∧
      t.start.line + unseenBreaks before = (placeAt text.toList t.start.offset).line) ∧
    scan.stop.offset = text.toList.length ∧
    (scan.stop = placeAt text.toList scan.stop.offset ↔
      ∀ u ∈ scan.tokens, u.kind = .heredoc → '\n' ∉ u.value.toList) ∧
    scan.stop.line + unseenBreaks scan.tokens = (placeAt text.toList scan.stop.offset).line := by
  have hruns : Runs (start text.toList) scan := run_eq_ok.1 h
  obtain ⟨htokens, hstop⟩ := hruns.tracked tracks_start
  simp only [List.nil_append, Nat.zero_add] at htokens hstop
  simp only [← unseenBreaks_eq_zero_iff]
  refine ⟨fun before t after he => ?_, ?_, hstop.eq_placeAt_iff, hstop.line_add⟩
  · have htracked := htokens before t after he
    exact ⟨htracked.eq_placeAt_iff, htracked.line_add⟩
  · simpa [start, Cursor.start] using hruns.stop_offset

/-- A heredoc with a line break in its header, and a name after it. -/
def brokenHeader : String := "@(\nX)\nX\na"

theorem scan_brokenHeader : Scan.ofText brokenHeader =
    .ok ⟨[⟨.heredoc, "@(\nX)", ⟨0, 1, 1⟩, 5⟩, ⟨.name, "a", ⟨8, 3, 1⟩, 9⟩], ⟨9, 3, 2⟩⟩ := by
  have hbody : Heredoc.body ['X'] ['X', '\n', 'a'] = some (['X', '\n'], ['a']) := by
    rw [Heredoc.body]
    rfl
  -- the three states after the first: behind the header, behind the body, and at the end
  let header : Token := ⟨.heredoc, "@(\nX)", ⟨0, 1, 1⟩, 5⟩
  let behindHeader : Scanner :=
    ⟨['\n', 'X', '\n', 'a'], ⟨5, 1, 0⟩, [⟨['X'], 1, 1⟩], some header⟩
  let behindBody : Scanner := ⟨['a'], ⟨8, 3, 8⟩, [], some header⟩
  have hheader : (start brokenHeader.toList).step '@' ['(', '\n', 'X', ')', '\n', 'X', '\n', 'a'] =
      .ok (some header, behindHeader) := by rfl
  have hbodies : behindHeader.step '\n' ['X', '\n', 'a'] = .ok (none, behindBody) := by
    simp only [step, Piece.first, pass, passBodies, behindHeader, if_true, hbody]
    rfl
  have hend : behindBody.run = .ok ⟨[⟨.name, "a", ⟨8, 3, 1⟩, 9⟩], ⟨9, 3, 2⟩⟩ := by
    decide +kernel
  exact run_of_step rfl hheader (run_of_step rfl hbodies hend)

/-- The end of this text is placed one line too early. -/
theorem stop_short_after_brokenHeader :
    ∃ scan, Scan.ofText brokenHeader = .ok scan ∧
      scan.stop.line + 1 = (placeAt brokenHeader.toList scan.stop.offset).line ∧
      scan.stop ≠ placeAt brokenHeader.toList scan.stop.offset := by
  obtain ⟨-, -, hexact, hline⟩ := place_exact_iff scan_brokenHeader
  refine ⟨_, scan_brokenHeader, hline, fun he => ?_⟩
  exact absurd (hexact.1 he _ (List.mem_cons_self ..) rfl) (by decide)

/-- Not every place is exact: the name after the header stands on line four. -/
theorem place_not_exact_after_brokenHeader :
    ∃ scan, Scan.ofText brokenHeader = .ok scan ∧
      ∃ t ∈ scan.tokens, t.start ≠ placeAt brokenHeader.toList t.start.offset := by
  refine ⟨_, scan_brokenHeader, ⟨.name, "a", ⟨8, 3, 1⟩, 9⟩, by simp, ?_⟩
  decide

end ManifestDocs.Scanner
