/-
Texts joined by line breaks. If each of some texts scans alone, then the texts with line breaks
between them scan, and the tokens are those of the texts, each shifted to where its text stands
(`Placed`). Two things have to hold (`Fits`): no text needs its end to close a heredoc, and each
text starts with a token that is told by its first character, or comes after a token that wants an
operand, so that a slash is read as it is alone.
-/
import Mathlib.Algebra.GroupWithZero.Nat
import ManifestDocs.Proofs.Seam

namespace ManifestDocs.Scanner

open ManifestDocs.Piece ManifestDocs.Heredoc

/-- The text scans alone to these tokens. -/
def ScansTo (x : List Char) (ts : List Token) : Prop :=
  ∃ stop, Runs (start x) ⟨ts, stop⟩

theorem ScansTo.unique {x : List Char} {ts us : List Token} (ht : ScansTo x ts)
    (hu : ScansTo x us) : ts = us := by
  obtain ⟨stop, ht⟩ := ht
  obtain ⟨stop', hu⟩ := hu
  have he := (run_eq_ok.2 ht).symm.trans (run_eq_ok.2 hu)
  cases he
  rfl

theorem scansTo_of_scan {text : String} {scan : Scan} (h : Scan.ofText text = .ok scan) :
    ScansTo text.toList scan.tokens :=
  ⟨scan.stop, run_eq_ok.1 h⟩

/-- A text that ends with its last token needs no more to close it. -/
theorem closed_of_last {x : List Char} {ts : List Token} {last : Token}
    (hlast : ts.getLast? = some last) (hstop : last.stop = x.length) : Closed (start x) ts := by
  refine .inl fun _ => ⟨last, hlast, ?_⟩
  rw [hstop]
  exact (Nat.zero_add _).symm

theorem closed_of_comment {x : List Char} {ts : List Token} (h : ScansTo (x ++ commentLine) ts) :
    Closed (start x) ts :=
  .inr h

/-! ## Starting elsewhere -/

/-- The text starts with its first token, and not with a slash. -/
structure StartsPlain (x : List Char) (ts : List Token) : Prop where
  noSlash : x.head? ≠ some '/'
  first : ∃ t more, ts = t :: more ∧ t.start.offset = 0

theorem Reads.offset_ge {s s' : Scanner} {ts : List Token} (h : Reads s ts s') :
    ∀ t ∈ ts, s.cursor.offset ≤ t.start.offset := by
  induction h with
  | refl => simp
  | step hfirst hpass _ ih =>
    obtain ⟨passed, hpasses⟩ := passes_of_step hfirst hpass
    have hoffset := hpasses.offset
    intro t ht
    rcases List.mem_append.1 ht with ht | ht
    · exact (hpasses.stands t (by simpa using ht)).lt.1
    · have hle := ih t ht
      omega

/-- A text that starts with its first token is read alike wherever it stands: what came before only
matters for a slash. -/
theorem Reads.moved_plain {d l : Nat} {s s' u : Scanner} {t : Token} {ts : List Token}
    (h : Reads s (t :: ts) s') (hu : Moved d l s u) (noSlash : s.rest.head? ≠ some '/')
    (first : t.start.offset = s.cursor.offset) :
    ∃ u', Reads u ((t :: ts).map (·.shift d l)) u' ∧ Moved d l s' u' := by
  generalize hall : t :: ts = all at h
  cases h with
  | refl => cases hall
  | @step _ s₁ _ p rest t' ts' hfirst hpass more =>
    obtain ⟨passed, hpasses⟩ := passes_of_step hfirst hpass
    cases t' with
    | none =>
      -- the first piece is passed without a token, and then the token starts after it
      have hts : t :: ts = ts' := hall
      have hle := more.offset_ge t (by simp [← hts])
      have hpos := List.length_pos_iff.2 hpasses.ne_nil
      have hoffset := hpasses.offset
      omega
    | some t' =>
      obtain ⟨rfl, rfl⟩ := List.cons.inj hall
      obtain ⟨u₁, hpass', hu₁, hprevious, hprevious'⟩ := hu.pass hpass
      obtain ⟨u', hreads, hu'⟩ :=
        more.moved hu₁ (wantsOperand_shift hprevious hprevious' fun he => nomatch he)
      have hfirst' : First u.wantsOperand u.rest p rest := by
        obtain ⟨c, cs, hrest⟩ := List.exists_cons_of_ne_nil (ne_nil_of_first hfirst)
        rw [hrest] at hfirst noSlash
        rw [hu.rest, hrest]
        exact hfirst.of_not_slash (by simpa using noSlash) _
      exact ⟨u', .step hfirst' hpass' hreads, hu'⟩

theorem pass_previous {s s' : Scanner} {p : Piece} {rest : List Char} {t : Option Token}
    (h : s.pass rest p = .ok (t, s')) : s'.previous = t.or s.previous := by
  cases p with
  | newline =>
    obtain ⟨cursor, after, -, rfl, rfl⟩ := pass_newline_eq_ok.1 h
    rfl
  | _ =>
    cases h
    rfl

theorem Reads.previous {s s' : Scanner} {ts : List Token} (h : Reads s ts s') :
    s'.previous = ts.getLast?.or s.previous := by
  induction h with
  | refl => rfl
  | @step s s₁ s' p rest t ts _ hpass _ ih =>
    rw [ih, pass_previous hpass, List.getLast?_append]
    cases t with
    | none => simp
    | some t => cases ts.getLast? <;> rfl

/-! ## One text -/

/-- Whether an operand can follow these tokens. -/
def opens (ts : List Token) : Bool :=
  ts.getLast?.any (!·.endsOperand)

/-- What can follow a text: nothing, or a line break and more. -/
def Follows (tail : List Char) : Prop :=
  tail = [] ∨ ∃ more, tail = '\n' :: more

/-- **A text among others** is read as it is alone, and then the scanner stands behind it: at the
end, or at the start of the next line. -/
theorem reads_part {x tail : List Char} {ts : List Token} (h : ScansTo x ts)
    (closed : Closed (start x) ts) (follows : Follows tail) {u : Scanner} {d l : Nat}
    (hrest : u.rest = x ++ tail) (hcursor : u.cursor = Cursor.start.shift d l)
    (hpending : u.pending = []) (hstart : u.wantsOperand = true ∨ StartsPlain x ts) :
    ∃ u', Reads u (ts.map (·.shift d l)) u' ∧ u'.rest = tail.tail ∧ u'.pending = [] ∧
      (tail ≠ [] → ∃ l', u'.cursor = Cursor.start.shift (d + x.length + 1) l') ∧
      (opens ts = true → u'.wantsOperand = true) := by
  obtain ⟨stop, hruns⟩ := h
  -- the text alone, but with `tail` after it
  obtain ⟨s', hreads, hrest', hpending', hcursor'⟩ : ∃ s' : Scanner,
      Reads ⟨x ++ tail, Cursor.start, [], none⟩ ts s' ∧ s'.rest = tail.tail ∧ s'.pending = [] ∧
        (tail ≠ [] → ∃ l', s'.cursor = Cursor.start.shift (x.length + 1) l') := by
    rcases follows with rfl | ⟨more, rfl⟩
    · obtain ⟨s', hreads, hended, hnone⟩ := hruns.reads
      refine ⟨s', ?_, hended, hnone, fun hne => absurd rfl hne⟩
      rw [List.append_nil]
      exact hreads
    · obtain ⟨s', hreads, hmore, hnone, hline⟩ := hruns.reads_newline closed more
      refine ⟨s', hreads, hmore, hnone, fun _ => ⟨stop.line, ?_⟩⟩
      rw [hline]
      simp [start, Cursor.start]
  have hmoved : Moved d l ⟨x ++ tail, Cursor.start, [], none⟩ u := ⟨hrest, hcursor, hpending⟩
  obtain ⟨u', hreads', hu'⟩ : ∃ u', Reads u (ts.map (·.shift d l)) u' ∧ Moved d l s' u' := by
    rcases hstart with hoperand | ⟨noSlash, t, more, rfl, hfirst⟩
    · exact hreads.moved hmoved hoperand
    · cases x with
      | nil => cases hruns.eq_of_nil rfl
      | cons c cs => exact hreads.moved_plain hmoved noSlash hfirst
  refine ⟨u', hreads', hu'.rest.trans hrest', by rw [hu'.pending, hpending']; rfl, fun hne => ?_,
    fun hopens => ?_⟩
  · obtain ⟨l', hline⟩ := hcursor' hne
    refine ⟨l' + l, ?_⟩
    rw [hu'.cursor, hline]
    simp only [Cursor.shift, Cursor.mk.injEq]
    omega
  · rw [wantsOperand, hreads'.previous, List.getLast?_map]
    cases hlast : ts.getLast? with
    | none => simp [opens, hlast] at hopens
    | some t => simpa [opens, hlast] using hopens

/-! ## All texts -/

/-- The texts with line breaks between them. -/
def joined (xs : List (List Char)) : List Char :=
  ['\n'].intercalate xs

/-- What follows a text if the texts `xs` come after it. -/
def remainder : List (List Char) → List Char
  | [] => []
  | x :: xs => '\n' :: joined (x :: xs)

theorem joined_cons (x : List Char) (xs : List (List Char)) :
    joined (x :: xs) = x ++ remainder xs := by
  cases xs with
  | nil => simp [joined, remainder]
  | cons y ys => simp [joined, remainder]

theorem follows_remainder (xs : List (List Char)) : Follows (remainder xs) := by
  cases xs with
  | nil => exact .inl rfl
  | cons x xs => exact .inr ⟨_, rfl⟩

theorem tail_remainder (xs : List (List Char)) : (remainder xs).tail = joined xs := by
  cases xs <;> rfl

/-- `Fits op xs`: the texts scan one after the other, where an operand is wanted first if `op`. -/
inductive Fits : Bool → List (List Char) → Prop
  | nil {op : Bool} : Fits op []
  | cons {op : Bool} {x : List Char} {xs : List (List Char)} {ts : List Token} (h : ScansTo x ts)
      (closed : Closed (start x) ts) (starts : op = true ∨ StartsPlain x ts)
      (more : Fits (opens ts) xs) : Fits op (x :: xs)

theorem Fits.weaken {op : Bool} {xs : List (List Char)} (h : Fits false xs) : Fits op xs := by
  cases h with
  | nil => exact .nil
  | cons h closed starts more =>
    exact .cons h closed (.inr (starts.resolve_left (by simp))) more

theorem Fits.append {op : Bool} {xs ys : List (List Char)} (hx : Fits op xs) (hy : Fits false ys) :
    Fits op (xs ++ ys) := by
  induction hx with
  | nil => exact hy.weaken
  | cons h closed starts _ ih => exact .cons h closed starts ih

theorem Fits.join {op : Bool} {xs ys : List String} (hx : Fits op (xs.map String.toList))
    (hy : Fits false (ys.map String.toList)) : Fits op ((xs ++ ys).map String.toList) := by
  rw [List.map_append]
  exact hx.append hy

/-- `Placed whole d xs ts`: the texts `xs`, joined, stand in `whole` from offset `d` on, and `ts` are
their tokens, each shifted to where its text stands. -/
inductive Placed (whole : List Char) : Nat → List (List Char) → List Token → Prop
  | nil {d : Nat} : Placed whole d [] []
  | cons {d l : Nat} {x after : List Char} {xs : List (List Char)} {base ts : List Token}
      (stands : whole.drop d = joined (x :: xs) ++ after) (scans : ScansTo x base)
      (more : Placed whole (d + x.length + 1) xs ts) :
      Placed whole d (x :: xs) (base.map (·.shift d l) ++ ts)

/-- **Texts joined by line breaks** scan to their tokens. -/
theorem Fits.runs {op : Bool} {xs : List (List Char)} (h : Fits op xs) {whole : List Char}
    {u : Scanner} {d : Nat} (hrest : u.rest = joined xs) (hpending : u.pending = [])
    (hcursor : xs ≠ [] → ∃ l, u.cursor = Cursor.start.shift d l) (hwhole : whole.drop d = joined xs)
    (operand : op = true → u.wantsOperand = true) :
    ∃ scan, Runs u scan ∧ Placed whole d xs scan.tokens := by
  induction h generalizing u d with
  | nil => exact ⟨_, .stop hrest hpending, .nil⟩
  | @cons op x xs ts h closed starts _ ih =>
    obtain ⟨l, hline⟩ := hcursor (List.cons_ne_nil _ _)
    rw [joined_cons] at hrest
    obtain ⟨u', hreads, hrest', hpending', hcursor', hopens⟩ := reads_part h closed
      (follows_remainder xs) hrest hline hpending (starts.imp_left operand)
    have hnext : whole.drop (d + x.length + 1) = joined xs := by
      rw [Nat.add_assoc, ← List.drop_drop, hwhole, joined_cons, ← tail_remainder, ← List.drop_drop,
        List.drop_left, List.drop_one]
    have hfurther : xs ≠ [] → ∃ l, u'.cursor = Cursor.start.shift (d + x.length + 1) l := by
      intro hne
      refine hcursor' fun hnil => hne ?_
      cases xs with
      | nil => rfl
      | cons y ys => cases hnil
    obtain ⟨scan, hruns, hplaced⟩ :=
      ih (hrest'.trans (tail_remainder xs)) hpending' hfurther hnext hopens
    have hstands : whole.drop d = joined (x :: xs) ++ [] := by rw [hwhole, List.append_nil]
    exact ⟨_, hreads.runs hruns, .cons hstands h hplaced⟩

/-- How far a number of joined texts reach, with a character after each. -/
def extent (xs : List (List Char)) : Nat :=
  (xs.map (·.length + 1)).sum

@[simp] theorem extent_nil : extent [] = 0 := rfl

@[simp] theorem extent_cons (x : List Char) (xs : List (List Char)) :
    extent (x :: xs) = x.length + 1 + extent xs := by
  simp [extent]

theorem extent_append (xs ys : List (List Char)) : extent (xs ++ ys) = extent xs + extent ys := by
  simp [extent]

theorem length_joined {xs : List (List Char)} (h : xs ≠ []) :
    (joined xs).length + 1 = extent xs := by
  induction xs with
  | nil => exact absurd rfl h
  | cons x xs ih =>
    rw [joined_cons, List.length_append, extent_cons]
    cases xs with
    | nil => simp [remainder]
    | cons y ys =>
      have hmore := ih (List.cons_ne_nil _ _)
      simp only [remainder, List.length_cons]
      omega

theorem joined_append {xs : List (List Char)} (h : xs ≠ []) (ys : List (List Char)) :
    joined (xs ++ ys) = joined xs ++ remainder ys := by
  induction xs with
  | nil => exact absurd rfl h
  | cons x xs ih =>
    rw [List.cons_append, joined_cons, joined_cons, List.append_assoc]
    cases xs with
    | nil => rfl
    | cons z zs =>
      have hmore := ih (List.cons_ne_nil _ _)
      simp only [List.cons_append] at hmore ⊢
      simp only [remainder, hmore, List.cons_append]

theorem Placed.stands {whole : List Char} {d : Nat} {xs : List (List Char)} {ts : List Token}
    (h : Placed whole d xs ts) (hne : xs ≠ []) :
    ∃ after, whole.drop d = joined xs ++ after := by
  cases h with
  | nil => exact absurd rfl hne
  | cons stands _ _ => exact ⟨_, stands⟩

/-- Texts side by side have their tokens side by side. -/
theorem Placed.append {whole : List Char} {d : Nat} {xs ys : List (List Char)} {ts : List Token}
    (h : Placed whole d (xs ++ ys) ts) :
    ∃ us vs, ts = us ++ vs ∧ Placed whole d xs us ∧ Placed whole (d + extent xs) ys vs := by
  induction xs generalizing d ts with
  | nil => exact ⟨[], ts, rfl, .nil, h⟩
  | cons x xs ih =>
    cases h with
    | @cons _ l _ after _ base ts stands scans more =>
      obtain ⟨us, vs, rfl, hus, hvs⟩ := ih more
      have hstands : whole.drop d = joined (x :: xs) ++ (remainder ys ++ after) := by
        rw [← List.append_assoc, ← joined_append (List.cons_ne_nil _ _)]
        exact stands
      refine ⟨base.map (·.shift d l) ++ us, vs, by rw [List.append_assoc], ?_, ?_⟩
      · exact .cons hstands scans hus
      · rw [extent_cons, ← Nat.add_assoc, ← Nat.add_assoc]
        exact hvs

theorem Fits.scan {xs : List (List Char)} (h : Fits true xs) {text : String}
    (htext : text.toList = joined xs) :
    ∃ scan, Scan.ofText text = .ok scan ∧ Placed text.toList 0 xs scan.tokens := by
  have hcursor : xs ≠ [] → ∃ l, (start text.toList).cursor = Cursor.start.shift 0 l := by
    intro _
    exact ⟨0, rfl⟩
  obtain ⟨scan, hruns, hplaced⟩ := h.runs (u := start text.toList) htext rfl hcursor htext fun _ => rfl
  exact ⟨scan, run_eq_ok.2 hruns, hplaced⟩

end ManifestDocs.Scanner
