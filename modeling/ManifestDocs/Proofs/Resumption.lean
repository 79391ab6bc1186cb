/-
Scanning goes on after a line break. Behind a text and a line break a scanner does what it would do
at the start of the text that follows: its tokens are the same, further on, and if that text does
not scan it is rejected for the same cause in the same column, so many lines further on.
-/
import ManifestDocs.Proofs.Joining

namespace ManifestDocs

/-- A scan `d` characters and `l` lines further on. -/
def Scan.shift (d l : Nat) (scan : Scan) : Scan :=
  ⟨scan.tokens.map (·.shift d l),
    ⟨scan.stop.offset + d, scan.stop.line + l, scan.stop.column⟩⟩

namespace Scanner

open ManifestDocs.Piece

variable {d l : Nat} {s s' u : Scanner}

/-! ## The same text elsewhere, also where it does not scan -/

theorem Moved.finish (h : Moved d l s u) :
    u.finish = (s.finish.map (Scan.shift d l)).mapError (SyntaxError.shift l) := by
  rw [Scanner.finish, Scanner.finish, h.pending]
  cases s.pending with
  | cons p ps => rfl
  | nil =>
    have hplace : u.cursor.place = ⟨s.cursor.place.offset + d, s.cursor.place.line + l,
        s.cursor.place.column⟩ := by
      simp only [Cursor.place, h.cursor, Cursor.shift_column]
      rfl
    rw [List.map_nil, hplace]
    rfl

theorem Moved.pass_error {p : Piece} {rest : List Char} {e : SyntaxError} (h : Moved d l s u)
    (hpass : s.pass rest p = .error e) : u.pass rest p = .error (e.shift l) := by
  cases p with
  | newline =>
    have hshifted := passBodies_shift true (s.cursor.next '\n') rest s.pending d l
    rw [← Cursor.shift_next, ← h.cursor, ← h.pending] at hshifted
    rw [Scanner.pass] at hpass ⊢
    rw [hshifted]
    cases hbodies : passBodies true (s.cursor.next '\n') rest s.pending with
    | error e' =>
      rw [hbodies] at hpass
      cases hpass
      rfl
    | ok r =>
      rw [hbodies] at hpass
      cases hpass
  | _ => cases hpass

theorem Moved.step_error {c : Char} {cs : List Char} {e : SyntaxError} (h : Moved d l s u)
    (operand : u.wantsOperand = s.wantsOperand) (hstep : s.step c cs = .error e) :
    u.step c cs = .error (e.shift l) := by
  rw [Scanner.step] at hstep ⊢
  rw [operand]
  cases hfirst : first s.wantsOperand c cs with
  | error cause =>
    rw [hfirst] at hstep
    cases hstep
    rw [h.cursor, Cursor.shift_column]
    rfl
  | ok r =>
    rw [hfirst] at hstep
    exact h.pass_error hstep

theorem Moved.step {c : Char} {cs : List Char} {t : Option Token} (h : Moved d l s u)
    (operand : u.wantsOperand = s.wantsOperand) (hstep : s.step c cs = .ok (t, s')) :
    ∃ u', u.step c cs = .ok (t.map (·.shift d l), u') ∧ Moved d l s' u' ∧
      u'.wantsOperand = s'.wantsOperand := by
  obtain ⟨p, rest, hfirst, hpass⟩ := step_eq_ok.1 hstep
  obtain ⟨u', hpass', hu', hprevious, hprevious'⟩ := h.pass hpass
  rw [← operand] at hfirst
  exact ⟨u', step_eq_ok.2 ⟨p, rest, hfirst, hpass'⟩, hu',
    wantsOperand_shift hprevious hprevious' fun _ => operand⟩

/-- **The same text elsewhere** scans to the same, further on. -/
theorem Moved.run (h : Moved d l s u) (operand : u.wantsOperand = s.wantsOperand) :
    u.run = (s.run.map (Scan.shift d l)).mapError (SyntaxError.shift l) := by
  fun_induction Scanner.run s generalizing u with
  | case1 s hrest => rw [run_of_nil (h.rest.trans hrest), h.finish]
  | case2 s c cs hrest e hstep =>
    exact run_of_error (h.rest.trans hrest) (h.step_error operand hstep)
  | case3 s c cs hrest t s' hstep e hmore ih =>
    obtain ⟨u', hstep', hu', operand'⟩ := h.step operand hstep
    rw [run_step (h.rest.trans hrest) hstep', ih hu' operand', hmore]
    rfl
  | case4 s c cs hrest t s' hstep scan hmore ih =>
    obtain ⟨u', hstep', hu', operand'⟩ := h.step operand hstep
    rw [run_step (h.rest.trans hrest) hstep', ih hu' operand', hmore]
    cases t <;> rfl

theorem Reads.run {ts : List Token} (h : Reads s ts s') :
    s.run = s'.run.map fun scan => { scan with tokens := ts ++ scan.tokens } := by
  induction h with
  | @refl s => cases s.run <;> rfl
  | @step s s₁ s' p rest t ts hfirst hpass _ ih =>
    obtain ⟨c, cs, hrest⟩ := List.exists_cons_of_ne_nil (ne_nil_of_first hfirst)
    rw [run_step hrest (step_eq_ok.2 ⟨p, rest, hrest ▸ hfirst, hpass⟩), ih]
    cases s'.run with
    | error e => rfl
    | ok scan => simp [Except.map]

/-! ## After a line break -/

/-- An empty comment makes no token. -/
theorem Runs.tokens_of_sign {scan : Scan} (h : Runs s scan) (hrest : s.rest = ['#']) :
    scan.tokens = [] := by
  have hfirst : First s.wantsOperand s.rest (.comment ['#']) [] := by
    rw [hrest]
    exact .lineComment
  obtain ⟨t, s', scan', hpass, hruns, htokens⟩ := h.of_first hfirst
  cases hpass
  rw [htokens, hruns.eq_of_nil rfl]
  rfl

/-- If a comment on the next line leaves a text one that scans, its tokens are those of the text. -/
theorem Runs.tokens_comment {scan scan' : Scan} (h : Runs s scan)
    (h' : Runs { s with rest := s.rest ++ commentLine } scan') : scan'.tokens = scan.tokens := by
  induction h generalizing scan' with
  | @stop s ended noPending =>
    have hfirst : First s.wantsOperand (s.rest ++ commentLine) .newline ['#'] := by
      rw [ended]
      exact .newline
    obtain ⟨t, s', scan₁, hpass, hruns, htokens⟩ := h'.of_first hfirst
    obtain ⟨cursor, after, hbodies, rfl, rfl⟩ := pass_newline_eq_ok.1 hpass
    rw [noPending] at hbodies
    cases hbodies
    rw [htokens, hruns.tokens_of_sign rfl]
    rfl
  | @step s s₁ p rest t scan hfirst hpass hruns ih =>
    obtain ⟨t', s₁', scan₁, hpass', hruns', htokens⟩ := h'.of_first (hfirst.newline_after ['#'])
    rw [htokens]
    by_cases hp : p = .newline
    · subst hp
      obtain ⟨cursor, after, hbodies, rfl, rfl⟩ := pass_newline_eq_ok.1 hpass
      obtain ⟨cursor', after', hbodies', rfl, rfl⟩ := pass_newline_eq_ok.1 hpass'
      rcases passBodies_newline hbodies fun _ => ⟨_, hbodies'⟩ with hfound | ⟨hafter, hfound⟩
      · have he := hbodies'.symm.trans (hfound ['#'])
        cases he
        exact ih hruns'
      · have he := hbodies'.symm.trans (hfound ['#'])
        cases he
        rw [hruns.eq_of_nil hafter, hruns'.tokens_of_sign rfl]
    · have he := hpass'.symm.trans (pass_append hp hpass commentLine)
      cases he
      rw [ih hruns']

/-- Behind a text that does not need its end to close heredocs, and a line break, a scanner is the
one at the start of what follows, elsewhere. All it keeps of the text is its last token. -/
theorem run_behind {x : List Char} {scan : Scan} (h : Runs (start x) scan)
    (closed : Closed (start x) scan.tokens) (y : List Char) :
    ∃ s', Moved (x.length + 1) scan.stop.line (start y) s' ∧ s'.previous = scan.tokens.getLast? ∧
      (start (x ++ '\n' :: y)).run =
        s'.run.map fun more => { more with tokens := scan.tokens ++ more.tokens } := by
  obtain ⟨s', hreads, hrest, hpending, hcursor⟩ := h.reads_newline closed y
  refine ⟨s', ⟨hrest, ?_, hpending⟩, hreads.previous.trans Option.or_none, hreads.run⟩
  rw [hcursor]
  simp [start, Cursor.start]

/-- **A text on the next line.** Behind a text that does not need its end to close heredocs, and
after which an operand can stand, scanning goes on as at a start. -/
theorem run_newline {x y : List Char} {scan : Scan} (h : Runs (start x) scan)
    (closed : Closed (start x) scan.tokens) (operand : scan.tokens.getLast?.all (!·.endsOperand)) :
    (start (x ++ '\n' :: y)).run =
      (((start y).run.map (Scan.shift (x.length + 1) scan.stop.line)).map fun more =>
        { more with tokens := scan.tokens ++ more.tokens }).mapError
          (SyntaxError.shift scan.stop.line) := by
  obtain ⟨s', hmoved, hprevious, hrun⟩ := run_behind h closed y
  have hoperand : s'.wantsOperand = (start y).wantsOperand := by
    rw [wantsOperand, hprevious]
    exact operand
  rw [hrun, hmoved.run hoperand]
  cases (start y).run <;> rfl

end Scanner

end ManifestDocs
