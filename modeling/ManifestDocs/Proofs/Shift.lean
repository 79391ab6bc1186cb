/-
The same text elsewhere. A scanner that stands further on in a text, at the start of a line, and has
the same characters before it takes the same steps: only the offsets and lines of its tokens move.
`Reads` is a stretch of a run, from one state to another, so that stretches can be put together.
-/
import ManifestDocs.Proofs.Runs

namespace ManifestDocs

/-- A token `d` characters and `l` lines further on, in the same column. -/
def Token.shift (d l : Nat) (t : Token) : Token :=
  ⟨t.kind, t.value, ⟨t.start.offset + d, t.start.line + l, t.start.column⟩, t.stop + d⟩

section Token

variable (d l : Nat) (t : Token)

@[simp] theorem Token.shift_kind : (t.shift d l).kind = t.kind := rfl

@[simp] theorem Token.shift_value : (t.shift d l).value = t.value := rfl

@[simp] theorem Token.shift_offset : (t.shift d l).start.offset = t.start.offset + d := rfl

@[simp] theorem Token.shift_stop : (t.shift d l).stop = t.stop + d := rfl

@[simp] theorem Token.shift_endsOperand : (t.shift d l).endsOperand = t.endsOperand := rfl

end Token

namespace Cursor

/-- A cursor `d` characters and `l` lines further on, in the same column. -/
def shift (d l : Nat) (c : Cursor) : Cursor :=
  ⟨c.offset + d, c.line + l, c.lineStart + d⟩

theorem shift_next (d l : Nat) (c : Cursor) (x : Char) :
    (c.shift d l).next x = (c.next x).shift d l := by
  by_cases hx : x = '\n'
  · simp [next, shift, hx]
    omega
  · simp [next, shift, hx]
    omega

theorem shift_past (d l : Nat) (c : Cursor) (xs : List Char) :
    (c.shift d l).past xs = (c.past xs).shift d l := by
  induction xs generalizing c with
  | nil => rfl
  | cons x xs ih => rw [past_cons, past_cons, shift_next, ih]

theorem shift_skip (d l n : Nat) (c : Cursor) :
    (c.shift d l).skip n = (c.skip n).shift d l := by
  simp [skip, shift]
  omega

theorem shift_column (d l : Nat) (c : Cursor) : (c.shift d l).column = c.column := by
  simp only [column, shift]
  omega

end Cursor

/-- A pending heredoc `l` lines further on. -/
def Heredoc.Pending.shift (l : Nat) (p : Heredoc.Pending) : Heredoc.Pending :=
  ⟨p.tag, p.line + l, p.column⟩

/-- An error `l` lines further on, in the same column. -/
def SyntaxError.shift (l : Nat) (e : SyntaxError) : SyntaxError :=
  ⟨e.cause, e.line + l, e.column⟩

namespace Scanner

open ManifestDocs.Piece

/-! ## Stretches of a run -/

/-- `Reads s ts s'`: from state `s` a scanner comes to state `s'`, and makes the tokens `ts`. -/
inductive Reads : Scanner → List Token → Scanner → Prop
  | refl {s : Scanner} : Reads s [] s
  | step {s s' s'' : Scanner} {p : Piece} {rest : List Char} {t : Option Token} {ts : List Token}
      (hfirst : First s.wantsOperand s.rest p rest) (hpass : s.pass rest p = .ok (t, s'))
      (more : Reads s' ts s'') : Reads s (t.toList ++ ts) s''

theorem Reads.trans {s s' s'' : Scanner} {ts us : List Token} (h : Reads s ts s')
    (h' : Reads s' us s'') : Reads s (ts ++ us) s'' := by
  induction h with
  | refl => exact h'
  | step hfirst hpass _ ih =>
    rw [List.append_assoc]
    exact .step hfirst hpass (ih h')

theorem Reads.runs {s s' : Scanner} {ts : List Token} {scan : Scan} (h : Reads s ts s')
    (h' : Runs s' scan) : Runs s { scan with tokens := ts ++ scan.tokens } := by
  induction h with
  | refl => exact h'
  | step hfirst hpass _ ih =>
    rw [List.append_assoc]
    exact .step hfirst hpass (ih h')

/-- A run reads to the end of the text. -/
theorem Runs.reads {s : Scanner} {scan : Scan} (h : Runs s scan) :
    ∃ s', Reads s scan.tokens s' ∧ s'.rest = [] ∧ s'.pending = [] := by
  induction h with
  | @stop s ended noPending => exact ⟨s, .refl, ended, noPending⟩
  | step hfirst hpass _ ih =>
    obtain ⟨s', hreads, hend⟩ := ih
    exact ⟨s', .step hfirst hpass hreads, hend⟩

/-- What a stretch of a run passes. -/
theorem Reads.passed {s s' : Scanner} {ts : List Token} (h : Reads s ts s') :
    ∃ passed, s.rest = passed ++ s'.rest ∧
      s'.cursor.offset = s.cursor.offset + passed.length := by
  induction h with
  | refl => exact ⟨[], rfl, rfl⟩
  | step hfirst hpass _ ih =>
    obtain ⟨front, hpasses⟩ := passes_of_step hfirst hpass
    obtain ⟨passed, hrest, hoffset⟩ := ih
    refine ⟨front ++ passed, ?_, ?_⟩
    · rw [hpasses.rest, hrest, List.append_assoc]
    · rw [hoffset, hpasses.offset, List.length_append, Nat.add_assoc]

/-! ## Elsewhere in a text -/

/-- The scanner `u` stands before the same characters as `s`, further on in a text. -/
structure Moved (d l : Nat) (s u : Scanner) : Prop where
  rest : u.rest = s.rest
  cursor : u.cursor = s.cursor.shift d l
  pending : u.pending = s.pending.map (·.shift l)

theorem passBodies_shift (lineStart : Bool) (cursor : Cursor) (cs : List Char)
    (pending : List Heredoc.Pending) (d l : Nat) :
    passBodies lineStart (cursor.shift d l) cs (pending.map (·.shift l)) =
      match passBodies lineStart cursor cs pending with
      | .error e => .error (e.shift l)
      | .ok (cursor', rest) => .ok (cursor'.shift d l, rest) := by
  induction pending generalizing lineStart cursor cs with
  | nil => rfl
  | cons p ps ih =>
    rw [List.map_cons, passBodies, passBodies]
    simp only [Heredoc.Pending.shift]
    cases (if lineStart then Heredoc.body p.tag cs else none) with
    | none => rfl
    | some r =>
      simp only [Cursor.shift_past]
      exact ih _ _ _

theorem Moved.token {d l : Nat} {s u : Scanner} (h : Moved d l s u) (kind : Token.Kind)
    (text : List Char) : u.token kind text = (s.token kind text).shift d l := by
  have hcolumn := Cursor.shift_column d l s.cursor
  simp only [Scanner.token, Token.shift, Cursor.place, h.cursor, hcolumn]
  simp only [Cursor.shift, Token.mk.injEq, true_and]
  omega

/-- The same piece makes the same token, further on. -/
theorem Moved.pass {d l : Nat} {s u s' : Scanner} {p : Piece} {rest : List Char} {t : Option Token}
    (h : Moved d l s u) (hpass : s.pass rest p = .ok (t, s')) :
    ∃ u', u.pass rest p = .ok (t.map (·.shift d l), u') ∧ Moved d l s' u' ∧
      s'.previous = t.or s.previous ∧ u'.previous = (t.map (·.shift d l)).or u.previous := by
  cases p with
  | newline =>
    obtain ⟨cursor, after, hbodies, rfl, rfl⟩ := pass_newline_eq_ok.1 hpass
    have hshifted := passBodies_shift true (s.cursor.next '\n') rest s.pending d l
    rw [hbodies, ← Cursor.shift_next, ← h.cursor, ← h.pending] at hshifted
    exact ⟨_, pass_newline_eq_ok.2 ⟨_, _, hshifted, rfl, rfl⟩, ⟨rfl, rfl, rfl⟩, rfl, rfl⟩
  | gap c =>
    cases hpass
    refine ⟨_, rfl, ⟨rfl, ?_, h.pending⟩, rfl, rfl⟩
    show u.cursor.next c = _
    rw [h.cursor, Cursor.shift_next]
  | comment text =>
    cases hpass
    refine ⟨_, rfl, ⟨rfl, ?_, h.pending⟩, rfl, rfl⟩
    show u.cursor.past text = _
    rw [h.cursor, Cursor.shift_past]
  | lexeme kind text =>
    cases hpass
    have hpass' : u.pass rest (.lexeme kind text) = .ok (some (u.token kind text), { u with
        rest := rest, cursor := u.cursor.past text, previous := some (u.token kind text) }) := rfl
    rw [h.token] at hpass'
    refine ⟨_, hpass', ⟨rfl, ?_, h.pending⟩, rfl, rfl⟩
    show u.cursor.past text = _
    rw [h.cursor, Cursor.shift_past]
  | header tag text =>
    cases hpass
    have hpass' : u.pass rest (.header tag text) = .ok (some (u.token .heredoc text),
        ⟨rest, u.cursor.skip text.length,
          u.pending ++ [⟨tag, u.cursor.line, u.cursor.column⟩], some (u.token .heredoc text)⟩) := rfl
    rw [h.token] at hpass'
    refine ⟨_, hpass', ⟨rfl, ?_, ?_⟩, rfl, rfl⟩
    · show u.cursor.skip text.length = _
      rw [h.cursor, Cursor.shift_skip]
    · show u.pending ++ [⟨tag, u.cursor.line, u.cursor.column⟩] = _
      rw [h.pending, h.cursor, Cursor.shift_column, List.map_append]
      rfl

theorem wantsOperand_shift {d l : Nat} {s u s' u' : Scanner} {t : Option Token}
    (hs : s'.previous = t.or s.previous) (hu : u'.previous = (t.map (·.shift d l)).or u.previous)
    (h : t = none → u.wantsOperand = s.wantsOperand) : u'.wantsOperand = s'.wantsOperand := by
  rw [wantsOperand, wantsOperand, hs, hu]
  cases t with
  | none => exact h rfl
  | some t => rfl

/-- **The same text elsewhere** is read to the same tokens, shifted. -/
theorem Reads.moved {d l : Nat} {s s' u : Scanner} {ts : List Token} (h : Reads s ts s')
    (hu : Moved d l s u) (operand : u.wantsOperand = s.wantsOperand) :
    ∃ u', Reads u (ts.map (·.shift d l)) u' ∧ Moved d l s' u' := by
  induction h generalizing u with
  | refl => exact ⟨u, .refl, hu⟩
  | @step s s₁ s' p rest t ts hfirst hpass more ih =>
    obtain ⟨u₁, hpass', hu₁, hprevious, hprevious'⟩ := hu.pass hpass
    obtain ⟨u', hreads, hu'⟩ := ih hu₁ (wantsOperand_shift hprevious hprevious' fun _ => operand)
    rw [← operand, ← hu.rest] at hfirst
    have hwhole := Reads.step hfirst hpass' hreads
    refine ⟨u', ?_, hu'⟩
    cases t with
    | none => exact hwhole
    | some t => exact hwhole

end Scanner

end ManifestDocs
