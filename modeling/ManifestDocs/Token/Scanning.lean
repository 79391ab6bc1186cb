/-
Scanning: from a text to its tokens. A `Scanner` goes over the text piece by piece; `step` passes
one piece and `run` all of them. Heredoc headers wait until their line ends: the lines after it are
then passed as their bodies, in the order of the headers.
-/
import ManifestDocs.Token.Cursor
import ManifestDocs.Token.Piece

namespace ManifestDocs

/-- A heredoc header whose body is still to come: its tag, and where the header stands. -/
structure Heredoc.Pending where
  tag : List Char
  line : Nat
  column : Nat
deriving DecidableEq, Repr

/-- A scanner in a text: what is left of it, where that starts, the heredocs whose bodies are still
to come, and the token before. -/
structure Scanner where
  rest : List Char
  cursor : Cursor
  pending : List Heredoc.Pending
  previous : Option Token
deriving DecidableEq, Repr

namespace Scanner

/-- A scanner at the start of a text. -/
def start (text : List Char) : Scanner :=
  ⟨text, Cursor.start, [], none⟩

/-- Whether a new operand can stand here, so that a slash starts a regular expression. -/
def wantsOperand (s : Scanner) : Bool :=
  s.previous.all (!·.endsOperand)

/-- Passes the bodies of the heredocs `pending`, in order. A body can only start where a line does,
which `lineStart` says of the position. -/
def passBodies (lineStart : Bool) (cursor : Cursor) (cs : List Char) :
    List Heredoc.Pending → Except SyntaxError (Cursor × List Char)
  | [] => .ok (cursor, cs)
  | p :: ps =>
    match if lineStart then Heredoc.body p.tag cs else none with
    | none => .error ⟨.unclosedHeredoc (String.ofList p.tag), p.line, p.column⟩
    | some (body, rest) => passBodies (Heredoc.endsLine body) (cursor.past body) rest ps

/-- The token with this kind and lexeme where the scanner stands. -/
def token (s : Scanner) (kind : Token.Kind) (text : List Char) : Token :=
  ⟨kind, String.ofList text, s.cursor.place, s.cursor.offset + text.length⟩

/-- Passes the piece `p`, with `rest` after it, and gives the token it makes, if any. A heredoc
header counts as standing on one line. -/
def pass (s : Scanner) (rest : List Char) :
    Piece → Except SyntaxError (Option Token × Scanner)
  | .newline => do
    let (cursor, rest) ← passBodies true (s.cursor.next '\n') rest s.pending
    return (none, { s with rest := rest, cursor := cursor, pending := [] })
  | .gap c => .ok (none, { s with rest := rest, cursor := s.cursor.next c })
  | .comment text => .ok (none, { s with rest := rest, cursor := s.cursor.past text })
  | .lexeme kind text =>
    let t := s.token kind text
    .ok (some t, { s with rest := rest, cursor := s.cursor.past text, previous := some t })
  | .header tag text =>
    let t := s.token .heredoc text
    .ok (some t,
      { rest := rest, cursor := s.cursor.skip text.length, previous := some t,
        pending := s.pending ++ [⟨tag, s.cursor.line, s.cursor.column⟩] })

/-- Passes the first piece of what is left, the text `c :: cs`. -/
def step (s : Scanner) (c : Char) (cs : List Char) :
    Except SyntaxError (Option Token × Scanner) :=
  match Piece.first s.wantsOperand c cs with
  | .error cause => .error ⟨cause, s.cursor.line, s.cursor.column⟩
  | .ok (p, rest) => s.pass rest p

/-- The end of the text: no heredoc may wait for its body any more. -/
def finish (s : Scanner) : Except SyntaxError Scan :=
  match s.pending with
  | p :: _ => .error ⟨.heredocWithoutLines (String.ofList p.tag), p.line, p.column⟩
  | [] => .ok ⟨[], s.cursor.place⟩

/-! ## Every step goes on -/

theorem passBodies_length {lineStart : Bool} {cursor cursor' : Cursor} {cs rest : List Char}
    {pending : List Heredoc.Pending}
    (h : passBodies lineStart cursor cs pending = .ok (cursor', rest)) :
    rest.length ≤ cs.length := by
  induction pending generalizing lineStart cursor cs with
  | nil => cases h; exact Nat.le_refl _
  | cons p ps ih =>
    rw [passBodies] at h
    cases lineStart with
    | false => cases h
    | true =>
      simp only [if_true] at h
      split at h
      · cases h
      · rename_i body after hbody
        have hle := ih h
        have whole := congrArg List.length (Heredoc.whole_of_body hbody)
        simp only [Lexeme.Split.whole, List.length_append] at whole
        omega

theorem pass_length {s s' : Scanner} {p : Piece} {rest : List Char} {t : Option Token}
    (h : s.pass rest p = .ok (t, s')) : s'.rest.length ≤ rest.length := by
  cases p with
  | newline =>
    rw [pass] at h
    cases hb : passBodies true (s.cursor.next '\n') rest s.pending with
    | error e => rw [hb] at h; cases h
    | ok r => rw [hb] at h; cases h; exact passBodies_length hb
  | _ => cases h; exact Nat.le_refl _

/-- A step leaves less of the text. -/
theorem step_length {s s' : Scanner} {c : Char} {cs : List Char} {t : Option Token}
    (h : s.step c cs = .ok (t, s')) : s'.rest.length < (c :: cs).length := by
  unfold step at h
  split at h
  · cases h
  · rename_i p rest hfirst
    exact Nat.lt_of_le_of_lt (pass_length h) (Piece.first_length hfirst)

/-- Scans all that is left. -/
def run (s : Scanner) : Except SyntaxError Scan :=
  match _h : s.rest with
  | [] => s.finish
  | c :: cs =>
    match _hstep : s.step c cs with
    | .error e => .error e
    | .ok (t, s') =>
      match run s' with
      | .error e => .error e
      | .ok scan => .ok { scan with tokens := t.toList ++ scan.tokens }
termination_by s.rest.length
decreasing_by
  rw [_h]
  exact step_length _hstep

end Scanner

/-- The tokens of a text and the place where it ends. -/
def Scan.ofText (text : String) : Except SyntaxError Scan :=
  (Scanner.start text.toList).run

end ManifestDocs
