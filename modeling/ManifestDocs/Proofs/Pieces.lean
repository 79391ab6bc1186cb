/-
What holds of every piece of a text, rule by rule. `first_eq_ok` says that `Piece.first` finds
exactly the piece that one of the rules gives, so that the rules stand for it. The main use here is
`First.newline_after`: a line break after a text changes nothing about the pieces in it.
-/
import ManifestDocs.Proofs.Headers

namespace ManifestDocs.Piece

open ManifestDocs.Text ManifestDocs.Lexeme

theorem told_eq_false {c : Char} {cs : List Char} (h : told c cs = false) :
    c ≠ '\n' ∧ isGap c = false ∧ c ≠ '#' ∧ (decide (c = '/') && cs.head? == some '*') = false ∧
      c ≠ '\'' ∧ c ≠ '"' ∧ (decide (c = '@') && cs.head? == some '(') = false ∧ c ≠ '$' := by
  simpa [told, and_assoc] using h

/-- After what tells the piece by its first characters, `first` goes on with numbers, words, regular
expressions and operators. -/
theorem first_plain {operand : Bool} {c : Char} {cs : List Char} (plain : told c cs = false) :
    first operand c cs =
      if isDigit c then
        ofSplit (.lexeme .number) .illegalNumber (Lexeme.number (c :: cs))
      else if startsWord c cs then
        ofSplit ofWord (.unexpected (String.ofList ((c :: cs).take 2))) (Lexeme.word (c :: cs))
      else if c = '/' && operand then
        match Lexeme.regex cs with
        | some (text, rest) => .ok (.lexeme .regex ('/' :: text), rest)
        | none => firstOperator c cs
      else firstOperator c cs := by
  obtain ⟨hnewline, hgap, hline, hblock, hsingle, hdouble, hheader, hdollar⟩ := told_eq_false plain
  cases hregex : Lexeme.regex cs with
  | none =>
    simp only [first, hnewline, hgap, hline, hblock, hsingle, hdouble, hheader, hdollar, hregex,
      Bool.false_eq_true, if_false]
  | some r =>
    simp only [first, hnewline, hgap, hline, hblock, hsingle, hdouble, hheader, hdollar, hregex,
      Bool.false_eq_true, if_false]

theorem first_complete {operand : Bool} {c : Char} {cs rest : List Char} {p : Piece}
    (h : First operand (c :: cs) p rest) : first operand c cs = .ok (p, rest) := by
  cases h with
  | newline => rfl
  | gap hc =>
    have hnewline : c ≠ '\n' := by
      intro he
      rw [he] at hc
      exact absurd hc (by decide)
    rw [first, if_neg hnewline, if_pos hc]
  | lineComment => rfl
  | blockComment h => simp [first, isGap, h, ofSplit, Split.extend]
  | singleQuoted h => simp [first, isGap, h, ofSplit, Split.extend]
  | doubleQuoted h => simp [first, isGap, h, ofSplit, Split.extend]
  | header h => simp [first, isGap, h]
  | «variable» h => simp [first, isGap, h, ofSplit]
  | number plain digit h => simp [first_plain plain, digit, h, ofSplit]
  | word plain digit starts h => simp [first_plain plain, digit, starts, h, ofSplit]
  | regex plain place h =>
    have hdigit : isDigit '/' = false := by decide
    have hword : startsWord '/' cs = false := by
      have hletter : isLetter '/' = false := by decide
      simp [startsWord, hletter]
    simp [first_plain plain, hdigit, hword, place, h]
  | operator plain digit starts noRegex h =>
    have hfound := firstOperator_eq_ok.2 ⟨_, h, rfl⟩
    rw [first_plain plain, digit, starts]
    simp only [Bool.false_eq_true, if_false]
    split
    · next hslash =>
      simp only [Bool.and_eq_true, decide_eq_true_eq] at hslash
      rw [noRegex hslash.1 hslash.2]
      exact hfound
    · exact hfound

/-- **The first piece of a text**: `first` finds the piece that one of the rules gives. -/
theorem first_eq_ok {operand : Bool} {c : Char} {cs rest : List Char} {p : Piece} :
    first operand c cs = .ok (p, rest) ↔ First operand (c :: cs) p rest :=
  ⟨first_sound, first_complete⟩

/-! ## A line break after the text -/

theorem isPrefixOf_newline {xs : List Char} (h : '\n' ∉ xs) (cs more : List Char) :
    xs.isPrefixOf (cs ++ '\n' :: more) = xs.isPrefixOf cs := by
  induction xs generalizing cs with
  | nil => simp
  | cons x xs ih =>
    rw [List.mem_cons, not_or] at h
    cases cs with
    | nil => simp [List.isPrefixOf, Ne.symm h.1]
    | cons c cs => simp [List.isPrefixOf, ih h.2]

theorem operator_no_newline (o : Operator) : '\n' ∉ o.text.toList := by
  cases o with
  | opening b => cases b <;> decide
  | closing b => cases b <;> decide
  | _ => decide

theorem operator?_newline {cs rest : List Char} {o : Operator} (h : operator? cs = some (o, rest))
    (more : List Char) : operator? (cs ++ '\n' :: more) = some (o, rest ++ '\n' :: more) := by
  have htest : (fun o : Operator => o.text.toList.isPrefixOf (cs ++ '\n' :: more)) =
      fun o => o.text.toList.isPrefixOf cs :=
    funext fun o => isPrefixOf_newline (operator_no_newline o) cs more
  obtain ⟨o', hfind, he⟩ := Option.map_eq_some_iff.1 h
  cases he
  have hlength : o.text.toList.length ≤ cs.length := by
    have hstart := List.find?_some hfind
    rw [List.isPrefixOf_iff_prefix] at hstart
    exact hstart.length_le
  rw [operator?, htest, hfind, Option.map_some, List.drop_append_of_le_length hlength]

section Before

variable {d : Char} (c : Char) (cs more : List Char)

theorem head?_before {x : Char} (hx : x ≠ d) :
    ((cs ++ d :: more).head? == some x) = (cs.head? == some x) := by
  cases cs with
  | nil => simp [hx.symm]
  | cons c cs => rfl

theorem told_before (hstar : '*' ≠ d) (hround : '(' ≠ d) : told c (cs ++ d :: more) = told c cs := by
  simp only [told, head?_before cs more hstar, head?_before cs more hround]

theorem startsWord_before (hcolon : ':' ≠ d) : startsWord c (cs ++ d :: more) = startsWord c cs := by
  simp only [startsWord, head?_before cs more hcolon]

end Before

theorem told_newline (c : Char) (cs more : List Char) :
    told c (cs ++ '\n' :: more) = told c cs :=
  told_before c cs more (by decide) (by decide)

theorem startsWord_newline (c : Char) (cs more : List Char) :
    startsWord c (cs ++ '\n' :: more) = startsWord c cs :=
  startsWord_before c cs more (by decide)

/-- A line break after a text, whatever follows it, changes no piece of the text. -/
theorem First.newline_after {operand : Bool} {cs rest : List Char} {p : Piece}
    (h : First operand cs p rest) (more : List Char) :
    First operand (cs ++ '\n' :: more) p (rest ++ '\n' :: more) := by
  cases h with
  | newline => exact .newline
  | gap hc => exact .gap hc
  | @lineComment cs =>
    have hrun := run_newline more (p := (· != '\n')) (by decide) cs
    have hfirst : First operand ('#' :: (cs ++ '\n' :: more)) _ _ := .lineComment
    rw [hrun] at hfirst
    exact hfirst
  | blockComment h => exact .blockComment (blockComment_followed h _)
  | singleQuoted h => exact .singleQuoted (singleQuoted_followed h _)
  | doubleQuoted h => exact .doubleQuoted (doubleQuoted_followed h _)
  | @header cs tag s h =>
    have hwhole : s.1 ++ s.2 = '@' :: '(' :: cs := Heredoc.whole_of_header h
    have hfound : Heredoc.header (('@' :: '(' :: cs) ++ '\n' :: more) =
        some (tag, s.followed ('\n' :: more)) := by
      rw [← hwhole, List.append_assoc]
      exact Heredoc.header_found h _
    exact .header hfound
  | @«variable» cs s h =>
    have hfound := variableName_newline more ('$' :: cs)
    rw [h, Option.map_some] at hfound
    exact .variable hfound
  | @number c cs s plain digit h =>
    have hfound := number_newline more (c :: cs)
    rw [h, Option.map_some] at hfound
    exact .number ((told_newline c cs more).trans plain) digit hfound
  | @word c cs s plain digit starts h =>
    have hfound := word_newline more (c :: cs)
    rw [h, Option.map_some] at hfound
    exact .word ((told_newline c cs more).trans plain) digit
      ((startsWord_newline c cs more).trans starts) hfound
  | regex plain place h =>
    exact .regex ((told_newline _ _ more).trans plain) place (regex_followed h _)
  | operator plain digit starts noRegex h =>
    exact .operator ((told_newline _ _ more).trans plain) digit
      ((startsWord_newline _ _ more).trans starts)
      (fun hc hplace => regex_newline_eq_none (noRegex hc hplace) more) (operator?_newline h more)

/-- A name is found again if a space follows the text, whatever came before. -/
theorem First.name_space {operand : Bool} {cs text rest : List Char}
    (h : First operand cs (.lexeme .name text) rest) (operand' : Bool) (more : List Char) :
    First operand' (cs ++ ' ' :: more) (.lexeme .name text) (rest ++ ' ' :: more) := by
  generalize hp : Piece.lexeme .name text = p at h ⊢
  cases h with
  | @word c cs s plain digit starts h =>
    have hfound := word_before (d := ' ') more (by decide) (by decide) (by decide) (c :: cs)
    rw [h, Option.map_some] at hfound
    exact .word ((told_before c cs more (by decide) (by decide)).trans plain) digit
      ((startsWord_before c cs more (by decide)).trans starts) hfound
  | _ => cases hp

/-- A piece of a text that starts with no slash is the same whether an operand can stand there. -/
theorem First.of_not_slash {operand : Bool} {c : Char} {cs rest : List Char} {p : Piece}
    (h : First operand (c :: cs) p rest) (hc : c ≠ '/') (operand' : Bool) :
    First operand' (c :: cs) p rest := by
  cases h with
  | newline => exact .newline
  | gap hc => exact .gap hc
  | lineComment => exact .lineComment
  | blockComment h => exact .blockComment h
  | singleQuoted h => exact .singleQuoted h
  | doubleQuoted h => exact .doubleQuoted h
  | header h => exact .header h
  | «variable» h => exact .variable h
  | number plain digit h => exact .number plain digit h
  | word plain digit starts h => exact .word plain digit starts h
  | regex => exact absurd rfl hc
  | operator plain digit starts noRegex h =>
    exact .operator plain digit starts (fun he => absurd he hc) h

/-- Only a header makes a heredoc token. -/
theorem First.kind_ne_heredoc {operand : Bool} {cs text rest : List Char} {kind : Token.Kind}
    (h : First operand cs (.lexeme kind text) rest) : kind ≠ .heredoc := by
  generalize hp : Piece.lexeme kind text = p at h
  cases h with
  | word =>
    simp only [ofWord, Piece.lexeme.injEq] at hp
    rw [hp.1]
    split <;> simp
  | _ => cases hp <;> simp

/-- Of the tokens, only strings and heredoc headers can have line breaks in them. -/
theorem First.unbroken {operand : Bool} {cs text rest : List Char} {kind : Token.Kind}
    (h : First operand cs (.lexeme kind text) rest) (hkind : kind ≠ .string) : '\n' ∉ text := by
  generalize hp : Piece.lexeme kind text = p at h
  cases h with
  | singleQuoted | doubleQuoted =>
    cases hp
    exact absurd rfl hkind
  | «variable» h =>
    cases hp
    exact variableName_unbroken h
  | number _ _ h =>
    cases hp
    exact number_unbroken h
  | word _ _ _ h =>
    simp only [ofWord, Piece.lexeme.injEq] at hp
    rw [hp.2]
    exact word_unbroken h
  | regex _ _ h =>
    cases hp
    simpa using regex_unbroken h
  | @operator _ _ _ o =>
    cases hp
    exact operator_no_newline o
  | _ => cases hp

theorem operator_of_slash :
    ∀ o ∈ Operator.table, o.text.toList.head? = some '/' → o = .slash := by
  decide

/-- What a slash can start: a comment, a regular expression or a division. -/
theorem First.of_slash {operand : Bool} {cs rest : List Char} {p : Piece}
    (h : First operand ('/' :: cs) p rest) :
    (∃ text, p = .comment text) ∨ (∃ text, p = .lexeme .regex text) ∨
      ∃ text, p = .lexeme (.operator .slash) text := by
  cases h with
  | gap hc => exact absurd hc (by decide)
  | blockComment h => exact .inl ⟨_, rfl⟩
  | number _ digit _ => exact absurd digit (by decide)
  | word _ _ starts _ =>
    have hletter : isLetter '/' = false := by decide
    simp [startsWord, hletter] at starts
  | regex _ _ h => exact .inr (.inl ⟨_, rfl⟩)
  | @operator _ _ _ o _ _ _ _ h =>
    obtain ⟨o', hfind, he⟩ := Option.map_eq_some_iff.1 h
    cases he
    have hstart := List.find?_some hfind
    rw [List.isPrefixOf_iff_prefix] at hstart
    have hslash : o.text.toList.head? = some '/' := by
      obtain ⟨c, more, htext⟩ := List.exists_cons_of_ne_nil (operator_text_ne_nil o)
      rw [htext] at hstart ⊢
      rw [(List.cons_prefix_cons.1 hstart).1]
      rfl
    rw [operator_of_slash o (Operator.mem_table o) hslash]
    exact .inr (.inr ⟨_, rfl⟩)

end ManifestDocs.Piece
