/-
Pieces: what a manifest's text is made of, one after the other. A piece is a line break, a blank, a
comment, a heredoc header or another lexeme; `Piece.first` finds the one a text starts with. The
text of a heredoc body is not a piece, since only the headers before it say that it is one. `First`
gives the same as one rule for each sort of piece: what is found is then told by the rules.
-/
import ManifestDocs.Diagnostic
import ManifestDocs.Token
import ManifestDocs.Token.Heredoc

namespace ManifestDocs

open ManifestDocs.Text

/-- A stretch of a manifest's text. -/
inductive Piece where
  | newline
  | gap (c : Char)
  | comment (text : List Char)
  | lexeme (kind : Token.Kind) (text : List Char)
  | header (tag : List Char) (text : List Char)
deriving DecidableEq, Repr

namespace Piece

/-- The characters of a piece. -/
def text : Piece → List Char
  | .newline => ['\n']
  | .gap c => [c]
  | .comment text => text
  | .lexeme _ text => text
  | .header _ text => text

/-- Whether a character separates tokens within a line. -/
def isGap (c : Char) : Bool :=
  c == ' ' || c == '\t' || c == '\r' || c == '\x0c' || c == '\x0b'

/-- How much of the text after an opening quote is shown when the quote is not closed. -/
def quoteExcerpt : Nat := 20

/-- The operator a text starts with: the first of the table, hence the longest. -/
def operator? (cs : List Char) : Option (Operator × List Char) :=
  (Operator.table.find? fun o => o.text.toList.isPrefixOf cs).map fun o =>
    (o, cs.drop o.text.toList.length)

/-- The piece for a split, if there is one. -/
def ofSplit (make : List Char → Piece) (cause : SyntaxError.Cause) :
    Option Lexeme.Split → Except SyntaxError.Cause (Piece × List Char)
  | some (text, rest) => .ok (make text, rest)
  | none => .error cause

/-- A word, as a name or as the name of a type. -/
def ofWord (lexeme : List Char) : Piece :=
  .lexeme (if Lexeme.isTypeName lexeme then .typeName else .name) lexeme

/-- Whether a text starts with a word, or at least with what only a word can start with. -/
def startsWord (c : Char) (cs : List Char) : Bool :=
  isLetter c || c == '_' || (c == ':' && cs.head? == some ':')

/-- An operator, or the complaint about a character that starts nothing. -/
def firstOperator (c : Char) (cs : List Char) : Except SyntaxError.Cause (Piece × List Char) :=
  match operator? (c :: cs) with
  | some (o, rest) => .ok (.lexeme (.operator o) o.text.toList, rest)
  | none => .error (.illegalCharacter c)

/-- The first piece of the text `c :: cs`. A slash starts a regular expression only where
`operand`, a new operand, can stand, and only if the regular expression ends on its line. -/
def first (operand : Bool) (c : Char) (cs : List Char) :
    Except SyntaxError.Cause (Piece × List Char) :=
  if c = '\n' then .ok (.newline, cs)
  else if isGap c then .ok (.gap c, cs)
  else if c = '#' then
    .ok (.comment ('#' :: cs.takeWhile (· != '\n')), cs.dropWhile (· != '\n'))
  else if c = '/' && cs.head? == some '*' then
    ofSplit .comment .unclosedComment
      ((Lexeme.blockComment cs.tail).map (Lexeme.Split.extend ['/', '*']))
  else if c = '\'' then
    ofSplit (.lexeme .string) (.unclosedQuote '\'' (String.ofList (cs.take quoteExcerpt)))
      ((Lexeme.singleQuoted cs).map (Lexeme.Split.extend ['\'']))
  else if c = '"' then
    ofSplit (.lexeme .string) (.unclosedQuote '"' (String.ofList (cs.take quoteExcerpt)))
      ((Lexeme.doubleQuoted 0 cs).map (Lexeme.Split.extend ['"']))
  else if c = '@' && cs.head? == some '(' then
    match Heredoc.header (c :: cs) with
    | some (tag, text, rest) => .ok (.header tag text, rest)
    | none => .error .invalidHeredocHeader
  else if c = '$' then
    ofSplit (.lexeme .variable) .illegalVariable (Lexeme.variableName (c :: cs))
  else if isDigit c then
    ofSplit (.lexeme .number) .illegalNumber (Lexeme.number (c :: cs))
  else if startsWord c cs then
    ofSplit ofWord (.unexpected (String.ofList ((c :: cs).take 2))) (Lexeme.word (c :: cs))
  else if c = '/' && operand then
    match Lexeme.regex cs with
    | some (text, rest) => .ok (.lexeme .regex ('/' :: text), rest)
    | none => firstOperator c cs
  else firstOperator c cs

/-! ## The rules -/

open Lexeme

/-- Whether the first one or two characters tell the piece: a blank, a comment, a string, a heredoc
header or a variable. -/
def told (c : Char) (cs : List Char) : Bool :=
  c == '\n' || isGap c || c == '#' || (c == '/' && cs.head? == some '*') || c == '\'' || c == '"' ||
    (c == '@' && cs.head? == some '(') || c == '$'

/-- `First operand cs p rest`: the text `cs` starts with the piece `p`, and `rest` follows it. -/
inductive First (operand : Bool) : List Char → Piece → List Char → Prop
  | newline {cs : List Char} : First operand ('\n' :: cs) .newline cs
  | gap {c : Char} {cs : List Char} (hc : isGap c = true) : First operand (c :: cs) (.gap c) cs
  | lineComment {cs : List Char} :
      First operand ('#' :: cs) (.comment ('#' :: (run (· != '\n') cs).1)) (run (· != '\n') cs).2
  | blockComment {cs : List Char} {s : Split} (h : Lexeme.blockComment cs = some s) :
      First operand ('/' :: '*' :: cs) (.comment ('/' :: '*' :: s.1)) s.2
  | singleQuoted {cs : List Char} {s : Split} (h : Lexeme.singleQuoted cs = some s) :
      First operand ('\'' :: cs) (.lexeme .string ('\'' :: s.1)) s.2
  | doubleQuoted {cs : List Char} {s : Split} (h : Lexeme.doubleQuoted 0 cs = some s) :
      First operand ('"' :: cs) (.lexeme .string ('"' :: s.1)) s.2
  | header {cs tag : List Char} {s : Split} (h : Heredoc.header ('@' :: '(' :: cs) = some (tag, s)) :
      First operand ('@' :: '(' :: cs) (.header tag s.1) s.2
  | variable {cs : List Char} {s : Split} (h : variableName ('$' :: cs) = some s) :
      First operand ('$' :: cs) (.lexeme .variable s.1) s.2
  | number {c : Char} {cs : List Char} {s : Split} (plain : told c cs = false)
      (digit : isDigit c = true) (h : Lexeme.number (c :: cs) = some s) :
      First operand (c :: cs) (.lexeme .number s.1) s.2
  | word {c : Char} {cs : List Char} {s : Split} (plain : told c cs = false)
      (digit : isDigit c = false) (starts : startsWord c cs = true)
      (h : Lexeme.word (c :: cs) = some s) : First operand (c :: cs) (ofWord s.1) s.2
  | regex {cs : List Char} {s : Split} (plain : told '/' cs = false) (place : operand = true)
      (h : Lexeme.regex cs = some s) : First operand ('/' :: cs) (.lexeme .regex ('/' :: s.1)) s.2
  | operator {c : Char} {cs rest : List Char} {o : Operator} (plain : told c cs = false)
      (digit : isDigit c = false) (starts : startsWord c cs = false)
      (noRegex : c = '/' → operand = true → Lexeme.regex cs = none)
      (h : operator? (c :: cs) = some (o, rest)) :
      First operand (c :: cs) (.lexeme (.operator o) o.text.toList) rest

theorem ofSplit_eq_ok {make : List Char → Piece} {cause : SyntaxError.Cause} {found : Option Split}
    {p : Piece} {rest : List Char} :
    ofSplit make cause found = .ok (p, rest) ↔ ∃ s, found = some s ∧ p = make s.1 ∧ rest = s.2 := by
  cases found with
  | none => simp [ofSplit]
  | some s =>
    obtain ⟨text, after⟩ := s
    simp only [ofSplit, Except.ok.injEq, Prod.mk.injEq, Option.some.injEq, exists_eq_left']
    constructor
    · rintro ⟨rfl, rfl⟩
      exact ⟨rfl, rfl⟩
    · rintro ⟨rfl, rfl⟩
      exact ⟨rfl, rfl⟩

theorem firstOperator_eq_ok {c : Char} {cs rest : List Char} {p : Piece} :
    firstOperator c cs = .ok (p, rest) ↔
      ∃ o, operator? (c :: cs) = some (o, rest) ∧ p = .lexeme (.operator o) o.text.toList := by
  unfold firstOperator
  split
  · next o after ho =>
    simp only [ho, Except.ok.injEq, Prod.mk.injEq, Option.some.injEq]
    constructor
    · rintro ⟨rfl, rfl⟩
      exact ⟨o, ⟨rfl, rfl⟩, rfl⟩
    · rintro ⟨o', ⟨rfl, rfl⟩, rfl⟩
      exact ⟨rfl, rfl⟩
  · next ho => simp [ho]

/-- What `first` finds is what one of the rules gives. -/
theorem first_sound {operand : Bool} {c : Char} {cs rest : List Char} {p : Piece}
    (h : first operand c cs = .ok (p, rest)) : First operand (c :: cs) p rest := by
  rw [first] at h
  by_cases hnewline : c = '\n'
  · rw [if_pos hnewline] at h
    cases h
    subst hnewline
    exact .newline
  rw [if_neg hnewline] at h
  by_cases hgap : isGap c = true
  · rw [if_pos hgap] at h
    cases h
    exact .gap hgap
  rw [if_neg hgap] at h
  by_cases hline : c = '#'
  · rw [if_pos hline] at h
    cases h
    subst hline
    exact .lineComment
  rw [if_neg hline] at h
  by_cases hblock : (decide (c = '/') && cs.head? == some '*') = true
  · rw [if_pos hblock] at h
    simp only [Bool.and_eq_true, decide_eq_true_eq, beq_iff_eq, List.head?_eq_some_iff] at hblock
    obtain ⟨rfl, ds, rfl⟩ := hblock
    obtain ⟨s, hs, rfl, rfl⟩ := ofSplit_eq_ok.1 h
    obtain ⟨t, ht, rfl⟩ := Option.map_eq_some_iff.1 hs
    exact .blockComment ht
  rw [if_neg hblock] at h
  by_cases hsingle : c = '\''
  · rw [if_pos hsingle] at h
    subst hsingle
    obtain ⟨s, hs, rfl, rfl⟩ := ofSplit_eq_ok.1 h
    obtain ⟨t, ht, rfl⟩ := Option.map_eq_some_iff.1 hs
    exact .singleQuoted ht
  rw [if_neg hsingle] at h
  by_cases hdouble : c = '"'
  · rw [if_pos hdouble] at h
    subst hdouble
    obtain ⟨s, hs, rfl, rfl⟩ := ofSplit_eq_ok.1 h
    obtain ⟨t, ht, rfl⟩ := Option.map_eq_some_iff.1 hs
    exact .doubleQuoted ht
  rw [if_neg hdouble] at h
  by_cases hheader : (decide (c = '@') && cs.head? == some '(') = true
  · rw [if_pos hheader] at h
    simp only [Bool.and_eq_true, decide_eq_true_eq, beq_iff_eq, List.head?_eq_some_iff] at hheader
    obtain ⟨rfl, ds, rfl⟩ := hheader
    split at h
    · next tag text after ht =>
      cases h
      exact .header ht
    · cases h
  rw [if_neg hheader] at h
  by_cases hdollar : c = '$'
  · rw [if_pos hdollar] at h
    subst hdollar
    obtain ⟨s, hs, rfl, rfl⟩ := ofSplit_eq_ok.1 h
    exact .variable hs
  rw [if_neg hdollar] at h
  have plain : told c cs = false := by
    simp only [Bool.and_eq_true, decide_eq_true_eq, beq_iff_eq] at hblock hheader
    simp [told, hnewline, hgap, hline, hsingle, hdouble, hdollar]
    exact ⟨fun hc hhead => hblock ⟨hc, hhead⟩, fun hc hhead => hheader ⟨hc, hhead⟩⟩
  by_cases hdigit : isDigit c = true
  · rw [if_pos hdigit] at h
    obtain ⟨s, hs, rfl, rfl⟩ := ofSplit_eq_ok.1 h
    exact .number plain hdigit hs
  rw [if_neg hdigit] at h
  by_cases hword : startsWord c cs = true
  · rw [if_pos hword] at h
    obtain ⟨s, hs, rfl, rfl⟩ := ofSplit_eq_ok.1 h
    exact .word plain (by simpa using hdigit) hword hs
  rw [if_neg hword] at h
  rw [Bool.not_eq_true] at hdigit hword
  by_cases hslash : (decide (c = '/') && operand) = true
  · rw [if_pos hslash] at h
    simp only [Bool.and_eq_true, decide_eq_true_eq] at hslash
    obtain ⟨rfl, hplace⟩ := hslash
    split at h
    · next text after hregex =>
      cases h
      exact .regex plain hplace hregex
    · next hregex =>
      obtain ⟨o, ho, rfl⟩ := firstOperator_eq_ok.1 h
      exact .operator plain hdigit hword (fun _ _ => hregex) ho
  · rw [if_neg hslash] at h
    obtain ⟨o, ho, rfl⟩ := firstOperator_eq_ok.1 h
    refine .operator plain hdigit hword (fun hc hplace => ?_) ho
    simp [hc, hplace] at hslash

/-! ## Nothing is lost, and no piece is empty -/

theorem operator?_append {cs rest : List Char} {o : Operator}
    (h : operator? cs = some (o, rest)) : o.text.toList ++ rest = cs := by
  obtain ⟨o', hfind, ho⟩ := Option.map_eq_some_iff.1 h
  cases ho
  have hstart := List.find?_some hfind
  rw [List.isPrefixOf_iff_prefix] at hstart
  obtain ⟨more, rfl⟩ := hstart
  simp

/-- No operator is written with nothing. -/
theorem operator_text_ne_nil (o : Operator) : o.text.toList ≠ [] := by
  cases o with
  | opening b => cases b <;> decide
  | closing b => cases b <;> decide
  | _ => decide

/-- The first piece and the rest make up the text again. -/
theorem First.append {operand : Bool} {cs rest : List Char} {p : Piece}
    (h : First operand cs p rest) : p.text ++ rest = cs := by
  cases h with
  | newline => rfl
  | gap => rfl
  | lineComment => exact congrArg ('#' :: ·) (whole_run _ _)
  | blockComment h => exact congrArg ('/' :: '*' :: ·) (whole_of_blockComment h)
  | singleQuoted h => exact congrArg ('\'' :: ·) (whole_of_singleQuoted h)
  | doubleQuoted h => exact congrArg ('"' :: ·) (whole_of_doubleQuoted h)
  | header h => exact Heredoc.whole_of_header h
  | «variable» h => exact whole_of_variableName h
  | number _ _ h => exact whole_of_number h
  | word _ _ _ h => exact whole_of_word h
  | regex _ _ h => exact congrArg ('/' :: ·) (whole_of_regex h)
  | operator _ _ _ _ h => exact operator?_append h

/-- The first piece is not empty, so that reading goes on. -/
theorem First.ne_nil {operand : Bool} {cs rest : List Char} {p : Piece}
    (h : First operand cs p rest) : p.text ≠ [] := by
  cases h with
  | header h => exact Heredoc.ne_nil_of_header h
  | «variable» h => exact ne_nil_of_variableName h
  | number _ _ h => exact ne_nil_of_number h
  | word _ _ _ h => exact ne_nil_of_word h
  | operator => exact operator_text_ne_nil _
  | _ => exact List.cons_ne_nil _ _

/-- What is left after the first piece is shorter than the text. -/
theorem first_length {operand : Bool} {c : Char} {cs rest : List Char} {p : Piece}
    (h : first operand c cs = .ok (p, rest)) : rest.length < (c :: cs).length := by
  have hfirst := first_sound h
  have hpos := List.length_pos_iff.2 hfirst.ne_nil
  rw [← hfirst.append, List.length_append]
  omega

end Piece

end ManifestDocs
