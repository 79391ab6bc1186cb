/-
Diagnostics: why a text is not a manifest, and where. A `SyntaxError` is a cause with the line and
column it was found at; a `Diagnostic` is what is reported of it, a message that may carry a place.
-/

namespace ManifestDocs

/-- A message with the place it concerns, as far as the place is known. -/
structure Diagnostic where
  message : String
  line : Option Int
  column : Option Int
deriving DecidableEq, Repr, Inhabited

/-- The message followed by its place in parentheses; a column is shown only with its line. -/
def Diagnostic.text (d : Diagnostic) : String :=
  match d.line, d.column with
  | none, _ => d.message
  | some line, none => d.message ++ " (line: " ++ toString line ++ ")"
  | some line, some column =>
    d.message ++ " (line: " ++ toString line ++ ", column: " ++ toString column ++ ")"

/-- What can be wrong with a text that is not a manifest. -/
inductive SyntaxError.Cause where
  /-- A string opened by `quote` has no end; `following` is how it goes on. -/
  | unclosedQuote (quote : Char) (following : String)
  /-- A block comment has no end. -/
  | unclosedComment
  /-- A `$` with no variable name after it. -/
  | illegalVariable
  /-- A digit that no number starts with. -/
  | illegalNumber
  /-- A character that starts no token. -/
  | illegalCharacter (c : Char)
  /-- A `@(` that opens no heredoc header. -/
  | invalidHeredocHeader
  /-- The lines after a heredoc header never end with its tag. -/
  | unclosedHeredoc (tag : String)
  /-- No line follows a heredoc header. -/
  | heredocWithoutLines (tag : String)
  /-- A text that the grammar does not allow where it stands. -/
  | unexpected (text : String)
  /-- The text ends where the grammar needs more. -/
  | unexpectedEnd
deriving DecidableEq, Repr

/-- The wording of a cause. -/
def SyntaxError.Cause.message : SyntaxError.Cause → String
  | .unclosedQuote quote following =>
    let shown := if quote = '\'' then "\"'\"" else "'" ++ quote.toString ++ "'"
    "Unclosed quote after " ++ shown ++ " followed by '" ++ following ++ "'"
  | .unclosedComment => "Unclosed comment"
  | .illegalVariable => "Illegal variable name"
  | .illegalNumber => "Illegal number"
  | .illegalCharacter c => "Illegal character '" ++ c.toString ++ "'"
  | .invalidHeredocHeader => "Invalid heredoc header"
  | .unclosedHeredoc tag => "Heredoc without end-tagged line for tag '" ++ tag ++ "'"
  | .heredocWithoutLines tag =>
    "Heredoc without any following lines of text for tag '" ++ tag ++ "'"
  | .unexpected text => "Syntax error at '" ++ text ++ "'"
  | .unexpectedEnd => "Syntax error at end of input"

/-- A cause with the line and column it was found at, both counted from one. -/
structure SyntaxError where
  cause : SyntaxError.Cause
  line : Nat
  column : Nat
deriving DecidableEq, Repr

/-- What is reported of a syntax error. -/
def SyntaxError.diagnostic (e : SyntaxError) : Diagnostic :=
  { message := e.cause.message, line := some (e.line : Int), column := some (e.column : Int) }

/-- The wording of a syntax error with its place. -/
def SyntaxError.message (e : SyntaxError) : String :=
  e.diagnostic.text

end ManifestDocs
