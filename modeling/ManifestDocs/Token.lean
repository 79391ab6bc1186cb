/-
Tokens of a manifest: brackets, operators, the kinds of token, and a token with its lexeme and its
place in the text. `Operator.table` lists every operator, longest first, so that the first entry a
text starts with is the longest one.
-/

namespace ManifestDocs

/-- The three pairs of brackets that have to balance. -/
inductive Bracket where
  | round | square | curly
deriving DecidableEq, Repr

/-- The operators and punctuation marks of a manifest. -/
inductive Operator where
  | opening (b : Bracket)
  | closing (b : Bracket)
  | exportedCollectorOpen | exportedCollectorClose
  | arrow | appendArrow | before | notify | requires | subscribe
  | equal | notEqual | atLeast | atMost | shiftRight | shiftLeft
  | isMatch | noMatch | collectorOpen | collectorClose | appendAssign | deleteAssign
  | assign | comma | colon | semicolon | dot | pipe | at | question | bang
  | star | plus | minus | slash | percent | less | greater | tilde | ampersand | caret
deriving DecidableEq, Repr

/-- How an operator is written. -/
def Operator.text : Operator → String
  | .opening .round => "(" | .opening .square => "[" | .opening .curly => "\x7b"
  | .closing .round => ")" | .closing .square => "]" | .closing .curly => "\x7d"
  | .exportedCollectorOpen => "<<|" | .exportedCollectorClose => "|>>"
  | .arrow => "=>" | .appendArrow => "+>" | .before => "->" | .notify => "~>"
  | .requires => "<-" | .subscribe => "<~"
  | .equal => "==" | .notEqual => "!=" | .atLeast => ">=" | .atMost => "<="
  | .shiftRight => ">>" | .shiftLeft => "<<"
  | .isMatch => "=~" | .noMatch => "!~" | .collectorOpen => "<|" | .collectorClose => "|>"
  | .appendAssign => "+=" | .deleteAssign => "-="
  | .assign => "=" | .comma => "," | .colon => ":" | .semicolon => ";" | .dot => "."
  | .pipe => "|" | .at => "@" | .question => "?" | .bang => "!" | .star => "*" | .plus => "+"
  | .minus => "-" | .slash => "/" | .percent => "%" | .less => "<" | .greater => ">"
  | .tilde => "~" | .ampersand => "&" | .caret => "^"

/-- Every operator, longest first. -/
def Operator.table : List Operator :=
  [.exportedCollectorOpen, .exportedCollectorClose,
   .arrow, .appendArrow, .before, .notify, .requires, .subscribe, .equal, .notEqual, .atLeast,
   .atMost, .shiftRight, .shiftLeft, .isMatch, .noMatch, .collectorOpen, .collectorClose,
   .appendAssign, .deleteAssign,
   .opening .curly, .closing .curly, .opening .square, .closing .square, .opening .round,
   .closing .round, .assign, .comma, .colon, .semicolon, .dot, .pipe, .at, .question, .bang, .star,
   .plus, .minus, .slash, .percent, .less, .greater, .tilde, .ampersand, .caret]

/-- Every operator is in the table. -/
theorem Operator.mem_table (o : Operator) : o ∈ Operator.table := by
  cases o with
  | opening b => cases b <;> decide
  | closing b => cases b <;> decide
  | _ => decide

/-- What a token is. -/
inductive Token.Kind where
  /-- A word that starts with a small letter or an underscore. -/
  | name
  /-- A word that starts with a capital letter. -/
  | typeName
  | variable
  | number
  | string
  | heredoc
  | regex
  | operator (o : Operator)
deriving DecidableEq, Repr

/-- A place in a text: characters before it, and its line and column counted from one. -/
structure Place where
  offset : Nat
  line : Nat
  column : Nat
deriving DecidableEq, Repr, Inhabited

/-- A token: its kind and lexeme, where it starts, and the offset after its last character. -/
structure Token where
  kind : Token.Kind
  value : String
  start : Place
  stop : Nat
deriving DecidableEq, Repr

namespace Token

/-- Whether a token is the name `word`. -/
def isName (word : String) (t : Token) : Bool :=
  t.kind == .name && t.value == word

/-- The names after which a `/` starts a regular expression, because an operand has to follow. -/
def operandNames : List String :=
  ["node", "and", "or", "in", "if", "elsif", "unless", "case", "when"]

/-- Whether a token ends an operand, so that a `/` after it divides. -/
def endsOperand (t : Token) : Bool :=
  match t.kind with
  | .name => !operandNames.contains t.value
  | .typeName | .variable | .number | .string | .heredoc | .regex => true
  | .operator (.closing .round) | .operator (.closing .square) => true
  | .operator _ => false

end Token

/-- A text cut into tokens, and the place where the text ends. -/
structure Scan where
  tokens : List Token
  stop : Place
deriving DecidableEq, Repr

end ManifestDocs
