/-
Integers from text. Blanks other than the information separators may stand around the number, and a
sign before it; its digits may be those of any script, with single underscores between them.
-/
import ManifestDocs.Text.Blank
import ManifestDocs.Text.Numeral
import ManifestDocs.Text.Quoted

namespace ManifestDocs.Text

/-- Why a text is not an integer. -/
inductive IntegerError where
  | malformed (text : List Char)
  | tooLong (digits : Nat)
deriving DecidableEq, Repr

/-- The most digits an integer may be written with. -/
def maxIntegerDigits : Nat := 4300

/-- How much of a malformed text is shown. -/
def malformedExcerpt : Nat := 200

/-- The wording of an integer error. -/
def IntegerError.message : IntegerError → String
  | .malformed text =>
    "invalid literal for int() with base 10: " ++
      String.ofList ((quoted text).take malformedExcerpt)
  | .tooLong digits =>
    "Exceeds the limit (" ++ toString maxIntegerDigits ++
      " digits) for integer string conversion: value has " ++ toString digits ++
      " digits; use sys.set_int_max_str_digits() to increase the limit"

/-- The values of the digits a text starts with, single underscores between them left out, and the
rest of the text. -/
def leadingDigits : List Char → List Nat × List Char
  | [] => ([], [])
  | '_' :: c :: cs =>
    match decimalValue? c with
    | some n =>
      let (digits, rest) := leadingDigits cs
      (n :: digits, rest)
    | none => ([], '_' :: c :: cs)
  | c :: cs =>
    match decimalValue? c with
    | some n =>
      let (digits, rest) := leadingDigits cs
      (n :: digits, rest)
    | none => ([], c :: cs)

/-- The number that decimal digits stand for. -/
def decimalNumber (digits : List Nat) : Nat :=
  digits.foldl (fun n d => n * 10 + d) 0

/-- Whether a text is negative, and the text without its sign. -/
def splitSign : List Char → Bool × List Char
  | '-' :: cs => (true, cs)
  | '+' :: cs => (false, cs)
  | cs => (false, cs)

/-- Whether a character may stand around an integer. -/
def isAroundInteger (c : Char) : Bool :=
  isBlank c && !(28 ≤ c.toNat && c.toNat ≤ 31)

/-- The text without what stands around it. -/
def trimAround (cs : List Char) : List Char :=
  ((cs.dropWhile isAroundInteger).reverse.dropWhile isAroundInteger).reverse

/-- The integer that a text says. -/
def readInteger (text : List Char) : Except IntegerError Int :=
  let (negative, body) := splitSign (trimAround text)
  let (digits, rest) := leadingDigits body
  if digits.isEmpty || body.head? == some '_' || rest.head? == some '_' then
    .error (.malformed text)
  else if digits.length > maxIntegerDigits then .error (.tooLong digits.length)
  else if !rest.isEmpty then .error (.malformed text)
  else
    let n : Int := decimalNumber digits
    .ok (if negative then -n else n)

end ManifestDocs.Text
