/-
Integers as people write them into settings. Blanks may stand around the number, a plus or zeros
before it, a point and zeros behind it, and single underscores between its digits. A text that
starts with more digits than an integer may have is too long, whatever follows.
-/
import ManifestDocs.Text.Integer

namespace ManifestDocs.Text.Loose

/-- What a text says. -/
inductive Reading where
  | integer (n : Int)
  | unreadable
  | tooLong
deriving DecidableEq, Repr

/-- The value of decimal digits. -/
def value (digits : List Char) : Nat :=
  decimalNumber (digits.map fun c => c.toNat - 48)

/-- Whether digits stand for a number: there are some, and only a zero by itself starts with one. -/
def isNumeral : List Char → Bool
  | ['0'] => true
  | '0' :: _ => false
  | cs => !cs.isEmpty && cs.all Char.isDigit

/-- The integer that a plain text says: digits with a minus or nothing before them. -/
def plain? : List Char → Option Int
  | '-' :: cs => if isNumeral cs then some (-(value cs : Int)) else none
  | cs => if isNumeral cs then some (value cs) else none

/-- Whether digits that do not start with a zero, with a minus or nothing before them, are too many
at the start of a text. The sign counts. -/
def startsTooLong : List Char → Bool
  | '-' :: cs =>
    let digits := cs.takeWhile Char.isDigit
    digits.head? != some '0' && digits.length + 1 > maxIntegerDigits
  | cs =>
    let digits := cs.takeWhile Char.isDigit
    digits.head? != some '0' && digits.length > maxIntegerDigits

/-- The text without a plus; a minus must not follow it. -/
def dropPlus : List Char → Option (List Char)
  | '+' :: '-' :: _ => none
  | '+' :: cs => some cs
  | cs => some cs

/-- What follows zeros and underscores, the last of which is given: a digit or a minus ends them,
and of a point and what comes before it the last character stays. -/
def afterZeros (last : Char) : List Char → Option (List Char)
  | [] => some [last]
  | c :: cs =>
    if c = '0' || c = '_' then afterZeros c cs
    else if c.isDigit || c = '-' then some (c :: cs)
    else if c = '.' then some (last :: c :: cs)
    else none

/-- The text without the zeros it starts with. -/
def dropZeros : List Char → Option (List Char)
  | [] => none
  | c :: cs =>
    if c = '0' then afterZeros c cs
    else if c.isDigit || c = '-' then some (c :: cs)
    else none

/-- The text without the zeros before its digits; a minus stays. -/
def dropLeadingZeros : List Char → Option (List Char)
  | '-' :: cs => (dropZeros cs).map ('-' :: ·)
  | cs => dropZeros cs

/-- The text without a point and zeros at its end. -/
def dropZeroFraction (cs : List Char) : List Char :=
  let whole := cs.takeWhile (· != '.')
  let fraction := cs.drop (whole.length + 1)
  if !fraction.isEmpty && fraction.all (· == '0') then whole else cs

/-- Whether two underscores stand side by side. -/
def hasDouble : List Char → Bool
  | '_' :: '_' :: _ => true
  | _ :: cs => hasDouble cs
  | [] => false

/-- The text without its underscores, if each stands by itself between others. -/
def dropUnderscores (cs : List Char) : List Char :=
  if cs.head? == some '_' || cs.getLast? == some '_' || hasDouble cs then cs
  else cs.filter (· != '_')

/-- The plain text that a text comes down to. -/
def clean? (cs : List Char) : Option (List Char) := do
  let unsigned ← dropPlus (trimAround cs)
  let bare ← dropLeadingZeros unsigned
  return dropUnderscores (dropZeroFraction bare)

/-- The integer that a text says. -/
def read (cs : List Char) : Reading :=
  if startsTooLong cs then .tooLong
  else
    match (plain? cs).or ((clean? cs).bind fun c => if startsTooLong c then none else plain? c) with
    | some n => .integer n
    | none => .unreadable

end ManifestDocs.Text.Loose
