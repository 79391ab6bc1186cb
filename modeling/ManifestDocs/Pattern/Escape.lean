/-
Escapes in written patterns: control characters, characters by their number or their name, classes,
anchors, and references to groups. After a backslash a letter without a meaning is an error; other
characters stand for themselves.
-/
import ManifestDocs.Pattern
import ManifestDocs.Pattern.Sign
import ManifestDocs.Text.CharName

namespace ManifestDocs.Pattern

/-- The code points that an escape of one letter stands for. -/
def controlEscape? : Char → Option Nat
  | 'a' => some 7
  | 'b' => some 8
  | 'f' => some 12
  | 'n' => some 10
  | 'r' => some 13
  | 't' => some 9
  | 'v' => some 11
  | '\\' => some 92
  | _ => none

/-- The class of characters that an escape names. -/
def classEscape? : Char → Option Member
  | 'd' => some (.inClass .digit)
  | 'D' => some (.outsideClass .digit)
  | 's' => some (.inClass .blank)
  | 'S' => some (.outsideClass .blank)
  | 'w' => some (.inClass .word)
  | 'W' => some (.outsideClass .word)
  | _ => none

/-- The anchor that an escape names. -/
def anchorEscape? (basic : Bool) : Char → Option Anchor
  | 'A' => some .textStart
  | 'Z' => some .textEnd
  | 'b' => some (.boundary basic false)
  | 'B' => some (.boundary basic true)
  | _ => none

/-- The value of a digit in a base up to sixteen. -/
def digitValue (c : Char) : Nat :=
  if c.isDigit then c.toNat - 48 else if c.isLower then c.toNat - 87 else c.toNat - 55

/-- The value of digits in a base. -/
def valueIn (base : Nat) (digits : List Char) : Nat :=
  digits.foldl (fun n c => n * base + digitValue c) 0

/-- Whether a character is a hexadecimal digit. -/
def isHexDigit (c : Char) : Bool :=
  c.isDigit || ('a' ≤ c && c ≤ 'f') || ('A' ≤ c && c ≤ 'F')

/-- Whether a character is an octal digit. -/
def isOctalDigit (c : Char) : Bool :=
  '0' ≤ c && c ≤ '7'

/-- The greatest value of an octal escape. -/
def maxOctal : Nat := 255

/-- The number of code points. -/
def codeLimit : Nat := 0x110000

/-- The code point that exactly `count` hexadecimal digits after a letter say. -/
def readHexEscape (letter : Char) (count : Nat) : Reading Nat := do
  let digits ← takeChars isHexDigit count
  let written := '\\' :: letter :: digits
  if digits.length < count then failBack (.unfinishedEscape written) written.length
  else
    let n := valueIn 16 digits
    if n < codeLimit then return n else failBack (.badEscape written) written.length

/-- The code point of the character whose name is in braces. -/
def readNamedEscape : Reading Nat := do
  if !(← skip? '\x7b') then failBack .noNameBrace 0
  else
    let name ← readName '\x7d' "character name"
    match Text.charNamed? name with
    | some c => return c.toNat
    | none => failBack (.unknownCharName name) (name.length + 4)

/-- The code point of an octal escape that starts with some digits. -/
def octalEscape (digits : List Char) : Reading Nat := do
  let n := valueIn 8 digits
  if n ≤ maxOctal then return n
  else failBack (.octalRange ('\\' :: digits)) (digits.length + 1)

/-- The code point that an escape by number or by name stands for, if it is one. -/
def readCodeEscape? : Char → Reading (Option Nat)
  | 'x' => some <$> readHexEscape 'x' 2
  | 'u' => some <$> readHexEscape 'u' 4
  | 'U' => some <$> readHexEscape 'U' 8
  | 'N' => some <$> readNamedEscape
  | _ => return none

/-- The code point that a character after a backslash stands for without any further meaning. -/
def readPlainEscape (c : Char) : Reading Nat :=
  if c.isAlphanum then failBack (.badEscape ['\\', c]) 2 else return c.toNat

/-- The member that an escape stands for within a set. -/
def readMemberEscape (c : Char) : Reading Member := do
  match controlEscape? c, classEscape? c with
  | some n, _ => return .single n
  | none, some m => return m
  | none, none =>
    match ← readCodeEscape? c with
    | some n => return .single n
    | none =>
      if isOctalDigit c then return .single (← octalEscape (c :: (← takeChars isOctalDigit 2)))
      else return .single (← readPlainEscape c)

/-- A reference to a group by the digits of its number. -/
def readReference (a : Alphabet) (digits : List Char) : Reading Pattern := do
  let number := valueIn 10 digits
  let r ← get
  if r.groups.length < number then failBack (.badReference number) digits.length
  else if !r.isClosed number then failBack .openReference (digits.length + 1)
  else
    checkBehind number
    return .reference a number

/-- The pattern for an escape that starts with a digit: three octal digits are a character, and so
is a zero with up to two more; anything else is a reference. -/
def readDigitEscape (a : Alphabet) (c : Char) : Reading Pattern := do
  let char (n : Nat) : Pattern := .oneOf (.single a n)
  if c = '0' then return char (valueIn 8 (← takeChars isOctalDigit 2))
  else
    let second ← takeChars Char.isDigit 1
    if isOctalDigit c && second.any isOctalDigit then
      match ← takeChars isOctalDigit 1 with
      | [] => readReference a (c :: second)
      | third => return char (← octalEscape (c :: second ++ third))
    else readReference a (c :: second)

/-- The pattern for the escape of a character outside a set. -/
def readEscape (a : Alphabet) (c : Char) : Reading Pattern := do
  match anchorEscape? a.basic c, classEscape? c, controlEscape? c with
  | some place, _, _ => return .anchor place
  | none, some m, _ => return .oneOf (.ofMember a m)
  | none, none, some n => return .oneOf (.single a n)
  | none, none, none =>
    match ← readCodeEscape? c with
    | some n => return .oneOf (.single a n)
    | none =>
      if c.isDigit then readDigitEscape a c
      else return .oneOf (.single a (← readPlainEscape c))

end ManifestDocs.Pattern
