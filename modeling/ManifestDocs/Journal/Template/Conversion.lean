/-
What an argument is put in as. Texts are cut to the precision; whole numbers are written with at
least as many digits as the precision says, in base eight, ten or sixteen; other numbers in figures.
All are padded to the width.
-/
import ManifestDocs.Datum.Display
import ManifestDocs.Datum.Figures
import ManifestDocs.Fault
import ManifestDocs.Journal.Template.Slot

namespace ManifestDocs.Template

/-- How an argument is to be put in. -/
structure Style where
  flags : List Char
  width : Nat
  precision : Option Nat
  conversion : Char
  position : Nat
deriving DecidableEq, Repr

namespace Style

/-- Whether a flag is set. -/
def has (s : Style) (flag : Char) : Bool :=
  s.flags.contains flag

/-- Text padded to the width, on the side that the flags say. -/
def aligned (s : Style) (text : List Char) : List Char :=
  let space := List.replicate (s.width - text.length) ' '
  if s.has '-' then text ++ space else space ++ text

/-- A number padded to the width. Zeros go between its head (a sign and a mark of the base) and its
digits, blanks around both. -/
def alignedNumber (s : Style) (negative : Bool) (mark digits : List Char) : List Char :=
  let sign :=
    if negative then ['-'] else if s.has '+' then ['+'] else if s.has ' ' then [' '] else []
  let head := sign ++ mark
  if s.has '0' && !s.has '-' then
    head ++ List.replicate (s.width - (head.length + digits.length)) '0' ++ digits
  else s.aligned (head ++ digits)

/-- Text cut to the precision and padded. -/
def text (s : Style) (cs : List Char) : List Char :=
  s.aligned (match s.precision with
    | some n => cs.take n
    | none => cs)

/-- The error of an argument of the wrong kind. -/
def mismatch (s : Style) (wanted : String) (d : Datum) : Fault :=
  .badArguments ("%" ++ s.conversion.toString ++ " format: " ++ wanted ++ " is required, not " ++
    d.kindName)

/-- The base that a conversion of whole numbers writes in, and the letter that marks it. -/
def base (s : Style) : Nat × List Char :=
  match s.conversion with
  | 'o' => (8, ['0', 'o'])
  | 'x' => (16, ['0', 'x'])
  | 'X' => (16, ['0', 'X'])
  | _ => (10, [])

/-- A whole number. -/
def whole (s : Style) (n : Int) : List Char :=
  let (base, mark) := s.base
  let digits := Nat.toDigits base n.natAbs
  let digits := List.replicate (s.precision.getD 0 - digits.length) '0' ++ digits
  let digits := if s.conversion = 'X' then digits.map Char.toUpper else digits
  s.alignedNumber (n < 0) (if s.has '#' then mark else []) digits

/-- The integer that an argument stands for; in a base other than ten a fraction does not do. -/
def integer? (s : Style) (d : Datum) : Except Fault Int :=
  let inTen := s.base.1 == 10
  match d with
  | .int n => .ok n
  | .bool b => .ok (if b then 1 else 0)
  | .real written =>
    if inTen then .ok (Real.ofWritten written).truncated else .error (s.mismatch "an integer" d)
  | d => .error (s.mismatch (if inTen then "a real number" else "an integer") d)

/-- The double that an argument stands for. -/
def real? : Datum → Except Fault Real
  | .real written => .ok (Real.ofWritten written)
  | .bool b => .ok (Real.ofInt (if b then 1 else 0))
  | .int n =>
    match Real.ofInt n with
    | .infinite _ => .error (.outOfRange "int too large to convert to float")
    | r => .ok r
  | d => .error (.badArguments ("must be real number, not " ++ d.kindName))

/-- The places of a number in figures unless the precision says otherwise. -/
def defaultPlaces : Nat := 6

/-- A number in figures. -/
def inFigures (s : Style) (form : Real.Form) (r : Real) : List Char :=
  let digits := r.figures form (s.precision.getD defaultPlaces) (s.has '#')
  s.alignedNumber r.isNegative []
    (if s.conversion.isUpper then digits.map Char.toUpper else digits)

/-- The character that an argument stands for: a text of one character or the number of one. -/
def character? : Datum → Except Fault Char
  | .text s =>
    match s.toList with
    | [c] => .ok c
    | _ => .error noCharacter
  | .int n => ofNumber n
  | .bool b => ofNumber (if b then 1 else 0)
  | _ => .error noCharacter
where
  /-- The error of an argument that is no character. -/
  noCharacter : Fault := .badArguments "%c requires int or char"
  /-- The character with a number. -/
  ofNumber (n : Int) : Except Fault Char :=
    if 0 ≤ n && n < 0x110000 then .ok (Char.ofNat n.toNat)
    else .error (.outOfRange "%c arg not in range(0x110000)")

/-- A character beyond the basic Latin ones as an escape. -/
def escaped (c : Char) : List Char :=
  let digits (count : Nat) : List Char :=
    let hex := Nat.toDigits 16 c.toNat
    List.replicate (count - hex.length) '0' ++ hex
  if c.toNat < 0x80 then [c]
  else if c.toNat < 0x100 then '\\' :: 'x' :: digits 2
  else if c.toNat < 0x10000 then '\\' :: 'u' :: digits 4
  else '\\' :: 'U' :: digits 8

/-- The error of an unknown conversion. -/
def unknown (s : Style) : Fault :=
  let c := s.conversion
  let shown := if '\x1f' ≤ c && c ≤ '~' then c else '?'
  .badTemplate ("unsupported format character '" ++ shown.toString ++ "' (0x" ++
    String.ofList (Nat.toDigits 16 c.toNat) ++ ") at index " ++ toString s.position)

/-- What an argument is put in as. -/
def convert (s : Style) (d : Datum) : Except Fault (List Char) :=
  match s.conversion with
  | 's' => .ok (s.text d.shown.toList)
  | 'r' => .ok (s.text d.display)
  | 'a' => .ok (s.text (d.display.flatMap escaped))
  | 'd' | 'i' | 'u' | 'o' | 'x' | 'X' => s.whole <$> s.integer? d
  | 'e' | 'E' => s.inFigures .scientific <$> real? d
  | 'f' | 'F' => s.inFigures .fixed <$> real? d
  | 'g' | 'G' => s.inFigures .general <$> real? d
  | 'c' => (fun c => s.aligned [c]) <$> character? d
  | _ => .error s.unknown

end Style

end ManifestDocs.Template
