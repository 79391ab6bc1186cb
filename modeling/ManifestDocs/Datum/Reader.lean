/-
Reading data from JSON text. Blanks may stand between all parts; in an object that names a field
twice the last value counts, at the place of the first; an integer has at most 4300 digits.
-/
import ManifestDocs.Datum

namespace ManifestDocs.Datum

/-- The most digits an integer may be written with. -/
def maxDigits : Nat := 4300

/-- Whether a character may stand between the parts of a text. -/
def isSpace (c : Char) : Bool :=
  c == ' ' || c == '\t' || c == '\n' || c == '\r'

/-- The text without the blanks it starts with. -/
def skipSpace (cs : List Char) : List Char :=
  cs.dropWhile isSpace

/-! ## Texts -/

/-- The value of a hexadecimal digit. -/
def hexValue? (c : Char) : Option Nat :=
  if '0' ≤ c && c ≤ '9' then some (c.toNat - 48)
  else if 'a' ≤ c && c ≤ 'f' then some (c.toNat - 87)
  else if 'A' ≤ c && c ≤ 'F' then some (c.toNat - 55)
  else none

/-- The code unit that four hexadecimal digits stand for. -/
def unit? (a b c d : Char) : Option Nat := do
  return (((← hexValue? a) * 16 + (← hexValue? b)) * 16 + (← hexValue? c)) * 16 + (← hexValue? d)

/-- The character an escape of one letter stands for. -/
def shortEscape? : Char → Option Char
  | '"' => some '"'
  | '\\' => some '\\'
  | '/' => some '/'
  | 'b' => some '\x08'
  | 'f' => some '\x0c'
  | 'n' => some '\n'
  | 'r' => some '\r'
  | 't' => some '\t'
  | _ => none

/-- Whether a code unit is the first of a pair. -/
def isHighUnit (n : Nat) : Bool :=
  0xD800 ≤ n && n < 0xDC00

/-- Whether a code unit is the second of a pair. -/
def isLowUnit (n : Nat) : Bool :=
  0xDC00 ≤ n && n < 0xE000

/-- The character that a pair of code units stands for. -/
def pairedChar (high low : Nat) : Char :=
  Char.ofNat (0x10000 + (high - 0xD800) * 0x400 + (low - 0xDC00))

/-- The character that a code unit stands for; half a pair stands for the replacement character. -/
def unitChar (n : Nat) : Char :=
  if isHighUnit n || isLowUnit n then '\uFFFD' else Char.ofNat n

/-- The rest of a text in double quotes, and what follows its closing quote. -/
def readText : List Char → Option (List Char × List Char)
  | '"' :: cs => some ([], cs)
  | '\\' :: 'u' :: a :: b :: c :: d :: '\\' :: 'u' :: e :: f :: g :: h :: cs =>
    match unit? a b c d, unit? e f g h with
    | some high, some low =>
      if isHighUnit high && isLowUnit low then
        (readText cs).map fun (chars, rest) => (pairedChar high low :: chars, rest)
      else
        (readText ('\\' :: 'u' :: e :: f :: g :: h :: cs)).map fun (chars, rest) =>
          (unitChar high :: chars, rest)
    | _, _ => none
  | '\\' :: 'u' :: a :: b :: c :: d :: cs =>
    match unit? a b c d with
    | some n => (readText cs).map fun (chars, rest) => (unitChar n :: chars, rest)
    | none => none
  | '\\' :: c :: cs =>
    match shortEscape? c with
    | some x => (readText cs).map fun (chars, rest) => (x :: chars, rest)
    | none => none
  | c :: cs =>
    if c = '\\' || c.toNat < 32 then none
    else (readText cs).map fun (chars, rest) => (c :: chars, rest)
  | [] => none

/-! ## Numbers -/

/-- The value of decimal digits. -/
def digitsValue (digits : List Char) : Nat :=
  digits.foldl (fun n c => n * 10 + (c.toNat - 48)) 0

/-- The integer part of a number: a zero, or digits that do not start with one. -/
def readWhole : List Char → Option (List Char × List Char)
  | '0' :: cs => some (['0'], cs)
  | cs =>
    match cs.takeWhile Char.isDigit with
    | [] => none
    | digits => some (digits, cs.dropWhile Char.isDigit)

/-- The fraction of a number, empty if there is none. -/
def readFraction : List Char → List Char × List Char
  | '.' :: cs =>
    match cs.takeWhile Char.isDigit with
    | [] => ([], '.' :: cs)
    | digits => ('.' :: digits, cs.dropWhile Char.isDigit)
  | cs => ([], cs)

/-- The sign and the digits of an exponent. -/
def readPower : List Char → List Char × List Char
  | '+' :: cs => ('+' :: cs.takeWhile Char.isDigit, cs.dropWhile Char.isDigit)
  | '-' :: cs => ('-' :: cs.takeWhile Char.isDigit, cs.dropWhile Char.isDigit)
  | cs => (cs.takeWhile Char.isDigit, cs.dropWhile Char.isDigit)

/-- The exponent of a number, empty if there is none. -/
def readExponent : List Char → List Char × List Char
  | c :: cs =>
    let (power, rest) := readPower cs
    if (c = 'e' || c = 'E') && power.any Char.isDigit then (c :: power, rest) else ([], c :: cs)
  | [] => ([], [])

/-- A number after its sign. One without fraction and exponent is an integer. -/
def readUnsigned (negative : Bool) (cs : List Char) : Option (Datum × List Char) := do
  let (whole, rest) ← readWhole cs
  let (fraction, rest) := readFraction rest
  let (exponent, rest) := readExponent rest
  if fraction.isEmpty && exponent.isEmpty then
    if whole.length > maxDigits then none
    else
      let n : Int := digitsValue whole
      some (.int (if negative then -n else n), rest)
  else
    let sign := if negative then ['-'] else []
    some (.real (String.ofList (sign ++ whole ++ fraction ++ exponent)), rest)

/-- A number. -/
def readNumber : List Char → Option (Datum × List Char)
  | '-' :: cs => readUnsigned true cs
  | cs => readUnsigned false cs

/-! ## Values -/

/-- The words that stand for data. -/
def constants : List (String × Datum) :=
  [("null", .null), ("true", .bool true), ("false", .bool false), ("NaN", .real "NaN"),
   ("Infinity", .real "Infinity"), ("-Infinity", .real "-Infinity")]

/-- A datum that a word stands for. -/
def readConstant (cs : List Char) : Option (Datum × List Char) :=
  (constants.find? fun c => c.1.toList.isPrefixOf cs).map fun c => (c.2, cs.drop c.1.length)

mutual

/-- A value at the start of a text. The first argument bounds the depth of the search. -/
def readValue : Nat → List Char → Option (Datum × List Char)
  | 0, _ => none
  | fuel + 1, cs =>
    match cs with
    | '"' :: cs => (readText cs).map fun (chars, rest) => (.text (String.ofList chars), rest)
    | '[' :: cs =>
      match skipSpace cs with
      | ']' :: rest => some (.list [], rest)
      | cs => (readItems fuel cs).map fun (items, rest) => (.list items, rest)
    | '\x7b' :: cs =>
      match skipSpace cs with
      | '\x7d' :: rest => some (.object [], rest)
      | cs =>
        (readFields fuel cs).map fun (fields, rest) => (.object (Assoc.putAll [] fields), rest)
    | cs => (readConstant cs).or (readNumber cs)

/-- The items of a list, through its closing bracket. -/
def readItems : Nat → List Char → Option (List Datum × List Char)
  | 0, _ => none
  | fuel + 1, cs =>
    match readValue fuel cs with
    | none => none
    | some (d, rest) =>
      match skipSpace rest with
      | ']' :: rest => some ([d], rest)
      | ',' :: rest => (readItems fuel (skipSpace rest)).map fun (ds, rest) => (d :: ds, rest)
      | _ => none

/-- The fields of an object, through its closing brace. -/
def readFields : Nat → List Char → Option (List (String × Datum) × List Char)
  | 0, _ => none
  | fuel + 1, cs =>
    match cs with
    | '"' :: cs =>
      match readText cs with
      | none => none
      | some (name, rest) =>
        match skipSpace rest with
        | ':' :: rest =>
          match readValue fuel (skipSpace rest) with
          | none => none
          | some (d, rest) =>
            match skipSpace rest with
            | '\x7d' :: rest => some ([(String.ofList name, d)], rest)
            | ',' :: rest =>
              (readFields fuel (skipSpace rest)).map fun (ds, rest) =>
                ((String.ofList name, d) :: ds, rest)
            | _ => none
        | _ => none
    | _ => none

end

/-- The datum that a whole text says. -/
def ofJson? (text : String) : Option Datum :=
  let cs := skipSpace text.toList
  match readValue (2 * cs.length + 2) cs with
  | some (d, rest) => if (skipSpace rest).isEmpty then some d else none
  | none => none

end ManifestDocs.Datum
