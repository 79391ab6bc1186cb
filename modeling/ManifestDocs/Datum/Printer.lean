/-
The written form of data: one line of basic Latin characters, with a blank after each comma and
colon. Every other character is escaped by its code units.
-/
import ManifestDocs.Datum

namespace ManifestDocs.Datum

/-- Four hexadecimal digits, in small letters. -/
def hex4 (n : Nat) : List Char :=
  let digits := Nat.toDigits 16 n
  List.replicate (4 - digits.length) '0' ++ digits

/-- A code unit as an escape. -/
def escapeUnit (n : Nat) : List Char :=
  '\\' :: 'u' :: hex4 n

/-- A character within a written text. Beyond the basic plane two code units stand for it. -/
def writeChar (c : Char) : List Char :=
  if c = '"' then ['\\', '"']
  else if c = '\\' then ['\\', '\\']
  else if c = '\n' then ['\\', 'n']
  else if c = '\r' then ['\\', 'r']
  else if c = '\t' then ['\\', 't']
  else if c = '\x08' then ['\\', 'b']
  else if c = '\x0c' then ['\\', 'f']
  else if 32 ≤ c.toNat && c.toNat < 127 then [c]
  else if c.toNat < 0x10000 then escapeUnit c.toNat
  else
    let n := c.toNat - 0x10000
    escapeUnit (0xD800 + n / 0x400) ++ escapeUnit (0xDC00 + n % 0x400)

/-- A text in double quotes. -/
def writeText (s : String) : List Char :=
  '"' :: s.toList.flatMap writeChar ++ ['"']

/-- Puts `, ` between the parts. -/
def commaSeparated (parts : List (List Char)) : List Char :=
  List.intercalate [',', ' '] parts

mutual

/-- The written form of a datum. -/
def write : Datum → List Char
  | .null => "null".toList
  | .bool true => "true".toList
  | .bool false => "false".toList
  | .int n => (toString n).toList
  | .real written => written.toList
  | .text s => writeText s
  | .list items => '[' :: commaSeparated (writeItems items) ++ [']']
  | .object fields => '\x7b' :: commaSeparated (writeFields fields) ++ ['\x7d']

/-- The written forms of the items of a list. -/
def writeItems : List Datum → List (List Char)
  | [] => []
  | d :: ds => write d :: writeItems ds

/-- The written forms of the fields of an object, each after its name and a colon. -/
def writeFields : List (String × Datum) → List (List Char)
  | [] => []
  | (name, d) :: ds => (writeText name ++ ':' :: ' ' :: write d) :: writeFields ds

end

/-- The written form of a datum. -/
def written (d : Datum) : String :=
  String.ofList d.write

end ManifestDocs.Datum
