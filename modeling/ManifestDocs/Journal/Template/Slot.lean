/-
Templates of messages as pieces: characters, and slots for arguments. A slot is a percent sign, a
key in brackets, flags, a width, a precision after a point, a letter for the length that says
nothing, and the character of the conversion; all but the last may be missing. A slot that the text
ends in has no conversion.
-/

namespace ManifestDocs.Template

/-- The key of an argument in a slot. -/
inductive Key where
  | absent
  | unclosed
  | named (name : List Char)
deriving DecidableEq, Repr

/-- A width or a precision: none, a number, or what an argument says. -/
inductive Size where
  | absent
  | given (n : Nat)
  | asked
deriving DecidableEq, Repr

/-- A place for an argument. -/
structure Slot where
  key : Key
  flags : List Char
  width : Size
  precision : Size
  conversion : Option Char
  /-- Where in the template the conversion stands. -/
  position : Nat
deriving DecidableEq, Repr

/-- A piece of a template. -/
inductive Piece where
  | char (c : Char)
  | slot (s : Slot)
deriving DecidableEq, Repr

/-- Whether a character is a flag. -/
def isFlag (c : Char) : Bool :=
  c == '-' || c == '+' || c == ' ' || c == '#' || c == '0'

/-- Whether a character says how long a number is. -/
def isLengthMark (c : Char) : Bool :=
  c == 'h' || c == 'l' || c == 'L'

/-- A key up to the bracket that closes it, and what follows. -/
def readKeyName (depth : Nat) : List Char → Option (List Char × List Char)
  | [] => none
  | c :: cs =>
    if c = ')' && depth = 0 then some ([], cs)
    else
      let depth := if c = ')' then depth - 1 else if c = '(' then depth + 1 else depth
      (readKeyName depth cs).map fun (name, rest) => (c :: name, rest)

/-- A key. Nothing follows one that is not closed. -/
def readKey : List Char → Key × List Char
  | '(' :: cs =>
    match readKeyName 0 cs with
    | some (name, rest) => (.named name, rest)
    | none => (.unclosed, [])
  | cs => (.absent, cs)

/-- The value of decimal digits. -/
def numberOf (digits : List Char) : Nat :=
  digits.foldl (fun n c => n * 10 + (c.toNat - 48)) 0

/-- A width; `fallback` is what there is without one. -/
def readSize (fallback : Size) : List Char → Size × List Char
  | '*' :: cs => (.asked, cs)
  | cs =>
    match cs.takeWhile Char.isDigit with
    | [] => (fallback, cs)
    | digits => (.given (numberOf digits), cs.dropWhile Char.isDigit)

/-- A precision. A point alone is the precision zero. -/
def readPrecision : List Char → Size × List Char
  | '.' :: cs => readSize (.given 0) cs
  | cs => (.absent, cs)

/-- What follows a mark for the length. -/
def skipLengthMark : List Char → List Char
  | c :: cs => if isLengthMark c then cs else c :: cs
  | [] => []

/-- A slot after its percent sign in a template of some size, and what follows. -/
def readSlot (size : Nat) (cs : List Char) : Slot × List Char :=
  let (key, cs) := readKey cs
  let flags := cs.takeWhile isFlag
  let (width, cs) := readSize .absent (cs.dropWhile isFlag)
  let (precision, cs) := readPrecision cs
  let cs := skipLengthMark cs
  (⟨key, flags, width, precision, cs.head?, size - cs.length⟩, cs.drop 1)

/-! ## A slot takes nothing from what follows -/

theorem length_dropWhile_le (p : Char → Bool) (cs : List Char) :
    (cs.dropWhile p).length ≤ cs.length :=
  (List.dropWhile_sublist p).length_le

theorem readKeyName_length {depth : Nat} {cs name rest : List Char}
    (h : readKeyName depth cs = some (name, rest)) : rest.length ≤ cs.length := by
  induction cs generalizing depth name with
  | nil => simp [readKeyName] at h
  | cons c cs ih =>
    simp only [readKeyName] at h
    split at h
    · simp_all
    · obtain ⟨⟨n, r⟩, hr, he⟩ := Option.map_eq_some_iff.1 h
      simp only [Prod.mk.injEq] at he
      have := ih (he.2 ▸ hr)
      simp only [List.length_cons]
      omega

theorem readKey_length (cs : List Char) : (readKey cs).2.length ≤ cs.length := by
  unfold readKey
  split
  · split
    · rename_i h
      have := readKeyName_length h
      simp only [List.length_cons]
      omega
    · simp
  · simp

theorem readSize_length (fallback : Size) (cs : List Char) :
    (readSize fallback cs).2.length ≤ cs.length := by
  unfold readSize
  split
  · simp
  · split
    · simp
    · exact length_dropWhile_le _ _

theorem readPrecision_length (cs : List Char) : (readPrecision cs).2.length ≤ cs.length := by
  unfold readPrecision
  split
  · have := readSize_length (.given 0) (by assumption)
    simp only [List.length_cons]
    omega
  · simp

theorem skipLengthMark_length (cs : List Char) : (skipLengthMark cs).length ≤ cs.length := by
  unfold skipLengthMark
  split
  · split <;> simp
  · simp

theorem readSlot_length (size : Nat) (cs : List Char) :
    (readSlot size cs).2.length ≤ cs.length := by
  simp only [readSlot, List.length_drop]
  have h1 := readKey_length cs
  have h2 := length_dropWhile_le isFlag (readKey cs).2
  have h3 := readSize_length .absent ((readKey cs).2.dropWhile isFlag)
  have h4 := readPrecision_length (readSize .absent ((readKey cs).2.dropWhile isFlag)).2
  have h5 := skipLengthMark_length
    (readPrecision (readSize .absent ((readKey cs).2.dropWhile isFlag)).2).2
  omega

/-! ## Templates -/

/-- The pieces of the rest of a template of some size. A doubled percent sign stands for itself. -/
def piecesFrom (size : Nat) : List Char → List Piece
  | [] => []
  | '%' :: '%' :: cs => .char '%' :: piecesFrom size cs
  | '%' :: cs =>
    have := readSlot_length size cs
    .slot (readSlot size cs).1 :: piecesFrom size (readSlot size cs).2
  | c :: cs => .char c :: piecesFrom size cs
termination_by cs => cs.length

/-- The pieces of a template. -/
def pieces (template : List Char) : List Piece :=
  piecesFrom template.length template

end ManifestDocs.Template
