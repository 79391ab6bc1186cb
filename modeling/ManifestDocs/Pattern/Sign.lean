/-
The signs of a written pattern and how they are passed one after the other. A backslash and the
character after it are one sign; a backslash at the end is found as soon as the sign before it is
passed. While signs are passed, the groups that were opened and closed are remembered.
-/
import ManifestDocs.Pattern.Problem

namespace ManifestDocs.Pattern

/-- A sign of a written pattern. -/
inductive Sign where
  | plain (c : Char)
  | escaped (c : Char)
  | dangling
deriving DecidableEq, Repr

/-- A sign as it is written. -/
def Sign.chars : Sign → List Char
  | .plain c => [c]
  | .escaped c => ['\\', c]
  | .dangling => ['\\']

/-- The signs of a written pattern from an offset on, each with its own offset. -/
def signsFrom (offset : Nat) : List Char → List (Sign × Nat)
  | [] => []
  | '\\' :: c :: cs => (.escaped c, offset) :: signsFrom (offset + 2) cs
  | c :: cs => (if c = '\\' then .dangling else .plain c, offset) :: signsFrom (offset + 1) cs

/-- The flags of a pattern: whether case counts, whether lines have starts and ends of their own,
whether a dot matches a line break, whether blanks and remarks may stand in the pattern, whether
letters are the basic Latin ones or those of all scripts, and whether nothing may be repeated. -/
structure Flags where
  ignoreCase : Bool := false
  multiline : Bool := false
  dotAll : Bool := false
  verbose : Bool := false
  basic : Bool := false
  allScripts : Bool := false
  template : Bool := false
deriving DecidableEq, Repr

/-- A group: its name if it has one, and the widths of its matches once it is closed. -/
structure Group where
  name : Option (List Char)
  widths : Option (Nat × Nat)
deriving DecidableEq, Repr

/-- What is left of a written pattern, and what was found in it so far. -/
structure Rest where
  signs : List (Sign × Nat)
  length : Nat
  /-- The flags of the whole pattern. -/
  flags : Flags := {}
  /-- The groups in the order of their opening; the first one has the number one. -/
  groups : List Group := []
  /-- How many groups there were when the outermost look behind that is open was opened. -/
  behindFrom : Option Nat := none
  /-- The numbers of groups that conditions ask for, with the place of the first such condition. -/
  asked : List (Nat × Nat) := []

/-- Readings of a written pattern. -/
abbrev Reading := StateT Rest (Except Error)

/-- Fails with a problem at an offset. -/
def fail (problem : Problem) (position : Nat) : Reading α :=
  throw ⟨problem, some position⟩

/-- Fails with a problem that concerns no place. -/
def failAnywhere (problem : Problem) : Reading α :=
  throw ⟨problem, none⟩

/-- The next sign. -/
def peek : Reading (Option Sign) := do
  return (← get).signs.head?.map (·.1)

/-- The offset of the next sign, or of the end. -/
def offset : Reading Nat := do
  let r ← get
  return (r.signs.head?.map (·.2)).getD r.length

/-- Fails with a problem so many characters before the next sign. -/
def failBack (problem : Problem) (back : Nat) : Reading α := do
  fail problem ((← offset) - back)

/-- Leaves the signs `signs` to be read, unless the first is a backslash at the end. -/
def proceed (signs : List (Sign × Nat)) : Reading Unit := do
  match signs with
  | (.dangling, position) :: _ => fail .danglingEscape position
  | _ => modify fun r => { r with signs := signs }

/-- Passes the next sign. -/
def advance : Reading Unit := do
  proceed (← get).signs.tail

/-- Passes the next sign and gives it. -/
def takeSign : Reading (Option Sign) := do
  let sign ← peek
  advance
  return sign

/-- Passes the next sign if it is a plain character. -/
def skip? (c : Char) : Reading Bool := do
  if (← peek) == some (.plain c) then
    advance
    return true
  else return false

/-- Passes up to `n` plain characters that are `ok`, and gives them. -/
def takeChars (ok : Char → Bool) : Nat → Reading (List Char)
  | 0 => return []
  | n + 1 => do
    match ← peek with
    | some (.plain c) =>
      if ok c then
        advance
        return c :: (← takeChars ok n)
      else return []
    | _ => return []

/-- How many signs are left. -/
def signsLeft : Reading Nat := do
  return (← get).signs.length

/-- Passes signs through a mark, and gives the characters before it; there have to be some. `what`
is what they are; the first argument bounds the search. -/
def takeUntil (mark : Char) (what : String) : Nat → List Char → Reading (List Char)
  | 0, before => failBack (.unterminatedName mark) before.length
  | n + 1, before => do
    match ← takeSign with
    | none =>
      if before.isEmpty then failBack (.noName what) 0
      else failBack (.unterminatedName mark) before.length
    | some sign =>
      if sign == .plain mark then
        if before.isEmpty then failBack (.noName what) 1 else return before
      else takeUntil mark what n (before ++ sign.chars)

/-- The characters up to a mark, which is passed. -/
def readName (mark : Char) (what : String) : Reading (List Char) := do
  takeUntil mark what ((← signsLeft) + 1) []

/-! ## Groups -/

/-- The group with a number. -/
def Rest.group? (r : Rest) (number : Nat) : Option Group :=
  if number = 0 then none else r.groups[number - 1]?

/-- The number of the group with a name. -/
def Rest.groupNamed? (r : Rest) (name : List Char) : Option Nat :=
  (r.groups.findIdx? (·.name == some name)).map (· + 1)

/-- Whether a group is closed. -/
def Rest.isClosed (r : Rest) (number : Nat) : Bool :=
  (r.group? number).any (·.widths.isSome)

/-- The widths of the matches of a group. -/
def Rest.widthsOf (r : Rest) (number : Nat) : Nat × Nat :=
  ((r.group? number).bind (·.widths)).getD (0, 0)

/-- Opens a group and gives its number. A name must not be taken. -/
def openGroup (name : Option (List Char)) : Reading Nat := do
  let r ← get
  let number := r.groups.length + 1
  match name with
  | some n =>
    match r.groupNamed? n with
    | some first => failBack (.repeatedGroupName n number first) (n.length + 1)
    | none => pure ()
  | none => pure ()
  set { r with groups := r.groups ++ [Group.mk name none] }
  return number

/-- Closes a group whose matches have some widths. -/
def closeGroup (number : Nat) (widths : Nat × Nat) : Reading Unit :=
  modify fun r =>
    { r with groups := r.groups.modify (number - 1) fun g => { g with widths := some widths } }

/-- Checks that a group may be referred to within a look behind: it has to be closed, and opened
before the look. -/
def checkBehind (number : Nat) : Reading Unit := do
  let r ← get
  match r.behindFrom with
  | none => return
  | some count =>
    if !r.isClosed number then failBack .openReference 0
    else if count < number then failBack .ownReference 0
    else return

end ManifestDocs.Pattern
