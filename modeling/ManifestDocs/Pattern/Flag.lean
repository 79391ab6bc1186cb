/-
Flags in written patterns. Those of the whole pattern are turned on; a group may turn flags on and
off, but says at most once what letters are.
-/
import ManifestDocs.Pattern
import ManifestDocs.Pattern.Sign
import ManifestDocs.Text.Letter

namespace ManifestDocs.Pattern

/-- How a pattern with some flags compares characters. -/
def Flags.alphabet (f : Flags) : Alphabet :=
  ⟨f.ignoreCase, f.basic⟩

/-- A kind of flag. -/
inductive Flag where
  | ignoreCase | multiline | dotAll | verbose | basic | allScripts | template | locale
deriving DecidableEq, Repr

/-- The flag with a letter. -/
def Flag.ofChar? : Char → Option Flag
  | 'i' => some .ignoreCase
  | 'm' => some .multiline
  | 's' => some .dotAll
  | 'x' => some .verbose
  | 'a' => some .basic
  | 'u' => some .allScripts
  | 't' => some .template
  | 'L' => some .locale
  | _ => none

/-- Whether a flag says what letters are. -/
def Flag.isAlphabet : Flag → Bool
  | .basic | .allScripts | .locale => true
  | _ => false

/-- The flags with one flag turned on or off. -/
def Flags.turn (f : Flags) (on : Bool) : Flag → Flags
  | .ignoreCase => { f with ignoreCase := on }
  | .multiline => { f with multiline := on }
  | .dotAll => { f with dotAll := on }
  | .verbose => { f with verbose := on }
  | .basic => { f with basic := on }
  | .allScripts => { f with allScripts := on }
  | .template => { f with template := on }
  | .locale => f

/-- The flags within a group that turns flags on and off. What letters are, the group says anew. -/
def Flags.within (f : Flags) (on off : List Flag) : Flags :=
  let f := if on.any Flag.isAlphabet then { f with basic := false, allScripts := false } else f
  off.foldl (·.turn false) (on.foldl (·.turn true) f)

/-- The problem with a sign that is no flag: `missing` is what would have been right. -/
def noFlag (sign : Sign) (missing : String) : Problem :=
  match sign with
  | .plain c => if Text.isLetter c then .unknownFlag else .unfinishedFlags missing
  | _ => .unfinishedFlags missing

/-- The flag that a sign is. -/
def Sign.flag? : Sign → Option Flag
  | .plain c => Flag.ofChar? c
  | _ => none

/-- Flags to be turned on, the first of which is given, and the sign that ends them. -/
def readFlagsOn : Nat → List Flag → Flag → Reading (List Flag × Char)
  | 0, _, _ => failBack (.unfinishedFlags "-, : or )") 0
  | n + 1, on, flag => do
    if flag = .locale then failBack .localeFlag 0
    else if flag.isAlphabet && on.any (fun f => f.isAlphabet && f != flag) then
      failBack .conflictingFlags 0
    else
      let on := on ++ [flag]
      match ← takeSign with
      | none => failBack (.unfinishedFlags "-, : or )") 0
      | some (.plain ')') => return (on, ')')
      | some (.plain '-') => return (on, '-')
      | some (.plain ':') => return (on, ':')
      | some sign =>
        match sign.flag? with
        | some flag => readFlagsOn n on flag
        | none => failBack (noFlag sign "-, : or )") sign.chars.length

/-- Flags to be turned off, the first of which is given, through the colon. -/
def readFlagsOff : Nat → List Flag → Flag → Reading (List Flag)
  | 0, _, _ => failBack (.unfinishedFlags ":") 0
  | n + 1, off, flag => do
    if flag.isAlphabet then failBack .alphabetOff 0
    else
      let off := off ++ [flag]
      match ← takeSign with
      | none => failBack (.unfinishedFlags ":") 0
      | some (.plain ':') => return off
      | some sign =>
        match sign.flag? with
        | some flag => readFlagsOff n off flag
        | none => failBack (noFlag sign ":") sign.chars.length

/-- Flags to be turned off after the minus. -/
def readFirstFlagOff : Reading (List Flag) := do
  match ← takeSign with
  | none => failBack (.unfinishedFlags "flag") 0
  | some sign =>
    match sign.flag? with
    | some flag => readFlagsOff ((← signsLeft) + 1) [] flag
    | none => failBack (noFlag sign "flag") sign.chars.length

/-- The flags of a group, checked: those to be turned on and those to be turned off. -/
def checkScoped (on off : List Flag) : Reading (List Flag × List Flag) := do
  if off.contains .template then failBack (.globalFlag false) 1
  else if on.any off.contains then failBack .onAndOff 1
  else return (on, off)

/-- Flags after the first sign. Those of the whole pattern are set; those of a group are given. -/
def readFlags (first : Sign) : Reading (Option (List Flag × List Flag)) := do
  match first.flag? with
  | none => some <$> checkScoped [] (← readFirstFlagOff)
  | some flag =>
    let (on, mark) ← readFlagsOn ((← signsLeft) + 1) [] flag
    if mark = ')' then
      modify fun r => { r with flags := on.foldl (·.turn true) r.flags }
      return none
    else if on.contains .template then failBack (.globalFlag true) 1
    else if mark = '-' then some <$> checkScoped on (← readFirstFlagOff)
    else some <$> checkScoped on []

end ManifestDocs.Pattern
