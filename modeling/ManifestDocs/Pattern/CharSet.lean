/-
Sets of characters in patterns. A set lists characters, ranges and classes, or what is outside them;
it may take characters of either case for each other, and it may know the basic Latin letters only.
-/
import ManifestDocs.Text.Blank
import ManifestDocs.Text.CaseAgreement
import ManifestDocs.Text.WordChar

namespace ManifestDocs.Pattern

open ManifestDocs.Text

/-- The classes of characters that an escape names. -/
inductive CharClass where
  | digit | blank | word
deriving DecidableEq, Repr

/-- Whether a character is of a class; if `basic` is set, only basic Latin characters are. -/
def CharClass.has (basic : Bool) (cls : CharClass) (c : Char) : Bool :=
  (!basic || c.toNat < 128 && !(28 ≤ c.toNat && c.toNat ≤ 31)) &&
    match cls with
    | .digit => isDecimal c
    | .blank => isBlank c
    | .word => isWordChar c

/-- A member of a set: a code point, a range, or a class or what is outside it. -/
inductive Member where
  | single (code : Nat)
  | range (first last : Nat)
  | inClass (c : CharClass)
  | outsideClass (c : CharClass)
deriving DecidableEq, Repr

/-- How characters are compared: whether case counts, and whether only the basic Latin letters have
case and are of a class. -/
structure Alphabet where
  caseless : Bool := false
  basic : Bool := false
deriving DecidableEq, Repr

/-- The form in which a code point is compared. -/
def Alphabet.form (a : Alphabet) (n : Nat) : Nat :=
  if !a.caseless then n else if a.basic then basicLower n else lowerCode n

/-- The code points that are taken for one in its form. -/
def Alphabet.variants (a : Alphabet) (n : Nat) : List Nat :=
  if !a.caseless then [n] else if a.basic then basicAgreeing n else agreeing n

/-- The last code point of the basic plane. -/
def basicPlaneEnd : Nat := 0xFFFF

/-- Whether a range covers a code point in its form. In the basic plane one of its variants has to
be there, beyond it the form or its upper case. -/
def Alphabet.rangeHas (a : Alphabet) (first last n : Nat) : Bool :=
  (a.variants n).any (fun m => first ≤ m && m ≤ last && (!a.caseless || m ≤ basicPlaneEnd)) ||
    (a.caseless && basicPlaneEnd < last &&
      ((first ≤ n && n ≤ last) || (first ≤ upperCode n && upperCode n ≤ last)))

/-- Whether a character by itself is taken for a code point in its form. -/
def Alphabet.agrees (a : Alphabet) (code n : Nat) : Bool :=
  (a.variants n).contains code

/-- Whether a member of a set covers a character, whose form is given too. -/
def Member.has (a : Alphabet) (c : Char) (n : Nat) : Member → Bool
  | .single code => if code ≤ basicPlaneEnd then a.agrees code n else code == n
  | .range first last => a.rangeHas first last n
  | .inClass cls => cls.has a.basic c
  | .outsideClass cls => !cls.has a.basic c

/-- A set of characters. -/
structure CharSet where
  alphabet : Alphabet
  negated : Bool
  members : List Member
deriving DecidableEq, Repr

namespace CharSet

/-- Whether the members of a set cover a character. A character that is the only member may be
written in any case, wherever it is. -/
def covers (s : CharSet) (c : Char) : Bool :=
  let n := s.alphabet.form c.toNat
  match s.members with
  | [.single code] => s.alphabet.agrees code n
  | members => members.any (Member.has s.alphabet c n)

/-- Whether a character is in a set. -/
def has (s : CharSet) (c : Char) : Bool :=
  s.covers c != s.negated

/-- The set of one character. -/
def single (a : Alphabet) (code : Nat) : CharSet :=
  ⟨a, false, [.single code]⟩

/-- The set of a class or of what is outside it. -/
def ofMember (a : Alphabet) (m : Member) : CharSet :=
  ⟨a, false, [m]⟩

/-- The set of all characters, line breaks included or not. -/
def any (withBreaks : Bool) : CharSet :=
  ⟨{}, true, if withBreaks then [] else [.single 10]⟩

end CharSet

end ManifestDocs.Pattern
