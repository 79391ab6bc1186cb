/-
Characters that agree when case does not count: those with the same lower case, and those whose
lower cases have the same upper case.
-/
import ManifestDocs.Text.LetterCase

namespace ManifestDocs.Text

/-- The small letters that share an upper case, beyond the pairs of one small and one capital
letter. -/
def sharedUpper : List (List Nat) :=
  [[0x69, 0x131], [0x73, 0x17F], [0xB5, 0x3BC], [0x345, 0x3B9, 0x1FBE], [0x390, 0x1FD3],
   [0x3B0, 0x1FE3], [0x3B2, 0x3D0], [0x3B5, 0x3F5], [0x3B8, 0x3D1], [0x3BA, 0x3F0], [0x3C0, 0x3D6],
   [0x3C1, 0x3F1], [0x3C2, 0x3C3], [0x3C6, 0x3D5], [0x432, 0x1C80], [0x434, 0x1C81],
   [0x43E, 0x1C82], [0x441, 0x1C83], [0x442, 0x1C84, 0x1C85], [0x44A, 0x1C86], [0x463, 0x1C87],
   [0x1C88, 0xA64B], [0x1E61, 0x1E9B], [0xFB05, 0xFB06]]

/-- The small letters with the upper case of a small letter, itself included. -/
def smallVariants (n : Nat) : List Nat :=
  (sharedUpper.find? (·.contains n)).getD [n]

/-- The code point that a run moves to another one. -/
def CaseRun.source? (r : CaseRun) (n : Nat) : Option Nat :=
  let m := (Int.ofNat n - r.shift).toNat
  if r.covers m && Int.ofNat m + r.shift == Int.ofNat n then some m else none

/-- The code points with a lower case. -/
def lowerSources (n : Nat) : List Nat :=
  (if lowerCode n = n then [n] else []) ++ (if 97 ≤ n && n ≤ 122 then [n - 32] else []) ++
    lowerRuns.filterMap (·.source? n)

/-- The code points that agree with a small letter. -/
def agreeing (n : Nat) : List Nat :=
  (smallVariants n).flatMap lowerSources

/-- The lower case of one code point among the basic Latin letters; others stay. -/
def basicLower (n : Nat) : Nat :=
  if 65 ≤ n && n ≤ 90 then n + 32 else n

/-- The code points whose lower case among the basic Latin letters is a code point. -/
def basicAgreeing (n : Nat) : List Nat :=
  if 97 ≤ n && n ≤ 122 then [n, n - 32] else [n]

end ManifestDocs.Text
