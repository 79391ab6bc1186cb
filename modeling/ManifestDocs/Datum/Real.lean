/-
The value of a written number with a point or an exponent: the double nearest to what is written, a
half going to the even neighbour. It is kept exactly, as a multiple of a power of two.
-/
import ManifestDocs.Datum.Reader

namespace ManifestDocs

/-- A double: `mantissa · 2 ^ exponent` or its negative, or one of the values beyond. -/
inductive Real where
  | finite (negative : Bool) (mantissa : Nat) (exponent : Int)
  | infinite (negative : Bool)
  | undefined
deriving DecidableEq, Repr

namespace Real

/-- The binary places that a number keeps. -/
def precision : Nat := 53

/-- The least power of two that a number is a multiple of. -/
def leastExponent : Int := -1074

/-- The power of two that no finite number reaches. -/
def limitExponent : Nat := 1024

/-- Decimal powers further than this from zero are beyond every finite number or below every one. -/
def decimalReach : Int := 400

/-- The quotient of two natural numbers, rounded to the nearest one, a half to the even one. -/
def roundedQuotient (n d : Nat) : Nat :=
  let q := n / d
  let r := n % d
  if 2 * r > d || (2 * r == d && q % 2 == 1) then q + 1 else q

/-- The quotient of two natural numbers in units of a power of two. -/
def quotientInUnits (n d : Nat) (exponent : Int) : Nat :=
  if exponent < 0 then roundedQuotient (n * Nat.pow 2 (-exponent).toNat) d
  else roundedQuotient n (d * Nat.pow 2 exponent.toNat)

/-- The double nearest to a quotient of two natural numbers. The first guess at the exponent may be
one too small; then there are too many places. -/
def nearest (negative : Bool) (n d : Nat) : Real :=
  let guess := max ((n.log2 : Int) - d.log2 - precision) leastExponent
  let exponent := if quotientInUnits n d guess ≥ Nat.pow 2 precision then guess + 1 else guess
  let mantissa := quotientInUnits n d exponent
  if 0 ≤ exponent && mantissa * Nat.pow 2 exponent.toNat ≥ Nat.pow 2 limitExponent then
    .infinite negative
  else .finite negative mantissa exponent

/-- The double nearest to `digits · 10 ^ power`. -/
def ofDecimal (negative : Bool) (digits : Nat) (power : Int) : Real :=
  let size := ((Nat.toDigits 10 digits).length : Int) + power
  if digits = 0 || size < -decimalReach then .finite negative 0 0
  else if decimalReach < size then .infinite negative
  else if power < 0 then nearest negative digits (Nat.pow 10 (-power).toNat)
  else nearest negative (digits * Nat.pow 10 power.toNat) 1

/-- The integer that digits with a sign before them say; zero if there are none. -/
def signedDigits : List Char → Int
  | '-' :: cs => -(Datum.digitsValue cs : Int)
  | '+' :: cs => Datum.digitsValue cs
  | cs => Datum.digitsValue cs

/-- The number that digits with a point and an exponent say. -/
def ofDigits (negative : Bool) (body : List Char) : Real :=
  let mantissa := body.takeWhile fun c => c != 'e' && c != 'E'
  let power := signedDigits ((body.drop mantissa.length).drop 1)
  let fraction := (mantissa.dropWhile (· != '.')).drop 1
  ofDecimal negative (Datum.digitsValue (mantissa.filter (· != '.'))) (power - fraction.length)

/-- The number that a written form says. -/
def ofWritten (written : String) : Real :=
  match written.toList with
  | 'N' :: _ => .undefined
  | 'I' :: _ => .infinite false
  | '-' :: 'I' :: _ => .infinite true
  | '-' :: cs => ofDigits true cs
  | cs => ofDigits false cs

/-- The double nearest to an integer. -/
def ofInt (n : Int) : Real :=
  if n = 0 then .finite false 0 0 else nearest (n < 0) n.natAbs 1

/-- The whole part of the absolute value; there is none beyond the finite numbers. -/
def wholePart : Real → Nat
  | .finite _ mantissa exponent =>
    if exponent < 0 then mantissa / Nat.pow 2 (-exponent).toNat
    else mantissa * Nat.pow 2 exponent.toNat
  | _ => 0

/-- Whether there is no fraction. -/
def isWhole : Real → Bool
  | .finite _ mantissa exponent => 0 ≤ exponent || mantissa % Nat.pow 2 (-exponent).toNat == 0
  | _ => false

/-- Whether the number is zero, of either sign. -/
def isZero : Real → Bool
  | .finite _ mantissa _ => mantissa == 0
  | _ => false

/-- Whether the number is below zero or the negative zero. -/
def isNegative : Real → Bool
  | .finite negative .. | .infinite negative => negative
  | .undefined => false

/-- The integer that is left when the fraction is dropped. -/
def truncated (r : Real) : Int :=
  if r.isNegative then -(r.wholePart : Int) else r.wholePart

/-- The value of a finite number. -/
def toRat : Real → Rat
  | .finite negative mantissa exponent =>
    let m : Int := if negative then -mantissa else mantissa
    if exponent < 0 then mkRat m (Nat.pow 2 (-exponent).toNat)
    else m * Nat.pow 2 exponent.toNat
  | _ => 0

/-- The integer that a number without fraction is. -/
def whole? (r : Real) : Option Int :=
  if r.isWhole then some r.truncated else none

end Real

end ManifestDocs
