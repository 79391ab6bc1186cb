/-
Doubles in figures: with a fixed number of places behind the point, with one digit before the point
and a power of ten, or in whichever of the two forms is shorter. The exact value is rounded, a half
to the even neighbour.
-/
import ManifestDocs.Datum.Real

namespace ManifestDocs.Real

/-- A form of a number in figures. -/
inductive Form where
  | fixed
  | scientific
  | general
deriving DecidableEq, Repr

/-- The absolute value of a finite number as a quotient. -/
def quotient : Real → Nat × Nat
  | .finite _ mantissa exponent =>
    if exponent < 0 then (mantissa, Nat.pow 2 (-exponent).toNat)
    else (mantissa * Nat.pow 2 exponent.toNat, 1)
  | _ => (0, 1)

/-- A quotient times a power of ten, rounded. -/
def scaled (q : Nat × Nat) (power : Int) : Nat :=
  if power < 0 then roundedQuotient q.1 (q.2 * Nat.pow 10 (-power).toNat)
  else roundedQuotient (q.1 * Nat.pow 10 power.toNat) q.2

/-- The decimal digits of a number. -/
def digitsOf (n : Nat) : List Char :=
  Nat.toDigits 10 n

/-- Digits with zeros before them, at least so many in all. -/
def padded (least : Nat) (digits : List Char) : List Char :=
  List.replicate (least - digits.length) '0' ++ digits

/-- Digits with a point before the last so many of them; without such digits the point is left out
unless it is to be kept. -/
def pointed (places : Nat) (keepPoint : Bool) (digits : List Char) : List Char :=
  let digits := padded (places + 1) digits
  let whole := digits.take (digits.length - places)
  if places = 0 && !keepPoint then whole
  else whole ++ '.' :: digits.drop (digits.length - places)

/-- The power of ten of the first digit of a quotient that is not zero. -/
def leadingPower (q : Nat × Nat) : Int :=
  if q.2 ≤ q.1 then (digitsOf (q.1 / q.2)).length - 1
  else
    match (List.range 400).find? fun k => q.2 ≤ q.1 * Nat.pow 10 (k + 1) with
    | some k => -(k + 1 : Int)
    | none => 0

/-- The first so many digits of a quotient as a number, and the power of ten of the first one. -/
def leadingDigits (q : Nat × Nat) (count : Nat) : Nat × Int :=
  if q.1 = 0 then (0, 0)
  else
    let power := leadingPower q
    let n := scaled q (count - 1 - power)
    if n ≥ Nat.pow 10 count then (n / 10, power + 1) else (n, power)

/-- A power of ten as it is written: with its sign and at least two digits. -/
def powerText (power : Int) : List Char :=
  'e' :: (if power < 0 then '-' else '+') :: padded 2 (digitsOf power.natAbs)

/-- Digits without the zeros at their end. -/
def withoutTrailingZeros (digits : List Char) : List Char :=
  (digits.reverse.dropWhile (· == '0')).reverse

/-- A number in the shorter form, with so many digits. It is positional if the first digit stands
for no less than the fourth place behind the point and none of the digits is left of the units. -/
def generalText (q : Nat × Nat) (count : Nat) (keepZeros : Bool) : List Char :=
  let count := max count 1
  let (n, power) := leadingDigits q count
  let digits := padded count (digitsOf n)
  let kept := if keepZeros then digits else
    match withoutTrailingZeros digits with
    | [] => ['0']
    | kept => kept
  if -4 ≤ power && power < count then
    let places := kept.length - 1 - power
    if places < 0 then pointed 0 keepZeros (kept ++ List.replicate (-places).toNat '0')
    else pointed places.toNat keepZeros kept
  else pointed (kept.length - 1) keepZeros kept ++ powerText power

/-- The absolute value of a number in a form with so many places or digits. -/
def figures (form : Form) (places : Nat) (alternate : Bool) : Real → List Char
  | .infinite _ => "inf".toList
  | .undefined => "nan".toList
  | r =>
    match form with
    | .fixed => pointed places alternate (digitsOf (scaled r.quotient places))
    | .scientific =>
      let (n, power) := leadingDigits r.quotient (places + 1)
      pointed places alternate (padded (places + 1) (digitsOf n)) ++ powerText power
    | .general => generalText r.quotient places alternate

end ManifestDocs.Real
