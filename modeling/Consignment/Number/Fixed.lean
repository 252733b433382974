import Consignment.Number.Shortest
import Consignment.Text.Digits

namespace Consignment
namespace Number

/-!
# Numbers with a given count of digits

A template can ask for so many digits after the point, or for so many significant
ones.  The exact value is rounded to the nearest number with that many digits, and of
two that are equally near the even one is taken.
-/

/-- A quotient, rounded to the nearest integer, and to the even one in the middle. -/
def nearestQuotient (num den : Nat) : Nat :=
  let q := num / den
  let twice := 2 * (num % den)
  if twice < den ∨ (twice = den ∧ q % 2 = 0) then q else q + 1

/-- `m · 2 ^ q · 10 ^ places` as an integer, rounded. -/
def scaledTo (m : Nat) (q places : Int) : Nat :=
  nearestQuotient (m * twoTo q.toNat * tenTo places.toNat) (twoTo (-q).toNat * tenTo (-places).toNat)

/-- Digits with a point before the last so many.  A point with nothing after it is kept
if it is asked for. -/
def withPoint (keepPoint : Bool) (n places : Nat) : List Char :=
  if places = 0 then (toString n).toList ++ if keepPoint then ['.'] else []
  else
    let digits := Text.paddedDecimal (places + 1) n
    digits.take (digits.length - places) ++ '.' :: digits.drop (digits.length - places)

/-- A magnitude with so many digits after the point. -/
def fixed (keepPoint : Bool) (places m : Nat) (q : Int) : List Char :=
  withPoint keepPoint (scaledTo m q places) places

/-- The digits of a magnitude rounded to so many significant ones, and the exponent of
the first, which rounding can increase. -/
def significant (count m : Nat) (q exponent : Int) : Nat × Int :=
  let digits := scaledTo m q (count - 1 - exponent)
  if tenTo count ≤ digits then (scaledTo m q (count - 2 - exponent), exponent + 1)
  else (digits, exponent)

/-- An exponent with a sign and two digits at least. -/
def exponentText (exponent : Int) : List Char :=
  'e' :: (if exponent < 0 then '-' else '+') :: Text.paddedDecimal 2 exponent.natAbs

/-- The exponent of the first digit of a magnitude.  That of the shortest digits is the
same or, where those lie beyond a power of ten, greater by one. -/
def leadingExponent (d : Dyadic) : Int :=
  let decimal := d.shortest
  let exponent := (toString decimal.digits).length + decimal.exponent - 1
  if d.m * twoTo d.q.toNat * tenTo (-exponent).toNat < tenTo exponent.toNat * twoTo (-d.q).toNat then
    exponent - 1
  else exponent

def scientific (keepPoint : Bool) (places : Nat) (d : Option Dyadic) : List Char :=
  match d with
  | none => withPoint keepPoint 0 places ++ exponentText 0
  | some d =>
    let (digits, exponent) := significant (places + 1) d.m d.q (leadingExponent d)
    withPoint keepPoint digits places ++ exponentText exponent

def withoutEndZeros (cs : List Char) : List Char :=
  if cs.contains '.' then
    let cs := (cs.reverse.dropWhile (· == '0')).reverse
    if cs.getLast? == some '.' then cs.dropLast else cs
  else cs

/-- A magnitude with so many significant digits: with an exponent where the point would be
far from the digits.  Zeros at the end are left out unless they are asked for. -/
def general (keepZeros : Bool) (count : Nat) (d : Option Dyadic) : List Char :=
  let shorten (cs : List Char) : List Char := if keepZeros then cs else withoutEndZeros cs
  match d with
  | none => shorten (withPoint keepZeros 0 (count - 1))
  | some d =>
    let (digits, exponent) := significant count d.m d.q (leadingExponent d)
    if exponent < -4 ∨ count ≤ exponent then
      shorten (withPoint keepZeros digits (count - 1)) ++ exponentText exponent
    else shorten (fixed keepZeros (count - 1 - exponent).toNat d.m d.q)

end Number
end Consignment
