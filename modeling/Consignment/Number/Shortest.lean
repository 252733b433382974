import Consignment.Number.Power

namespace Consignment
namespace Number

/-!
# Shortest decimals

A binary floating-point number stands for the interval of reals that round to
it.  It is written with the fewest decimal digits that lie in that interval,
and among those with the digits nearest to the number itself.

Everything is decided in exact arithmetic on natural numbers.  The number is
`m · 2 ^ q`; for a count of digits the two neighbours of the number on the grid
of that many digits are the only candidates that have to be tried, because a
grid that meets the interval at all meets it at one of them.  Seventeen digits
always suffice.
-/

/-- A finite positive number `m · 2 ^ q`, with the flag that says whether the gap
below it is half the gap above it. -/
structure Dyadic where
  m : Nat
  q : Int
  narrowBelow : Bool
  deriving DecidableEq, Repr

namespace Dyadic

/-- The interval of the numbers that round to `m · 2 ^ q`, over the common
denominator: lower end, the number, upper end and denominator.  The ends belong
to it exactly when `m` is even. -/
def interval (x : Dyadic) : Nat × Nat × Nat × Nat :=
  let below := if x.narrowBelow then 1 else 2
  let scale := twoTo x.q.toNat
  (((4 * x.m - below) * scale), (4 * x.m * scale), ((4 * x.m + 2) * scale), (4 * twoTo (-x.q).toNat))

end Dyadic

/-- A decimal `digits · 10 ^ exponent`. -/
structure Decimal where
  digits : Nat
  exponent : Int
  deriving DecidableEq, Repr

def distance (a b : Nat) : Nat :=
  (a - b) + (b - a)

/-- The candidate of the grid `10 ^ exponent` for the number `mid / den`, if the
grid meets the interval from `low / den` to `high / den`. -/
def onGrid (closed : Bool) (low mid high den : Nat) (exponent : Int) : Option Nat :=
  let up := tenTo exponent.toNat
  let down := tenTo (-exponent).toNat
  let unit := den * up
  let inside (n : Nat) : Bool :=
    if closed then low * down ≤ n * unit && n * unit ≤ high * down
    else low * down < n * unit && n * unit < high * down
  let n := mid * down / unit
  let first := inside n && n != 0
  let second := inside (n + 1)
  if first && second then
    let below := distance (n * unit) (mid * down)
    let above := distance ((n + 1) * unit) (mid * down)
    if below < above || (below == above && n % 2 == 0) then some n else some (n + 1)
  else if first then some n
  else if second then some (n + 1)
  else none

/-- Try the grids from coarse to fine, `tries` of them. -/
def searchGrid (closed : Bool) (low mid high den : Nat) : Nat → Int → Decimal
  | 0, exponent => ⟨0, exponent⟩
  | tries + 1, exponent =>
    match onGrid closed low mid high den exponent with
    | some n => ⟨n, exponent⟩
    | none => searchGrid closed low mid high den tries (exponent - 1)

def digitCount (n : Nat) : Nat :=
  (toString n).length

/-- The fewest digits that round to the number.  The search starts one grid above
the leading digit and ends long after the seventeenth. -/
def Dyadic.shortest (x : Dyadic) : Decimal :=
  let (low, mid, high, den) := x.interval
  let start : Int := digitCount mid - digitCount den + 1
  searchGrid (x.m % 2 == 0) low mid high den 24 start

inductive Parts where
  | nan
  | infinite (negative : Bool)
  | zero (negative : Bool)
  | finite (negative : Bool) (x : Dyadic)
  deriving DecidableEq, Repr

/-- Read the sign, the exponent and the fraction off the bits. -/
def partsOfBits (bits : Nat) : Parts :=
  let negative := decide (bits / twoTo 63 % 2 = 1)
  let biased : Nat := bits / twoTo 52 % 2048
  let fraction : Nat := bits % twoTo 52
  if biased = 2047 then if fraction = 0 then .infinite negative else .nan
  else if biased = 0 then
    if fraction = 0 then .zero negative else .finite negative ⟨fraction, -1074, false⟩
  else .finite negative ⟨twoTo 52 + fraction, (biased : Int) - 1075, fraction = 0 && 1 < biased⟩

def parts (x : Float) : Parts :=
  partsOfBits x.toBits.toNat

/-- The integer that remains of a finite number when its fraction is dropped;
`none` for an infinity or a number that is none. -/
def truncate? (x : Float) : Option Int :=
  match parts x with
  | .nan => none
  | .infinite _ => none
  | .zero _ => some 0
  | .finite negative ⟨m, q, _⟩ =>
    let size : Nat := m * twoTo q.toNat / twoTo (-q).toNat
    some (if negative then -(size : Int) else size)

end Number
end Consignment
