import Consignment.Number.Power
import Consignment.Text.Blank
import Consignment.Text.Digits

namespace Consignment
namespace Number

/-!
# Reading numbers

An integer is read from a text in a base, with blanks around it, a sign, a
marker of the base for two, eight and sixteen, and single underscores between
its digits.  The digits and blanks may come from any script; the information
separators are no blanks here.  A decimal integer of more than 4300 digits is
refused.

A floating-point number is read from a decimal, rounded to the nearest value.
Exponents far outside the range of floating point are settled before any power
of ten is computed.
-/

/-- Why a text is no integer of a base. -/
inductive IntegerFault where
  /-- The text has another shape. -/
  | shape (base : Nat)
  /-- The integer has the given count of decimal digits, which is too many. -/
  | tooLong (digits : Nat)
  deriving DecidableEq, Repr

/-- The most decimal digits of an integer that is read or shown. -/
def maxDecimalDigits : Nat := 4300

def isIntegerBlank (c : Char) : Bool :=
  if c.toNat < 0x80 then c == ' ' || (9 ≤ c.toNat && c.toNat ≤ 13) else Text.isBlank c

/-- A digit of the base, of any script when it is a decimal one. -/
def digitIn (base : Nat) (c : Char) : Option Nat :=
  match Text.decimalDigit? c with
  | some d => if d < base then some d else none
  | none =>
    match Text.hexDigit? c with
    | some d => if d < base then some d else none
    | none => none

/-- Read digits with single underscores between them up to the end.  `afterDigit`
says whether the last character was a digit. -/
def digitsIn (base : Nat) : Bool → Nat → Nat → List Char → Option (Nat × Nat)
  | afterDigit, value, count, [] => if afterDigit then some (value, count) else none
  | afterDigit, value, count, c :: rest =>
    if c == '_' then if afterDigit then digitsIn base false value count rest else none
    else
      match digitIn base c with
      | some d => digitsIn base true (value * base + d) (count + 1) rest
      | none => none

/-- The letters that mark a base. -/
def baseLetters (base : Nat) : List Char :=
  if base = 2 then ['b', 'B'] else if base = 8 then ['o', 'O'] else if base = 16 then ['x', 'X']
  else []

/-- Drop the marker of the base, and one underscore after it. -/
def dropMarker (base : Nat) : List Char → List Char
  | zero :: letter :: rest =>
    if Text.decimalDigit? zero == some 0 && (baseLetters base).contains letter then
      match rest with
      | '_' :: more => more
      | _ => rest
    else zero :: letter :: rest
  | cs => cs

/-- Take the sign off; the flag says that it was a minus. -/
def takeSign : List Char → Bool × List Char
  | '-' :: rest => (true, rest)
  | '+' :: rest => (false, rest)
  | cs => (false, cs)

def trimInteger (cs : List Char) : List Char :=
  ((cs.dropWhile isIntegerBlank).reverse.dropWhile isIntegerBlank).reverse

/-- The integer that a text denotes in a base. -/
def readInteger (base : Nat) (cs : List Char) : Except IntegerFault Int :=
  let (negative, unsigned) := takeSign (trimInteger cs)
  match digitsIn base false 0 0 (dropMarker base unsigned) with
  | none => .error (.shape base)
  | some (n, count) =>
    if base = 10 ∧ maxDecimalDigits < count then .error (.tooLong count)
    else .ok (if negative then -(n : Int) else n)

/-- The number `digits · 10 ^ exponent`, rounded; `count` is the number of digits. -/
def scaled (digits count : Nat) (exponent : Int) : Float :=
  if digits = 0 then 0.0
  else if 400 < exponent + count then 1.0 / 0.0
  else if exponent + count < -400 then 0.0
  else if 0 ≤ exponent then Float.ofScientific (digits * tenTo exponent.toNat) false 0
  else Float.ofScientific digits true (-exponent).toNat

/-- A run of decimal digits of ASCII at the front, with its value and length. -/
def takeDigits : Nat → Nat → List Char → Nat × Nat × List Char
  | value, count, c :: rest =>
    if '0' ≤ c ∧ c ≤ '9' then takeDigits (value * 10 + (c.toNat - 0x30)) (count + 1) rest
    else (value, count, c :: rest)
  | value, count, [] => (value, count, [])

/-- The exponent of a decimal, if one is written: its value and what follows. -/
def takeExponent (cs : List Char) : Int × List Char :=
  match cs with
  | e :: rest =>
    if e == 'e' || e == 'E' then
      let (negative, unsigned) := takeSign rest
      let (value, count, after) := takeDigits 0 0 unsigned
      if count = 0 then (0, cs) else (if negative then -(value : Int) else value, after)
    else (0, cs)
  | [] => (0, [])

/-- The unsigned decimal at the front: digits, a fraction and an exponent, each
optional so long as there is a digit before the exponent. -/
def takeDecimal (cs : List Char) : Option (Float × List Char) :=
  let (whole, wholeCount, afterWhole) := takeDigits 0 0 cs
  let (value, count, places, afterPoint) :=
    match afterWhole with
    | '.' :: rest =>
      let (value, count, after) := takeDigits whole wholeCount rest
      (value, count, count - wholeCount, after)
    | _ => (whole, wholeCount, 0, afterWhole)
  if count = 0 then none
  else
    let (exponent, rest) := takeExponent afterPoint
    some (scaled value count (exponent - places), rest)

/-- The number that a whole text denotes: a decimal with an optional sign, or one
of the words for the numbers that are not finite. -/
def readFloat? (cs : List Char) : Option Float :=
  let (negative, unsigned) := takeSign (trimInteger cs)
  let sign (x : Float) : Float := if negative then -x else x
  let word := String.ofList (unsigned.map Char.toLower)
  if word == "inf" || word == "infinity" then some (sign (1.0 / 0.0))
  else if word == "nan" then some (0.0 / 0.0)
  else
    match takeDecimal unsigned with
    | some (x, []) => some (sign x)
    | _ => none

end Number
end Consignment
