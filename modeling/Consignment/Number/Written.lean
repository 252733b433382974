import Consignment.Number.Shortest

namespace Consignment
namespace Number

/-!
# How floating-point numbers are written

The shortest digits are laid out positionally while the decimal point falls
near them, and with an exponent otherwise.  The two documents formats and the
messages share the layout and differ in the words for the numbers that are not
finite, so the layout is a record and those words are arguments.
-/

/-- Where positional layout ends and how an exponent is written. -/
structure Layout where
  /-- The least position of the decimal point, counted from the first digit. -/
  lowest : Int
  /-- The greatest position of the decimal point. -/
  highest : Int
  /-- The least count of digits in an exponent. -/
  exponentWidth : Nat

/-- Numbers from `0.0001` up to below `1e16` are positional, and an exponent has
two digits at least. -/
def messageLayout : Layout := ⟨-3, 16, 2⟩

def stripZeros (digits : List Char) : List Char :=
  (digits.reverse.dropWhile (· == '0')).reverse

/-- Digits whose decimal point stands `point` places after the first one's left
edge. -/
def Layout.write (l : Layout) (digits : List Char) (point : Int) : List Char :=
  if l.lowest ≤ point ∧ point ≤ l.highest then
    if point ≤ 0 then
      ['0', '.'] ++ List.replicate (-point).toNat '0' ++ digits
    else if digits.length ≤ point.toNat then
      digits ++ List.replicate (point.toNat - digits.length) '0' ++ ['.', '0']
    else digits.take point.toNat ++ '.' :: digits.drop point.toNat
  else
    let exponent := point - 1
    let size := (toString exponent.natAbs).toList
    let fraction := match digits.drop 1 with
      | [] => []
      | rest => '.' :: rest
    digits.take 1 ++ fraction ++ ['e', if exponent < 0 then '-' else '+']
      ++ List.replicate (l.exponentWidth - size.length) '0' ++ size

/-- A number in the given layout, with the words for what is not finite. -/
def written (l : Layout) (infinity nan : String) (x : Float) : String :=
  match parts x with
  | .nan => nan
  | .infinite negative => (if negative then "-" else "") ++ infinity
  | .zero negative => if negative then "-0.0" else "0.0"
  | .finite negative dyadic =>
    let decimal := dyadic.shortest
    let all := (toString decimal.digits).toList
    let point : Int := all.length + decimal.exponent
    String.ofList ((if negative then ['-'] else []) ++ l.write (stripZeros all) point)

/-- A number as messages and plain texts show it. -/
def shown (x : Float) : String :=
  written messageLayout "inf" "nan" x

end Number
end Consignment
