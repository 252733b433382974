namespace Consignment
namespace Text

/-!
# Digits

Numbers are written with ASCII digits, in a fixed width where a format asks
for one.  They are read with the decimal digits of any script: Unicode 14 has
sixty-six runs of ten, each in ascending order.
-/

/-- The digit zero of every script, ascending. -/
def zeroDigits : List Nat := [
  0x30, 0x660, 0x6f0, 0x7c0, 0x966, 0x9e6, 0xa66, 0xae6, 0xb66, 0xbe6, 0xc66, 0xce6, 0xd66,
  0xde6, 0xe50, 0xed0, 0xf20, 0x1040, 0x1090, 0x17e0, 0x1810, 0x1946, 0x19d0, 0x1a80, 0x1a90,
  0x1b50, 0x1bb0, 0x1c40, 0x1c50, 0xa620, 0xa8d0, 0xa900, 0xa9d0, 0xa9f0, 0xaa50, 0xabf0, 0xff10,
  0x104a0, 0x10d30, 0x11066, 0x110f0, 0x11136, 0x111d0, 0x112f0, 0x11450, 0x114d0, 0x11650,
  0x116c0, 0x11730, 0x118e0, 0x11950, 0x11c50, 0x11d50, 0x11da0, 0x16a60, 0x16ac0, 0x16b50,
  0x1d7ce, 0x1d7d8, 0x1d7e2, 0x1d7ec, 0x1d7f6, 0x1e140, 0x1e2f0, 0x1e950, 0x1fbf0]

/-- The value of a decimal digit of any script. -/
def decimalDigit? (c : Char) : Option Nat :=
  let n := c.toNat
  if n < 0x80 then
    if 0x30 ≤ n ∧ n ≤ 0x39 then some (n - 0x30) else none
  else
    (zeroDigits.find? fun first => first ≤ n && n < first + 10).map fun first => n - first

/-- The value of a hexadecimal digit of ASCII, in either case. -/
def hexDigit? (c : Char) : Option Nat :=
  let n := c.toNat
  if 0x30 ≤ n ∧ n ≤ 0x39 then some (n - 0x30)
  else if 0x41 ≤ n ∧ n ≤ 0x46 then some (n - 0x37)
  else if 0x61 ≤ n ∧ n ≤ 0x66 then some (n - 0x57)
  else none

/-- The lower-case digit of a value below sixteen. -/
def lowerHexDigit (n : Nat) : Char :=
  if n < 10 then Char.ofNat (0x30 + n) else Char.ofNat (0x57 + n)

def upperHexDigit (n : Nat) : Char :=
  if n < 10 then Char.ofNat (0x30 + n) else Char.ofNat (0x37 + n)

/-- The last `width` digits of a number in a base, most significant first. -/
def fixedDigits (digit : Nat → Char) (base : Nat) : Nat → Nat → List Char
  | 0, _ => []
  | width + 1, n => fixedDigits digit base width (n / base) ++ [digit (n % base)]

@[simp] theorem length_fixedDigits (digit : Nat → Char) (base width n : Nat) :
    (fixedDigits digit base width n).length = width := by
  induction width generalizing n with
  | zero => rfl
  | succ width ih => simp [fixedDigits, ih]

/-- Lower-case hexadecimal of a fixed width. -/
def hex (width n : Nat) : List Char :=
  fixedDigits lowerHexDigit 16 width n

def upperHex (width n : Nat) : List Char :=
  fixedDigits upperHexDigit 16 width n

/-- Decimal of at least the given width, filled with zeros at the front. -/
def paddedDecimal (width n : Nat) : List Char :=
  let digits := (toString n).toList
  List.replicate (width - digits.length) '0' ++ digits

def decimal (n : Int) : String :=
  match n with
  | .ofNat n => toString n
  | .negSucc n => "-" ++ toString (n + 1)

end Text
end Consignment
