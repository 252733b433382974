import Consignment.Text.Digits

namespace Consignment
namespace Text

/-!
# Text as UTF-8

Files hold bytes, and the documents in them are UTF-8.  Decoding is strict: the
first byte that cannot continue a well-formed sequence is reported with its
position and a reason, in the manner of the Unicode standard's maximal
subparts.  A sequence cut short by the end of the input, one interrupted by a
byte that cannot continue it, and a byte that cannot start one are told apart.
-/

/-- Why a byte sequence is not UTF-8. -/
inductive DecodeReason where
  /-- The byte starts no sequence. -/
  | invalidStart
  /-- A later byte does not continue the sequence. -/
  | invalidContinuation
  /-- The input ends inside the sequence. -/
  | unexpectedEnd
  deriving DecidableEq, Repr

namespace DecodeReason

def message : DecodeReason → String
  | invalidStart => "invalid start byte"
  | invalidContinuation => "invalid continuation byte"
  | unexpectedEnd => "unexpected end of data"

end DecodeReason

/-- Where and why decoding stops: the bytes from `first` to `last` are at fault
and `byte` is the first of them. -/
structure DecodeFault where
  first : Nat
  last : Nat
  byte : UInt8
  reason : DecodeReason
  deriving DecidableEq, Repr

namespace DecodeFault

/-- A fault of one byte names the byte; a longer one names the two ends. -/
def message (f : DecodeFault) : String :=
  if f.first == f.last then
    "'utf-8' codec can't decode byte 0x" ++ String.ofList (hex 2 f.byte.toNat) ++ " in position "
      ++ toString f.first ++ ": " ++ f.reason.message
  else
    "'utf-8' codec can't decode bytes in position " ++ toString f.first ++ "-"
      ++ toString f.last ++ ": " ++ f.reason.message

end DecodeFault

/-- What a first byte announces: how many bytes follow, the bits it carries, and
the range of the byte after it.  The narrowed ranges exclude overlong forms,
surrogates and points beyond the last one. -/
def leadByte (b : Nat) : Option (Nat × Nat × Nat × Nat) :=
  if 0xc2 ≤ b ∧ b ≤ 0xdf then some (1, b - 0xc0, 0x80, 0xbf)
  else if b = 0xe0 then some (2, 0, 0xa0, 0xbf)
  else if b = 0xed then some (2, 0xd, 0x80, 0x9f)
  else if 0xe1 ≤ b ∧ b ≤ 0xef then some (2, b - 0xe0, 0x80, 0xbf)
  else if b = 0xf0 then some (3, 0, 0x90, 0xbf)
  else if 0xf1 ≤ b ∧ b ≤ 0xf3 then some (3, b - 0xf0, 0x80, 0xbf)
  else if b = 0xf4 then some (3, 4, 0x80, 0x8f)
  else none

/-- Decoding in progress: between sequences, or inside one that started at
`start` with `lead`, still needs `missing` bytes, has the bits `bits`, and takes
a next byte from `low` to `high` only. -/
inductive DecodeState where
  | ready
  | inside (start : Nat) (lead : UInt8) (missing bits low high : Nat)

/-- Decode the bytes from position `at` on; `done` holds the characters so far,
latest first. -/
def decodeFrom (done : List Char) (position : Nat) : DecodeState → List UInt8 →
    Except DecodeFault (List Char)
  | .ready, [] => .ok done.reverse
  | .inside start lead _ _ _ _, [] => .error ⟨start, position - 1, lead, .unexpectedEnd⟩
  | .ready, b :: rest =>
    if b.toNat < 0x80 then
      decodeFrom (Char.ofNat b.toNat :: done) (position + 1) .ready rest
    else
      match leadByte b.toNat with
      | none => .error ⟨position, position, b, .invalidStart⟩
      | some (missing, bits, low, high) =>
        decodeFrom done (position + 1) (.inside position b missing bits low high) rest
  | .inside start lead missing bits low high, b :: rest =>
    if low ≤ b.toNat ∧ b.toNat ≤ high then
      let bits := bits * 64 + (b.toNat - 0x80)
      if missing ≤ 1 then decodeFrom (Char.ofNat bits :: done) (position + 1) .ready rest
      else decodeFrom done (position + 1) (.inside start lead (missing - 1) bits 0x80 0xbf) rest
    else .error ⟨start, position - 1, lead, .invalidContinuation⟩

def decodeUtf8 (bytes : List UInt8) : Except DecodeFault (List Char) :=
  decodeFrom [] 0 .ready bytes

def encodeUtf8 (cs : List Char) : List UInt8 :=
  cs.flatMap String.utf8EncodeChar

/-- Every way to end a line becomes a line feed, as a file opened as text shows
it. -/
def unifyLineEnds : List Char → List Char
  | '\r' :: '\n' :: rest => '\n' :: unifyLineEnds rest
  | '\r' :: rest => '\n' :: unifyLineEnds rest
  | c :: rest => c :: unifyLineEnds rest
  | [] => []

end Text
end Consignment
