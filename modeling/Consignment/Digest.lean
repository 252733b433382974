import Consignment.Text.Digits

namespace Consignment
namespace Digest

/-!
# Digests

The digest of a content is its SHA-256 in lower-case hexadecimal.  A message is
padded with a one bit, zeros and its length in bits to a multiple of 64 bytes, and
each block of sixteen words stirs the eight words of the state in sixty-four rounds.

A round needs one word of the message schedule, and the schedule is a recurrence
over the sixteen words before it; the rounds therefore carry a window of sixteen
words along and nothing more.
-/

structure State where
  a : UInt32
  b : UInt32
  c : UInt32
  d : UInt32
  e : UInt32
  f : UInt32
  g : UInt32
  h : UInt32
  deriving DecidableEq, Repr

def initial : State :=
  ⟨0x6a09e667, 0xbb67ae85, 0x3c6ef372, 0xa54ff53a, 0x510e527f, 0x9b05688c, 0x1f83d9ab, 0x5be0cd19⟩

def constants : List UInt32 := [
  0x428a2f98, 0x71374491, 0xb5c0fbcf, 0xe9b5dba5, 0x3956c25b, 0x59f111f1, 0x923f82a4, 0xab1c5ed5,
  0xd807aa98, 0x12835b01, 0x243185be, 0x550c7dc3, 0x72be5d74, 0x80deb1fe, 0x9bdc06a7, 0xc19bf174,
  0xe49b69c1, 0xefbe4786, 0x0fc19dc6, 0x240ca1cc, 0x2de92c6f, 0x4a7484aa, 0x5cb0a9dc, 0x76f988da,
  0x983e5152, 0xa831c66d, 0xb00327c8, 0xbf597fc7, 0xc6e00bf3, 0xd5a79147, 0x06ca6351, 0x14292967,
  0x27b70a85, 0x2e1b2138, 0x4d2c6dfc, 0x53380d13, 0x650a7354, 0x766a0abb, 0x81c2c92e, 0x92722c85,
  0xa2bfe8a1, 0xa81a664b, 0xc24b8b70, 0xc76c51a3, 0xd192e819, 0xd6990624, 0xf40e3585, 0x106aa070,
  0x19a4c116, 0x1e376c08, 0x2748774c, 0x34b0bcb5, 0x391c0cb3, 0x4ed8aa4a, 0x5b9cca4f, 0x682e6ff3,
  0x748f82ee, 0x78a5636f, 0x84c87814, 0x8cc70208, 0x90befffa, 0xa4506ceb, 0xbef9a3f7, 0xc67178f2]

/-- Turn the bits of a word to the right. -/
def turn (x : UInt32) (n : UInt32) : UInt32 :=
  (x >>> n) ||| (x <<< (32 - n))

/-- One round with a constant and a word of the schedule. -/
def round (s : State) (k w : UInt32) : State :=
  let s1 := turn s.e 6 ^^^ turn s.e 11 ^^^ turn s.e 25
  let choice := (s.e &&& s.f) ^^^ ((s.e ^^^ 0xffffffff) &&& s.g)
  let t1 := s.h + s1 + choice + k + w
  let s0 := turn s.a 2 ^^^ turn s.a 13 ^^^ turn s.a 22
  let majority := (s.a &&& s.b) ^^^ (s.a &&& s.c) ^^^ (s.b &&& s.c)
  ⟨t1 + (s0 + majority), s.a, s.b, s.c, s.d + t1, s.e, s.f, s.g⟩

/-- The word of the schedule that follows a window of sixteen. -/
def nextWord (w0 w1 w9 w14 : UInt32) : UInt32 :=
  let s0 := turn w1 7 ^^^ turn w1 18 ^^^ (w1 >>> 3)
  let s1 := turn w14 17 ^^^ turn w14 19 ^^^ (w14 >>> 10)
  w0 + s0 + w9 + s1

/-- The rounds with the given constants, the window moving along. -/
def rounds (s : State) : List UInt32 → List UInt32 → State
  | [], _ => s
  | k :: ks, [w0, w1, w2, w3, w4, w5, w6, w7, w8, w9, w10, w11, w12, w13, w14, w15] =>
    rounds (round s k w0) ks
      [w1, w2, w3, w4, w5, w6, w7, w8, w9, w10, w11, w12, w13, w14, w15, nextWord w0 w1 w9 w14]
  | _ :: _, _ => s

/-- Stir a block of sixteen words into the state. -/
def absorb (s : State) (block : List UInt32) : State :=
  let t := rounds s constants block
  ⟨s.a + t.a, s.b + t.b, s.c + t.c, s.d + t.d, s.e + t.e, s.f + t.f, s.g + t.g, s.h + t.h⟩

def word (b0 b1 b2 b3 : UInt8) : UInt32 :=
  (b0.toUInt32 <<< 24) ||| (b1.toUInt32 <<< 16) ||| (b2.toUInt32 <<< 8) ||| b3.toUInt32

/-- Stir the words of the bytes into the state; `count` words, latest first, wait for
their block to fill. -/
def absorbBytes (s : State) (count : Nat) (waiting : List UInt32) : List UInt8 → State
  | b0 :: b1 :: b2 :: b3 :: rest =>
    if count = 15 then absorbBytes (absorb s (word b0 b1 b2 b3 :: waiting).reverse) 0 [] rest
    else absorbBytes s (count + 1) (word b0 b1 b2 b3 :: waiting) rest
  | _ => s

/-- The eight bytes of a number, the first being the highest. -/
def eightBytes (n : Nat) : List UInt8 :=
  [56, 48, 40, 32, 24, 16, 8, 0].map fun shift => (n >>> shift).toUInt8

/-- What follows a message of a number of bytes. -/
def padding (size : Nat) : List UInt8 :=
  0x80 :: List.replicate ((119 - size % 64) % 64) 0 ++ eightBytes (8 * size)

def state (bytes : List UInt8) : State :=
  absorbBytes initial 0 [] (bytes ++ padding bytes.length)

/-- The digest of a message in hexadecimal. -/
def ofList (bytes : List UInt8) : String :=
  let s := state bytes
  String.ofList ([s.a, s.b, s.c, s.d, s.e, s.f, s.g, s.h].flatMap fun w => Text.hex 8 w.toNat)

def ofBytes (bytes : ByteArray) : String :=
  ofList bytes.data.toList

/-- The digest of a text in UTF-8. -/
def ofText (text : String) : String :=
  ofList (text.toList.flatMap String.utf8EncodeChar)

end Digest
end Consignment
