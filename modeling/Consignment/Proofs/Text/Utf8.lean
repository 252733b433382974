import Consignment.Text.Bytes

namespace Consignment
namespace Text

/-!
# Reading back what was encoded

Decoding the bytes of a text gives the text.  The bytes of one character take the decoder
from one resting state to the next: the first byte announces the number of the others and
a range for the second, and the second of an encoded character is in that range.  The
narrowed ranges exclude what no character encodes, overlong forms and surrogates.
-/

/-! ## First bytes -/

theorem leadByte_of_two {v : Nat} (least : 0x80 ≤ v) (most : v < 0x800) :
    leadByte (v / 64 + 0xc0) = some (1, v / 64, 0x80, 0xbf) := by
  have range : 0xc2 ≤ v / 64 + 0xc0 ∧ v / 64 + 0xc0 ≤ 0xdf := by omega
  rw [leadByte, if_pos range, Nat.add_sub_cancel]

theorem leadByte_of_three {v : Nat} (least : 0x800 ≤ v) (most : v < 0x10000)
    (character : v < 0xd800 ∨ 0xdfff < v) :
    ∃ low high, leadByte (v / 4096 + 0xe0) = some (2, v / 4096, low, high) ∧
      low ≤ v / 64 % 64 + 0x80 ∧ v / 64 % 64 + 0x80 ≤ high := by
  have long : ¬ (0xc2 ≤ v / 4096 + 0xe0 ∧ v / 4096 + 0xe0 ≤ 0xdf) := by omega
  rw [leadByte, if_neg long]
  by_cases overlong : v / 4096 = 0
  · -- the second byte is at least 0xa0, or fewer bytes would do
    rw [if_pos (by omega), overlong]
    exact ⟨_, _, rfl, by omega, by omega⟩
  · rw [if_neg (by omega)]
    by_cases surrogate : v / 4096 = 0xd
    · rw [if_pos (by omega), surrogate]
      exact ⟨_, _, rfl, by omega, by omega⟩
    · have range : 0xe1 ≤ v / 4096 + 0xe0 ∧ v / 4096 + 0xe0 ≤ 0xef := by omega
      rw [if_neg (by omega), if_pos range, Nat.add_sub_cancel]
      exact ⟨_, _, rfl, by omega, by omega⟩

theorem leadByte_of_four {v : Nat} (least : 0x10000 ≤ v) (most : v < 0x110000) :
    ∃ low high, leadByte (v / 262144 + 0xf0) = some (3, v / 262144, low, high) ∧
      low ≤ v / 4096 % 64 + 0x80 ∧ v / 4096 % 64 + 0x80 ≤ high := by
  have long : ¬ (0xc2 ≤ v / 262144 + 0xf0 ∧ v / 262144 + 0xf0 ≤ 0xdf) := by omega
  have longer : ¬ (0xe1 ≤ v / 262144 + 0xf0 ∧ v / 262144 + 0xf0 ≤ 0xef) := by omega
  rw [leadByte, if_neg long, if_neg (by omega), if_neg (by omega), if_neg longer]
  by_cases overlong : v / 262144 = 0
  · rw [if_pos (by omega), overlong]
    exact ⟨_, _, rfl, by omega, by omega⟩
  · rw [if_neg (by omega)]
    by_cases last : v / 262144 = 4
    · have range : ¬ (0xf1 ≤ v / 262144 + 0xf0 ∧ v / 262144 + 0xf0 ≤ 0xf3) := by omega
      rw [if_neg range, if_pos (by omega), last]
      exact ⟨_, _, rfl, by omega, by omega⟩
    · have range : 0xf1 ≤ v / 262144 + 0xf0 ∧ v / 262144 + 0xf0 ≤ 0xf3 := by omega
      rw [if_pos range, Nat.add_sub_cancel]
      exact ⟨_, _, rfl, by omega, by omega⟩

/-! ## Steps of the decoder -/

theorem decodeFrom_lead {done : List Char} {position missing bits low high n : Nat}
    {rest : List UInt8} (small : n < 256) (long : 0x80 ≤ n)
    (lead : leadByte n = some (missing, bits, low, high)) :
    decodeFrom done position .ready (UInt8.ofNat n :: rest) =
      decodeFrom done (position + 1)
        (.inside position (UInt8.ofNat n) missing bits low high) rest := by
  have value : (UInt8.ofNat n).toNat = n := UInt8.toNat_ofNat_of_lt' small
  rw [decodeFrom, value, if_neg (by omega), lead]

theorem decodeFrom_next {done : List Char} {position start missing bits low high n : Nat}
    {lead : UInt8} {rest : List UInt8} (small : n < 256) (least : low ≤ n) (most : n ≤ high)
    (more : 1 < missing) :
    decodeFrom done position (.inside start lead missing bits low high)
        (UInt8.ofNat n :: rest) =
      decodeFrom done (position + 1)
        (.inside start lead (missing - 1) (bits * 64 + (n - 0x80)) 0x80 0xbf) rest := by
  have value : (UInt8.ofNat n).toNat = n := UInt8.toNat_ofNat_of_lt' small
  rw [decodeFrom, value, if_pos ⟨least, most⟩, if_neg (by omega)]

theorem decodeFrom_last {done : List Char} {position start bits low high n : Nat}
    {lead : UInt8} {rest : List UInt8} (small : n < 256) (least : low ≤ n) (most : n ≤ high) :
    decodeFrom done position (.inside start lead 1 bits low high) (UInt8.ofNat n :: rest) =
      decodeFrom (Char.ofNat (bits * 64 + (n - 0x80)) :: done) (position + 1) .ready rest := by
  have value : (UInt8.ofNat n).toNat = n := UInt8.toNat_ofNat_of_lt' small
  rw [decodeFrom, value, if_pos ⟨least, most⟩, if_pos (Nat.le_refl 1)]

/-- The bytes of a character are decoded to the character. -/
theorem decodeFrom_encode (done : List Char) (position : Nat) (c : Char) (rest : List UInt8) :
    ∃ later, decodeFrom done position .ready (String.utf8EncodeChar c ++ rest) =
      decodeFrom (c :: done) later .ready rest := by
  have valid : c.val.toNat < 0xd800 ∨ 0xdfff < c.val.toNat ∧ c.val.toNat < 0x110000 := c.valid
  have same : Char.ofNat c.val.toNat = c := Char.ofNat_toNat c
  unfold String.utf8EncodeChar
  generalize c.val.toNat = v at valid same
  simp only
  split
  · rename_i one
    refine ⟨position + 1, ?_⟩
    have small : v < 256 := by omega
    have value : (UInt8.ofNat v).toNat = v := UInt8.toNat_ofNat_of_lt' small
    rw [List.singleton_append, decodeFrom, value, if_pos (by omega), same]
  · split
    · rename_i two
      refine ⟨position + 1 + 1, ?_⟩
      have bits : v / 64 * 64 + (v % 64 + 0x80 - 0x80) = v := by omega
      have small : v / 64 % 0x20 = v / 64 := by omega
      rw [small, List.cons_append, List.singleton_append,
        decodeFrom_lead (by omega) (by omega) (leadByte_of_two (by omega) (by omega)),
        decodeFrom_last (by omega) (by omega) (by omega), bits, same]
    · split
      · rename_i three
        rcases leadByte_of_three (by omega) (by omega) (by omega : v < 0xd800 ∨ 0xdfff < v) with
          ⟨low, high, lead, least, most⟩
        refine ⟨position + 1 + 1 + 1, ?_⟩
        have bits : (v / 4096 * 64 + (v / 64 % 64 + 0x80 - 0x80)) * 64 +
            (v % 64 + 0x80 - 0x80) = v := by omega
        have small : v / 4096 % 0x10 = v / 4096 := by omega
        rw [small, List.cons_append, List.cons_append, List.singleton_append,
          decodeFrom_lead (by omega) (by omega) lead,
          decodeFrom_next (by omega) least most (by omega),
          decodeFrom_last (by omega) (by omega) (by omega), bits, same]
      · rename_i one two three
        rcases leadByte_of_four (by omega) (by omega : v < 0x110000) with
          ⟨low, high, lead, least, most⟩
        refine ⟨position + 1 + 1 + 1 + 1, ?_⟩
        have bits : ((v / 262144 * 64 + (v / 4096 % 64 + 0x80 - 0x80)) * 64 +
            (v / 64 % 64 + 0x80 - 0x80)) * 64 + (v % 64 + 0x80 - 0x80) = v := by omega
        have small : v / 262144 % 0x08 = v / 262144 := by omega
        rw [small, List.cons_append, List.cons_append, List.cons_append, List.singleton_append,
          decodeFrom_lead (by omega) (by omega) lead,
          decodeFrom_next (by omega) least most (by omega),
          decodeFrom_next (by omega) (by omega) (by omega) (by omega),
          decodeFrom_last (by omega) (by omega) (by omega), bits, same]

theorem decodeFrom_encodeUtf8 (done : List Char) (position : Nat) (cs : List Char) :
    decodeFrom done position .ready (encodeUtf8 cs) = .ok (done.reverse ++ cs) := by
  induction cs generalizing done position with
  | nil => simp [encodeUtf8, decodeFrom]
  | cons c rest ih =>
    rcases decodeFrom_encode done position c (encodeUtf8 rest) with ⟨later, step⟩
    have bytes : encodeUtf8 (c :: rest) = String.utf8EncodeChar c ++ encodeUtf8 rest :=
      List.flatMap_cons
    rw [bytes, step, ih, List.reverse_cons, List.append_assoc, List.singleton_append]

/-- Decoding undoes encoding. -/
theorem decodeUtf8_encodeUtf8 (cs : List Char) : decodeUtf8 (encodeUtf8 cs) = .ok cs :=
  decodeFrom_encodeUtf8 [] 0 cs

/-- Different texts have different bytes. -/
theorem encodeUtf8_inj {cs cs' : List Char} : encodeUtf8 cs = encodeUtf8 cs' ↔ cs = cs' := by
  refine ⟨fun same => ?_, fun same => by rw [same]⟩
  have read := decodeUtf8_encodeUtf8 cs
  rw [same, decodeUtf8_encodeUtf8] at read
  exact (Except.ok.inj read).symm

/-! ## Bytes of texts -/

theorem toList_loop (bytes : ByteArray) (i : Nat) (done : List UInt8) :
    ByteArray.toList.loop bytes i done = done.reverse ++ bytes.data.toList.drop i := by
  induction left : bytes.size - i generalizing i done with
  | zero =>
    have past : ¬ i < bytes.size := by omega
    have none : bytes.data.toList.drop i = [] := by
      apply List.drop_eq_nil_of_le
      rw [Array.length_toList]
      exact Nat.not_lt.mp past
    rw [ByteArray.toList.loop, if_neg past, none, List.append_nil]
  | succ left ih =>
    have inside : i < bytes.size := by omega
    have here : i < bytes.data.toList.length := by
      rw [Array.length_toList]
      exact inside
    have byte : bytes.get! i = bytes.data.toList[i] := by
      have read : bytes.get! i = bytes.data[i]! := rfl
      rw [read, Array.getElem_toList, getElem!_pos bytes.data i inside]
    rw [ByteArray.toList.loop, if_pos inside, ih (i + 1) _ (by omega), byte,
      List.drop_eq_getElem_cons here, List.reverse_cons, List.append_assoc, List.singleton_append]

theorem toList_eq_data (bytes : ByteArray) : bytes.toList = bytes.data.toList :=
  toList_loop bytes 0 []

theorem toList_toUTF8 (text : String) : text.toUTF8.toList = encodeUtf8 text.toList := by
  have bytes : text.toUTF8 = text.toList.utf8Encode := by
    rw [String.toUTF8_eq_toByteArray, ← String.toByteArray_ofList, String.ofList_toList]
  rw [bytes, toList_eq_data, List.utf8Encode, List.toList_data_toByteArray]
  rfl

/-- A text is read back from its bytes. -/
theorem decodeUtf8_toUTF8 (text : String) : decodeUtf8 text.toUTF8.toList = .ok text.toList := by
  rw [toList_toUTF8, decodeUtf8_encodeUtf8]

/-- A text in which every line is ended by a line feed already stays as it is. -/
theorem unifyLineEnds_eq_self {cs : List Char} (plain : '\r' ∉ cs) : unifyLineEnds cs = cs := by
  fun_induction unifyLineEnds cs with
  | case1 rest ih => exact absurd List.mem_cons_self plain
  | case2 rest _ ih => exact absurd List.mem_cons_self plain
  | case3 c rest _ _ ih => rw [ih fun mem => plain (List.mem_cons_of_mem _ mem)]
  | case4 => rfl

end Text
end Consignment
