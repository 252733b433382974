import Consignment.Url.Basic
import Consignment.Proofs.Text.Utf8
import Mathlib.Data.List.Basic

namespace Consignment
namespace Url

/-!
# Names in paths

A name is written byte by byte, so what can be read back is decided byte by byte: a byte that
stands for itself is an ASCII character other than the percent sign, and every other byte is a
percent sign and two hexadecimal digits.  Reading undoes this before any rest of the path, and
the bytes that it gives are the UTF-8 of the name.

Two texts have the same written form only if they are the same text, because both are read from
it.
-/

/-- A character that stands for itself in a path. -/
def IsPathChar (c : Char) : Prop :=
  c.isAlphanum = true ∨ c ∈ "_.-~/@+".toList

instance (c : Char) : Decidable (IsPathChar c) :=
  inferInstanceAs (Decidable (_ ∨ _))

/-- A path of characters that stand for themselves and of escapes. -/
inductive EscapedPath : List Char → Prop
  | nil : EscapedPath []
  | plain {c : Char} {rest : List Char} (stands : IsPathChar c) (later : EscapedPath rest) :
      EscapedPath (c :: rest)
  | escape {high low : Char} {m n : Nat} {rest : List Char}
      (first : Text.hexDigit? high = some m) (second : Text.hexDigit? low = some n)
      (later : EscapedPath rest) : EscapedPath ('%' :: high :: low :: rest)

/-- The bytes of a path, with one byte for every escape.  A percent sign that begins no escape
is kept. -/
def unescape : List Char → List UInt8
  | '%' :: high :: low :: rest =>
    match Text.hexDigit? high, Text.hexDigit? low with
    | some m, some n => UInt8.ofNat (16 * m + n) :: unescape rest
    | _, _ => String.utf8EncodeChar '%' ++ unescape (high :: low :: rest)
  | c :: rest => String.utf8EncodeChar c ++ unescape rest
  | [] => []

/-! ## Bytes -/

theorem isPlainByte_iff (b : UInt8) :
    isPlainByte b = true ↔ b.toNat < 0x80 ∧ IsPathChar (Char.ofNat b.toNat) := by
  simp [isPlainByte, IsPathChar]

/-- A byte that is escaped has two digits. -/
theorem encodeByte_of_not_plain {b : UInt8} (other : isPlainByte b = false) :
    ∃ high low m n, encodeByte b = ['%', high, low] ∧ Text.hexDigit? high = some m ∧
      Text.hexDigit? low = some n ∧ UInt8.ofNat (16 * m + n) = b := by
  have digit : ∀ m : Fin 16, Text.hexDigit? (Text.upperHexDigit m.val) = some m.val := by decide
  have small : b.toNat < 256 := b.toNat_lt
  have front := digit ⟨b.toNat / 16 % 16, Nat.mod_lt _ (by decide)⟩
  have back := digit ⟨b.toNat % 16, Nat.mod_lt _ (by decide)⟩
  refine ⟨_, _, _, _, ?_, front, back, ?_⟩
  · simp [encodeByte, other, Text.upperHex, Text.fixedDigits]
  · have whole : 16 * (b.toNat / 16 % 16) + b.toNat % 16 = b.toNat := by omega
    simp only [whole, UInt8.ofNat_toNat]

theorem escapedPath_encodeByte (b : UInt8) {rest : List Char} (later : EscapedPath rest) :
    EscapedPath (encodeByte b ++ rest) := by
  cases plain : isPlainByte b with
  | true =>
    rw [encodeByte, if_pos plain]
    exact .plain ((isPlainByte_iff b).mp plain).2 later
  | false =>
    rcases encodeByte_of_not_plain plain with ⟨high, low, m, n, written, first, second, -⟩
    rw [written]
    exact .escape first second later

theorem unescape_encodeByte (b : UInt8) (rest : List Char) :
    unescape (encodeByte b ++ rest) = b :: unescape rest := by
  cases plain : isPlainByte b with
  | true =>
    rcases (isPlainByte_iff b).mp plain with ⟨ascii, stands⟩
    have percent : Char.ofNat b.toNat ≠ '%' := by
      intro same
      rw [same] at stands
      exact absurd stands (by decide)
    have byte : String.utf8EncodeChar (Char.ofNat b.toNat) = [b] := by
      have value : (Char.ofNat b.toNat).val.toNat = b.toNat := by
        have valid : b.toNat.isValidChar := .inl (by omega)
        rw [Char.ofNat, dif_pos valid]
        rfl
      unfold String.utf8EncodeChar
      simp only [value, if_pos (Nat.le_of_lt_succ ascii), UInt8.ofNat_toNat]
    rw [encodeByte, if_pos plain, List.singleton_append, unescape, byte, List.singleton_append]
    exact fun _ _ _ same _ => percent same
  | false =>
    rcases encodeByte_of_not_plain plain with ⟨high, low, m, n, written, first, second, whole⟩
    rw [written]
    simp only [List.cons_append, List.nil_append, unescape, first, second, whole]

/-! ## Texts -/

theorem encode_append (cs rest : List Char) : encode (cs ++ rest) = encode cs ++ encode rest := by
  simp [encode, Text.encodeUtf8]

theorem escapedPath_encode (cs : List Char) : EscapedPath (encode cs) := by
  have each (bytes : List UInt8) : EscapedPath (bytes.flatMap encodeByte) := by
    induction bytes with
    | nil => exact .nil
    | cons b bytes ih =>
      rw [List.flatMap_cons]
      exact escapedPath_encodeByte b ih
  exact each _

theorem unescape_encode (cs : List Char) : unescape (encode cs) = Text.encodeUtf8 cs := by
  have each (bytes : List UInt8) : unescape (bytes.flatMap encodeByte) = bytes := by
    induction bytes with
    | nil => rfl
    | cons b bytes ih => rw [List.flatMap_cons, unescape_encodeByte, ih]
  exact each _

/-- A name is read back from how it is written in a path. -/
theorem decodeUtf8_unescape_encode (cs : List Char) :
    Text.decodeUtf8 (unescape (encode cs)) = .ok cs := by
  rw [unescape_encode, Text.decodeUtf8_encodeUtf8]

theorem encode_inj {cs cs' : List Char} : encode cs = encode cs' ↔ cs = cs' := by
  refine ⟨fun same => ?_, fun same => by rw [same]⟩
  have bytes := congrArg unescape same
  rwa [unescape_encode, unescape_encode, Text.encodeUtf8_inj] at bytes

/-! ## Characters -/

theorem isAlphanum_iff {c : Char} : c.isAlphanum = true ↔
    0x41 ≤ c.toNat ∧ c.toNat ≤ 0x5a ∨ 0x61 ≤ c.toNat ∧ c.toNat ≤ 0x7a ∨
      0x30 ≤ c.toNat ∧ c.toNat ≤ 0x39 := by
  have upper : c.isUpper = true ↔ 0x41 ≤ c.toNat ∧ c.toNat ≤ 0x5a := decide_eq_true_iff
  have lower : c.isLower = true ↔ 0x61 ≤ c.toNat ∧ c.toNat ≤ 0x7a := by
    change (decide (0x61 ≤ c.toNat) && decide (c.toNat ≤ 0x7a)) = true ↔ _
    rw [Bool.and_eq_true, decide_eq_true_iff, decide_eq_true_iff]
  have digit : c.isDigit = true ↔ 0x30 ≤ c.toNat ∧ c.toNat ≤ 0x39 := by
    change (decide (0x30 ≤ c.toNat) && decide (c.toNat ≤ 0x39)) = true ↔ _
    rw [Bool.and_eq_true, decide_eq_true_iff, decide_eq_true_iff]
  change (c.isUpper || c.isLower || c.isDigit) = true ↔ _
  rw [Bool.or_eq_true, Bool.or_eq_true, upper, lower, digit, or_assoc]

theorem isPathChar_of_hexDigit? {c : Char} {n : Nat} (read : Text.hexDigit? c = some n) :
    IsPathChar c := by
  refine .inl (isAlphanum_iff.mpr ?_)
  simp only [Text.hexDigit?] at read
  split at read
  · omega
  split at read
  · omega
  split at read
  · omega
  · cases read

/-- A character that neither ends a path nor has to be left out of an address. -/
def IsVisible (c : Char) : Prop :=
  0x20 < c.toNat ∧ c.toNat < 0x7f ∧ c ≠ '?' ∧ c ≠ '#'

instance (c : Char) : Decidable (IsVisible c) :=
  inferInstanceAs (Decidable (_ ∧ _ ∧ _ ∧ _))

theorem IsVisible.isBlank_eq_false {c : Char} (visible : IsVisible c) :
    Text.isBlank c = false := by
  rcases visible with ⟨least, most, -⟩
  simp only [Text.isBlank, Bool.or_eq_false_iff, Bool.and_eq_false_iff, decide_eq_false_iff_not,
    beq_eq_false_iff_ne]
  omega

theorem IsPathChar.isVisible {c : Char} (stands : IsPathChar c) : IsVisible c := by
  rcases stands with letter | mark
  · have range := isAlphanum_iff.mp letter
    refine ⟨by omega, by omega, ?_, ?_⟩
    · rintro rfl
      exact absurd letter (by decide)
    · rintro rfl
      exact absurd letter (by decide)
  · have each : "_.-~/@+".toList.all (fun c => decide (IsVisible c)) = true := by decide
    exact of_decide_eq_true (List.all_eq_true.mp each c mark)

theorem EscapedPath.isVisible {path : List Char} (escaped : EscapedPath path) :
    ∀ c ∈ path, IsVisible c := by
  induction escaped with
  | nil => simp
  | plain stands _ ih => exact List.forall_mem_cons.mpr ⟨stands.isVisible, ih⟩
  | escape first second _ ih =>
    simp only [List.forall_mem_cons]
    exact ⟨by decide, (isPathChar_of_hexDigit? first).isVisible,
      (isPathChar_of_hexDigit? second).isVisible, ih⟩

end Url
end Consignment
