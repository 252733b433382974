import Consignment.Digest
import Consignment.Proofs.Path

namespace Consignment

/-!
# Digests as names

A digest is sixty-four hexadecimal digits, whatever was digested.  So it has no slash and
is neither empty nor a dot, and it names one directory.
-/

namespace Text

theorem exists_of_mem_fixedDigits {digit : Nat → Char} {base width n : Nat} (some : 0 < base)
    {c : Char} (mem : c ∈ fixedDigits digit base width n) : ∃ m < base, c = digit m := by
  induction width generalizing n with
  | zero => exact absurd mem List.not_mem_nil
  | succ width ih =>
    rw [fixedDigits] at mem
    rcases List.mem_append.mp mem with front | last
    · exact ih front
    · exact ⟨n % base, Nat.mod_lt n some, List.mem_singleton.mp last⟩

theorem isSome_hexDigit?_lowerHexDigit {n : Nat} (digit : n < 16) :
    (hexDigit? (lowerHexDigit n)).isSome := by
  have each : ∀ m : Fin 16, (hexDigit? (lowerHexDigit m.val)).isSome := by decide
  exact each ⟨n, digit⟩

theorem isSome_of_mem_hex {width n : Nat} {c : Char} (mem : c ∈ hex width n) :
    (hexDigit? c).isSome := by
  rcases exists_of_mem_fixedDigits (by decide) mem with ⟨m, digit, rfl⟩
  exact isSome_hexDigit?_lowerHexDigit digit

end Text

namespace Digest

theorem length_ofList (bytes : List UInt8) : (ofList bytes).length = 64 := by
  rw [ofList, ← String.length_toList, String.toList_ofList]
  simp [Text.hex]

theorem isSome_of_mem_ofList {bytes : List UInt8} {c : Char} (mem : c ∈ (ofList bytes).toList) :
    (Text.hexDigit? c).isSome := by
  rw [ofList, String.toList_ofList] at mem
  rcases List.mem_flatMap.mp mem with ⟨w, _, digit⟩
  exact Text.isSome_of_mem_hex digit

theorem slash_not_mem_ofList (bytes : List UInt8) : '/' ∉ (ofList bytes).toList := by
  intro slash
  exact absurd (isSome_of_mem_ofList slash) (by decide)

/-- A digest is the name of a directory. -/
theorem isName_ofText (text : String) : Path.IsName (ofText text) ∧ ofText text ≠ ".." := by
  apply Path.isName_of_length
  · rw [ofText, length_ofList]
    decide
  · exact slash_not_mem_ofList _

end Digest
end Consignment
