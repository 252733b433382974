import Consignment.Value.Shown
import Mathlib.Algebra.Group.Nat.Defs

namespace Consignment

/-!
# Values that can be shown

A value can be shown when every integer in it is short enough, at any depth, in keys as in
values.
-/

theorem Number.pow_le_tenTo {count most : Nat} (few : count ≤ most) : 10 ^ count ≤ tenTo most :=
  Nat.pow_le_pow_right (by decide) few

namespace Value

/-- The number that a byte is can be shown. -/
theorem isShowable_byte (byte : UInt8) : (int byte.toNat).isShowable = true := by
  have bound : 10 ^ 3 ≤ Number.tenTo Number.maxDecimalDigits := Number.pow_le_tenTo (by decide)
  have small := byte.toNat_lt
  rw [isShowable, decide_eq_true_eq]
  omega

theorem areShowable_iff {items : List Value} :
    areShowable items = true ↔ ∀ item ∈ items, item.isShowable = true := by
  induction items with
  | nil => simp [areShowable]
  | cons item rest ih => simp [areShowable, ih]

theorem entriesAreShowable_iff {entries : List (Value × Value)} :
    entriesAreShowable entries = true ↔
      ∀ entry ∈ entries, entry.1.isShowable = true ∧ entry.2.isShowable = true := by
  induction entries with
  | nil => simp [entriesAreShowable]
  | cons entry rest ih => simp [entriesAreShowable, ih, and_assoc]

theorem isShowable_list {items : List Value} :
    (list items).isShowable = true ↔ ∀ item ∈ items, item.isShowable = true := by
  rw [isShowable, areShowable_iff]

theorem isShowable_map {entries : List (Value × Value)} :
    (map entries).isShowable = true ↔
      ∀ entry ∈ entries, entry.1.isShowable = true ∧ entry.2.isShowable = true := by
  rw [isShowable, entriesAreShowable_iff]

@[simp] theorem isShowable_text (s : String) : (text s).isShowable = true := rfl

@[simp] theorem isShowable_record {fields : List (String × Value)} :
    (record fields).isShowable = true ↔ ∀ field ∈ fields, field.2.isShowable = true := by
  rw [record, isShowable_map, List.forall_mem_map]
  simp only [isShowable_text, true_and]

@[simp] theorem isShowable_texts (items : List String) : (texts items).isShowable = true := by
  rw [texts, isShowable_list, List.forall_mem_map]
  exact fun item _ => rfl

@[simp] theorem isShowable_textMap (fields : List (String × String)) :
    (textMap fields).isShowable = true := by
  rw [textMap, isShowable_record, List.forall_mem_map]
  exact fun field _ => rfl

end Value
end Consignment
