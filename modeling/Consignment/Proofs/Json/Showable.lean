import Consignment.Json.Reader
import Consignment.Proofs.Ending
import Consignment.Proofs.Value.Showable
import Consignment.Proofs.Yaml.Keys

namespace Consignment

/-!
# Integers of JSON

An integer of too many digits is refused where it is read, so what is read of a text in JSON
can always be shown.
-/

namespace Number

theorem digitIn_lt {base d : Nat} {c : Char} (read : digitIn base c = some d) : d < base := by
  unfold digitIn at read
  grind

/-- A digit more, and a bound that is a power more. -/
theorem mul_add_lt_pow_succ {base value count d : Nat} (small : value < base ^ count)
    (digit : d < base) : value * base + d < base ^ (count + 1) :=
  calc
    value * base + d < value * base + base := by omega
    _ = (value + 1) * base := (Nat.succ_mul value base).symm
    _ ≤ base ^ count * base := Nat.mul_le_mul_right base small
    _ = base ^ (count + 1) := (Nat.pow_succ ..).symm

/-- Digits in a base denote less than the power of the base that their number gives. -/
theorem digitsIn_lt {base : Nat} {afterDigit : Bool} {value count n total : Nat} {cs : List Char}
    (read : digitsIn base afterDigit value count cs = some (n, total))
    (small : value < base ^ count) : n < base ^ total := by
  induction cs generalizing afterDigit value count with
  | nil =>
    rw [digitsIn] at read
    split at read
    · cases read
      exact small
    · exact absurd read (by simp)
  | cons c rest ih =>
    rw [digitsIn] at read
    split at read
    · split at read
      · exact ih read small
      · exact absurd read (by simp)
    · split at read
      · rename_i d digit
        exact ih read (mul_add_lt_pow_succ small (digitIn_lt digit))
      · exact absurd read (by simp)

/-- An integer that is read in decimal is short enough to be written out. -/
theorem natAbs_readInteger {cs : List Char} {n : Int} (read : readInteger 10 cs = .ok n) :
    n.natAbs < tenTo maxDecimalDigits := by
  unfold readInteger at read
  dsimp only at read
  split at read
  · exact absurd read (by simp)
  · rename_i value count digits
    split at read
    · exact absurd read (by simp)
    · rename_i short
      have bound : value < 10 ^ count := digitsIn_lt digits (by simp)
      have few : count ≤ maxDecimalDigits := Nat.not_lt.mp fun long => short ⟨rfl, long⟩
      have small : value < tenTo maxDecimalDigits := Nat.lt_of_lt_of_le bound (pow_le_tenTo few)
      split at read
      all_goals
        cases read
        simpa using small

end Number

namespace Json

open Outcome

theorem ends_readNumber (cs : List Char) :
    Ends (fun read => read.1.isShowable = true) (fun _ => True) (readNumber cs) := by
  unfold readNumber
  dsimp only
  split
  · trivial
  · refine .ite ?_ ?_
    · split
      · rename_i n read
        have short := Number.natAbs_readInteger read
        simpa [Value.isShowable] using short
      · trivial
      · trivial
    · split
      · rfl
      · trivial

/-- A mapping has the keys and values of the entries that it is filled with. -/
theorem showable_mapOf {entries : List (Value × Value)}
    (each : ∀ entry ∈ entries, entry.1.isShowable = true ∧ entry.2.isShowable = true) :
    ∀ entry ∈ Value.mapOf entries, entry.1.isShowable = true ∧ entry.2.isShowable = true := by
  have filled (done : List (Value × Value))
      (held : ∀ entry ∈ done, entry.1.isShowable = true ∧ entry.2.isShowable = true) :
      ∀ entry ∈ entries.foldl (fun done entry => Value.putEntry entry.1 entry.2 done) done,
        entry.1.isShowable = true ∧ entry.2.isShowable = true := by
    induction entries generalizing done with
    | nil => exact held
    | cons first rest ih =>
      have new := each first List.mem_cons_self
      apply ih fun entry mem => each entry (List.mem_cons_of_mem _ mem)
      intro entry mem
      rcases Value.mem_putEntry mem with ⟨old, before, key, value | value⟩ | rfl
      · exact ⟨key ▸ (held old before).1, value ▸ (held old before).2⟩
      · exact ⟨key ▸ (held old before).1, value ▸ new.2⟩
      · exact new
  exact filled [] fun entry mem => absurd mem List.not_mem_nil

theorem isShowable_of_readWord? {cs rest : List Char} {v : Value}
    (found : readWord? cs = some (v, rest)) : v.isShowable = true := by
  have each : ∀ word ∈ words, word.2.isShowable = true := by simp [words, Value.isShowable]
  simp only [readWord?, Option.map_eq_some_iff, Prod.mk.injEq] at found
  rcases found with ⟨word, held, rfl, _⟩
  exact each word (List.mem_of_find?_eq_some held)

/-- What the functions that read values give with some fuel can be shown. -/
structure AllShowable (fuel : Nat) : Prop where
  value (cs : List Char) :
    Ends (fun read => read.1.isShowable = true) (fun _ => True) (readValue fuel cs)
  items (cs : List Char) :
    Ends (fun read => ∀ item ∈ read.1, item.isShowable = true) (fun _ => True) (readItems fuel cs)
  entries (cs : List Char) :
    Ends (fun read => ∀ entry ∈ read.1, entry.1.isShowable = true ∧ entry.2.isShowable = true)
      (fun _ => True) (readEntries fuel cs)

section

variable {fuel : Nat} (ih : AllShowable fuel) (cs : List Char)
include ih

theorem AllShowable.readValue :
    Ends (fun read => read.1.isShowable = true) (fun _ => True) (readValue (fuel + 1) cs) := by
  rw [Json.readValue.eq_def]
  dsimp only
  split
  · exact (ends_any _).bind fun text _ => rfl
  · split
    · rfl
    · exact (ih.items _).bind fun items each => Value.isShowable_list.mpr each
  · split
    · rfl
    · refine (ih.entries _).bind fun entries each => ?_
      exact Value.isShowable_map.mpr (showable_mapOf each)
  · split
    · rename_i found
      exact isShowable_of_readWord? found
    · exact ends_readNumber cs

theorem AllShowable.readItems :
    Ends (fun read => ∀ item ∈ read.1, item.isShowable = true) (fun _ => True)
      (readItems (fuel + 1) cs) := by
  rw [Json.readItems]
  refine (ih.value cs).bind fun item here => ?_
  dsimp only
  split
  · refine (ih.items _).bind fun items later => ?_
    exact List.forall_mem_cons.mpr ⟨here, later⟩
  · exact List.forall_mem_singleton.mpr here
  · trivial

theorem AllShowable.readEntries :
    Ends (fun read => ∀ entry ∈ read.1, entry.1.isShowable = true ∧ entry.2.isShowable = true)
      (fun _ => True) (readEntries (fuel + 1) cs) := by
  rw [Json.readEntries.eq_def]
  dsimp only
  split
  · refine (ends_any _).bind fun key _ => ?_
    split
    · refine (ih.value _).bind fun value here => ?_
      have entry : (Value.text key.1).isShowable = true ∧ value.1.isShowable = true := ⟨rfl, here⟩
      split
      · refine (ih.entries _).bind fun entries later => ?_
        exact List.forall_mem_cons.mpr ⟨entry, later⟩
      · exact List.forall_mem_singleton.mpr entry
      · trivial
    · trivial
  · trivial

end

theorem allShowable (fuel : Nat) : AllShowable fuel := by
  induction fuel with
  | zero => constructor <;> intro cs <;> trivial
  | succ fuel ih => exact ⟨ih.readValue, ih.readItems, ih.readEntries⟩

/-- What is read of a text in JSON can be shown. -/
theorem isShowable_of_read {cs : List Char} {v : Value} (done : read cs = .ok v) :
    v.isShowable = true := by
  have ends : Ends (fun v => v.isShowable = true) (fun _ => True) (read cs) := by
    unfold read
    refine ((allShowable _).value _).bind fun read showable => ?_
    exact .ite showable trivial
  exact ends.of_ok done

end Json
end Consignment
