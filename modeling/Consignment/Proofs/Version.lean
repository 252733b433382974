import Consignment.PackageId
import Consignment.Version
import Consignment.Proofs.Calendar
import Consignment.Proofs.Text.FixedWidth

namespace Consignment

/-!
# Development versions in order

Everything in front of the time is the same in two development versions of one package and one
user, and the time is a row of numbers in fixed widths.  So the versions are compared like the
rows, and the rows like the moments down to the millisecond.

The year has no fixed width of its own: it has four digits only from the year 1000 on.
-/

namespace Stamp

def widths : List Nat :=
  [4, 2, 2, 2, 2, 2, 3]

/-- A time is written as a row of its fields, without the point in front. -/
theorem cons_timeText {t : Moment} (late : 1000 ≤ t.date.year) :
    '.' :: timeText t = Text.dotted widths t.fields := by
  have year : (toString t.date.year).toList = Text.paddedDecimal 4 t.date.year := by
    have fits : ¬ t.date.year < 10 ^ 3 := Nat.not_lt.mpr late
    have long : ¬ (Nat.toDigits 10 t.date.year).length ≤ 3 := by
      rwa [Nat.length_toDigits_le_iff (by decide) (by decide)]
    have written : (toString t.date.year).toList = Nat.toDigits 10 t.date.year := Nat.toList_repr
    have filled : 4 - (Nat.toDigits 10 t.date.year).length = 0 := by omega
    rw [Text.paddedDecimal, written, filled, List.replicate_zero, List.nil_append]
  simp only [timeText, year, widths, Moment.fields, Date.fields, Text.dotted, List.cons_append,
    List.nil_append, List.append_assoc, List.append_nil]

theorem fitWidths_fields {t : Moment} (real : t.Valid) : Text.FitWidths widths t.fields := by
  rcases real with ⟨⟨-, year, -, month, -, day⟩, hour, minute, second, microsecond, -⟩
  have days : Calendar.daysIn t.date.year t.date.month ≤ 31 := by
    unfold Calendar.daysIn
    split <;> (repeat' split) <;> omega
  simp only [Text.FitWidths, widths, Moment.fields, Date.fields, List.cons_append, List.nil_append,
    List.forall₂_cons, List.forall₂_nil_left_iff, and_true]
  omega

/-- Times in the years that have four digits are compared like the moments. -/
theorem timeText_lt_iff {s t : Moment} (real : s.Valid) (real' : t.Valid)
    (late : 1000 ≤ s.date.year) (late' : 1000 ≤ t.date.year) :
    timeText s < timeText t ↔
      s.toMillisecond.shown.instant < t.toMillisecond.shown.instant := by
  have rows := Text.dotted_lt_iff (fitWidths_fields real) (fitWidths_fields real')
  rw [← cons_timeText late, ← cons_timeText late', List.cons_lt_cons_iff] at rows
  rw [Moment.shown_instant_lt_iff real real', ← rows]
  simp

end Stamp

/-- The time is the end of a development version. -/
theorem versionFor_dev (declared : String) (user : Option String) :
    ∃ front : List Char, ∀ now : Moment,
      (versionFor .dev ⟨now, user⟩ declared).toList = front ++ Stamp.timeText now := by
  match user with
  | none | some "" => exact ⟨declared.toList ++ ['-'], fun now => by simp [versionFor, Stamp.text]⟩
  | some name =>
    by_cases unnamed : name = ""
    · exact ⟨declared.toList ++ ['-'], fun now => by simp [versionFor, Stamp.text, unnamed]⟩
    · exact ⟨declared.toList ++ '-' :: name.toList ++ ['-'], fun now => by
        simp [versionFor, Stamp.text]⟩

section order

variable (declared : String) (user : Option String) {s t : Moment}
  (real : s.Valid) (real' : t.Valid) (late : 1000 ≤ s.date.year) (late' : 1000 ≤ t.date.year)
include real real' late late'

theorem versionFor_dev_lt_iff :
    versionFor .dev ⟨s, user⟩ declared < versionFor .dev ⟨t, user⟩ declared ↔
      s.toMillisecond.shown.instant < t.toMillisecond.shown.instant := by
  rcases versionFor_dev declared user with ⟨front, held⟩
  rw [String.lt_iff, held, held, ← Stamp.timeText_lt_iff real real' late late',
    Text.append_lt_append_iff rfl]
  simp

theorem versionFor_dev_inj :
    versionFor .dev ⟨s, user⟩ declared = versionFor .dev ⟨t, user⟩ declared ↔
      s.toMillisecond.shown.instant = t.toMillisecond.shown.instant := by
  exact Text.eq_iff_of_lt_iff (versionFor_dev_lt_iff declared user real real' late late')
    (versionFor_dev_lt_iff declared user real' real late' late)

/-- Under one name, builds are in the order of their times. -/
theorem notAfter_versionFor_dev (name : String) :
    PackageId.notAfter ⟨name, versionFor .dev ⟨s, user⟩ declared⟩
        ⟨name, versionFor .dev ⟨t, user⟩ declared⟩ =
      decide (s.toMillisecond.shown.instant ≤ t.toMillisecond.shown.instant) := by
  have more := versionFor_dev_lt_iff declared user real' real late' late
  rw [PackageId.notAfter, if_pos (beq_self_eq_true name), Text.notAfter, ← decide_not]
  exact decide_eq_decide.mpr ((not_congr more).trans Int.not_lt)

end order

/-- **Development versions are ordered by time.**  Take builds that declare one version, by one
user or by none, at moments of the years 1000 to 9999.  Of any two of them, the version of the
first is before, the same as or after the version of the second if and only if what the first
clock shows, down to the millisecond, is before, the same as or after what the second one shows;
for clocks with one offset, as local clocks are, these are the instants themselves.  So builds
that are a millisecond or more apart have different versions.  And under one name, the order of
package ids lists the builds in the order of their times. -/
theorem versions_ordered_by_time (declared : String) (user : Option String)
    (moments : List Moment) (real : ∀ t ∈ moments, t.Valid ∧ 1000 ≤ t.date.year) :
    let version (now : Moment) := versionFor .dev ⟨now, user⟩ declared
    (∀ s ∈ moments, ∀ t ∈ moments,
      (version s < version t ↔ s.toMillisecond.shown.instant < t.toMillisecond.shown.instant) ∧
      (version s = version t ↔ s.toMillisecond.shown.instant = t.toMillisecond.shown.instant) ∧
      (version t < version s ↔ t.toMillisecond.shown.instant < s.toMillisecond.shown.instant) ∧
      (s.offset = t.offset →
        (version s < version t ↔ s.toMillisecond.instant < t.toMillisecond.instant) ∧
        (version s = version t ↔ s.toMillisecond.instant = t.toMillisecond.instant)) ∧
      (1000 ≤ (s.shown.instant - t.shown.instant).natAbs → version s ≠ version t)) ∧
    ∀ name : String,
      PackageId.sorted (moments.map fun now => ⟨name, version now⟩) =
        (moments.mergeSort fun s t =>
          decide (s.toMillisecond.shown.instant ≤ t.toMillisecond.shown.instant)).map
            fun now => ⟨name, version now⟩ := by
  intro version
  refine ⟨fun s mem t mem' => ?_, fun name => ?_⟩
  · rcases real s mem with ⟨day, late⟩
    rcases real t mem' with ⟨day', late'⟩
    have less := versionFor_dev_lt_iff declared user day day' late late'
    have same := versionFor_dev_inj declared user day day' late late'
    refine ⟨less, same, versionFor_dev_lt_iff declared user day' day late' late,
      fun offset => ⟨less.trans ?_, same.trans ?_⟩, fun apart alike => ?_⟩
    · have apart := Moment.shown_instant_sub (s := s.toMillisecond) (t := t.toMillisecond) offset
      omega
    · have apart := Moment.shown_instant_sub (s := s.toMillisecond) (t := t.toMillisecond) offset
      omega
    · have alike := same.mp alike
      rw [Moment.shown_instant_toMillisecond, Moment.shown_instant_toMillisecond] at alike
      omega
  · refine (List.map_mergeSort fun s mem t mem' => ?_).symm
    exact (notAfter_versionFor_dev declared user (real s mem).1 (real t mem').1 (real s mem).2
      (real t mem').2 name).symm

/-- The last microsecond of a leap day. -/
def leapNight : Moment :=
  ⟨⟨2024, 2, 29⟩, 23, 59, 59, 999999, none⟩

/-- The midnight right after it. -/
def marchMidnight : Moment :=
  ⟨⟨2024, 3, 1⟩, 0, 0, 0, 0, none⟩

theorem versions_ordered_by_time_leapNight :
    (∀ t ∈ [marchMidnight, leapNight], t.Valid ∧ 1000 ≤ t.date.year) ∧
      versionFor .dev ⟨leapNight, some "ivan"⟩ "1.0.0" = "1.0.0-ivan-2024.02.29.23.59.59.999" ∧
      versionFor .dev ⟨leapNight, some "ivan"⟩ "1.0.0" <
        versionFor .dev ⟨marchMidnight, some "ivan"⟩ "1.0.0" ∧
      PackageId.sorted
          ([marchMidnight, leapNight].map fun now =>
            ⟨"breeze", versionFor .dev ⟨now, some "ivan"⟩ "1.0.0"⟩) =
        [⟨"breeze", "1.0.0-ivan-2024.02.29.23.59.59.999"⟩,
          ⟨"breeze", "1.0.0-ivan-2024.03.01.00.00.00.000"⟩] := by
  have real : ∀ t ∈ [marchMidnight, leapNight], t.Valid ∧ 1000 ≤ t.date.year := by decide
  have ordered := versions_ordered_by_time "1.0.0" (some "ivan") [marchMidnight, leapNight] real
  have pair := ordered.1 leapNight (by decide) marchMidnight (by decide)
  refine ⟨real, by decide +kernel, pair.1.mpr (by decide), ?_⟩
  rw [ordered.2 "breeze"]
  have swapped : [marchMidnight, leapNight].mergeSort (fun s t =>
      decide (s.toMillisecond.shown.instant ≤ t.toMillisecond.shown.instant)) =
      [leapNight, marchMidnight] := by
    have later : ¬ marchMidnight.toMillisecond.shown.instant ≤
        leapNight.toMillisecond.shown.instant := by decide
    simp [List.mergeSort, List.MergeSort.Internal.splitInTwo, later]
  rw [swapped]
  decide +kernel

end Consignment
