import Consignment.Calendar
import Mathlib.Data.List.Lex

namespace Consignment

/-!
# Moments in order

A moment is a row of fields, from the year down to the microsecond, and it is also a number of
microseconds.  A row comes before another one if the first field in which they differ is smaller;
here this is shown to be the order of the numbers.  What carries it is that every field stays
below one unit of the field in front of it.  For the days and the months this is a fact about the
calendar: a day ends before the next month, and December ends before the next year.

The comparison is of moments as their own clocks show them.  Two clocks with one offset differ
from this by the same number of minutes; of clocks with different offsets nothing is said.
-/

namespace Calendar

theorem daysBeforeMonth_succ (year month : Nat) (real : 1 ≤ month) :
    daysBeforeMonth year (month + 1) = daysBeforeMonth year month + daysIn year month := by
  rcases Nat.exists_eq_add_of_le' real with ⟨month, rfl⟩
  simp [daysBeforeMonth, List.range_succ]

theorem daysBeforeMonth_le {year month month' : Nat} (real : 1 ≤ month) (notAfter : month ≤ month') :
    daysBeforeMonth year month ≤ daysBeforeMonth year month' := by
  induction notAfter with
  | refl => exact Nat.le_refl _
  | @step month' notAfter ih =>
    rw [daysBeforeMonth_succ year month' (Nat.le_trans real notAfter)]
    exact Nat.le_trans ih (Nat.le_add_right _ _)

/-- The days of all twelve months. -/
theorem daysBeforeMonth_thirteen (year : Nat) :
    daysBeforeMonth year 13 = if isLeap year then 366 else 365 := by
  cases leap : isLeap year <;> simp [daysBeforeMonth, List.range_succ, daysIn, leap]

theorem isLeap_iff (year : Nat) :
    isLeap year = true ↔ year % 4 = 0 ∧ (year % 100 ≠ 0 ∨ year % 400 = 0) := by
  simp [isLeap]

/-- A year has as many days as its months together. -/
theorem daysBeforeYear_succ (year : Nat) (real : 1 ≤ year) :
    daysBeforeYear (year + 1) = daysBeforeYear year + daysBeforeMonth year 13 := by
  rcases Nat.exists_eq_add_of_le' real with ⟨y, rfl⟩
  have step (n : Nat) : (y + 1) / n = y / n + if (y + 1) % n = 0 then 1 else 0 := by
    simp only [Nat.succ_div, Nat.dvd_iff_mod_eq_zero]
  have four : (y + 1) % 100 = 0 → (y + 1) % 4 = 0 := by omega
  have hundred : (y + 1) % 400 = 0 → (y + 1) % 100 = 0 := by omega
  have fewer : y / 100 ≤ y / 4 := by omega
  rw [daysBeforeMonth_thirteen]
  simp only [daysBeforeYear, Nat.add_sub_cancel, step, isLeap_iff]
  generalize (y + 1) % 4 = a, (y + 1) % 100 = b, (y + 1) % 400 = c at four hundred ⊢
  generalize y / 4 = d, y / 100 = e, y / 400 = f at fewer ⊢
  grind

theorem daysBeforeYear_le {year year' : Nat} (real : 1 ≤ year) (notAfter : year ≤ year') :
    daysBeforeYear year ≤ daysBeforeYear year' := by
  induction notAfter with
  | refl => exact Nat.le_refl _
  | @step year' notAfter ih =>
    rw [daysBeforeYear_succ year' (Nat.le_trans real notAfter)]
    exact Nat.le_trans ih (Nat.le_add_right _ _)

end Calendar

namespace Date

def fields (d : Date) : List Nat :=
  [d.year, d.month, d.day]

/-- A day is not after the last one of its month. -/
theorem Valid.le_daysBeforeMonth_succ {d : Date} (real : d.Valid) :
    Calendar.daysBeforeMonth d.year d.month + d.day ≤
      Calendar.daysBeforeMonth d.year (d.month + 1) := by
  rcases real with ⟨-, -, first, -, -, last⟩
  rw [Calendar.daysBeforeMonth_succ _ _ first]
  exact Nat.add_le_add_left last _

theorem ordinal_lt_of_fields_lt {d e : Date} (real : d.Valid) (real' : e.Valid)
    (less : d.fields < e.fields) : d.ordinal < e.ordinal := by
  have monthEnd := real.le_daysBeforeMonth_succ
  have first : 1 ≤ e.day := real'.2.2.2.2.1
  simp only [fields, List.cons_lt_cons_iff, List.lt_irrefl, and_false, or_false] at less
  unfold ordinal
  rcases less with year | ⟨year, month | ⟨month, day⟩⟩
  · have yearEnd : Calendar.daysBeforeMonth d.year (d.month + 1) ≤
        Calendar.daysBeforeMonth d.year 13 :=
      Calendar.daysBeforeMonth_le (Nat.le_add_left 1 _) (Nat.succ_le_succ real.2.2.2.1)
    have later : Calendar.daysBeforeYear (d.year + 1) ≤ Calendar.daysBeforeYear e.year :=
      Calendar.daysBeforeYear_le (Nat.le_add_left 1 _) year
    rw [Calendar.daysBeforeYear_succ _ real.1] at later
    omega
  · have later : Calendar.daysBeforeMonth d.year (d.month + 1) ≤
        Calendar.daysBeforeMonth d.year e.month :=
      Calendar.daysBeforeMonth_le (Nat.le_add_left 1 _) month
    rw [← year]
    omega
  · rw [← year, ← month]
    omega

end Date

namespace Moment

instance (t : Moment) : Decidable t.Valid := by
  unfold Valid; infer_instance

/-- The moment without the microseconds behind its last full millisecond. -/
def toMillisecond (t : Moment) : Moment :=
  { t with microsecond := t.microsecond / 1000 * 1000 }

/-- The time that the moment's own clock shows, whatever its offset. -/
def shown (t : Moment) : Moment :=
  { t with offset := none }

def fields (t : Moment) : List Nat :=
  t.date.fields ++ [t.hour, t.minute, t.second, t.microsecond / 1000]

theorem shown_instant_lt_of_fields_lt {s t : Moment} (real : s.Valid) (real' : t.Valid)
    (less : s.fields < t.fields) : s.toMillisecond.shown.instant < t.toMillisecond.shown.instant := by
  rcases real with ⟨day, hour, minute, second, microsecond, -⟩
  rcases real' with ⟨day', -⟩
  have days : s.date.fields < t.date.fields ∨ s.date.fields = t.date.fields ∧
      [s.hour, s.minute, s.second, s.microsecond / 1000] <
        [t.hour, t.minute, t.second, t.microsecond / 1000] := by
    simp only [fields, Date.fields, List.cons_append, List.nil_append, List.cons_lt_cons_iff,
      List.cons.injEq, List.lt_irrefl, and_false, or_false, and_true] at less ⊢
    tauto
  simp only [instant, toMillisecond, shown, Option.getD_none]
  rcases days with day'' | ⟨day'', time⟩
  · have later := Date.ordinal_lt_of_fields_lt day day' day''
    omega
  · have same : s.date.ordinal = t.date.ordinal := by
      simp only [Date.fields, List.cons.injEq, and_true] at day''
      simp only [Date.ordinal, day'']
    simp only [List.cons_lt_cons_iff, List.lt_irrefl, and_false, or_false] at time
    omega

theorem shown_instant_lt_iff {s t : Moment} (real : s.Valid) (real' : t.Valid) :
    s.toMillisecond.shown.instant < t.toMillisecond.shown.instant ↔ s.fields < t.fields := by
  refine ⟨fun less => ?_, shown_instant_lt_of_fields_lt real real'⟩
  rcases lt_trichotomy s.fields t.fields with before | same | after
  · exact before
  · simp only [fields, Date.fields, List.cons_append, List.nil_append, List.cons.injEq] at same
    simp only [instant, toMillisecond, shown, Date.ordinal, same, Int.lt_irrefl] at less
  · exact absurd less (Int.lt_asymm (shown_instant_lt_of_fields_lt real' real after))

/-- Clocks with one offset are as far apart as the times that they show. -/
theorem shown_instant_sub {s t : Moment} (offset : s.offset = t.offset) :
    s.shown.instant - t.shown.instant = s.instant - t.instant := by
  simp only [instant, shown, offset, Option.getD_none]
  omega

/-- To the millisecond, a moment shows the last full millisecond of what it shows. -/
theorem shown_instant_toMillisecond (t : Moment) :
    t.toMillisecond.shown.instant = t.shown.instant / 1000 * 1000 := by
  simp only [instant, shown, toMillisecond]
  omega

end Moment
end Consignment
