import Consignment.Text.Digits

namespace Consignment

/-!
# Dates and times of day

Dates follow the Gregorian calendar, extended backwards, in the years 1 to
9999.  A moment is a date with a time of day down to the microsecond; its
offset from universal time, when it has one, is a number of minutes strictly
between one day back and one day ahead.

A date and a moment carry the proof that they exist, so a text that names the
thirtieth of February can be refused only where it is read, and the refusal
says which field was wrong.
-/

/-- Which field of a date or time is out of its range. -/
inductive CalendarFault where
  | year (year : Nat)
  | month
  | day
  | hour
  | minute
  | second
  /-- An offset of a day or more, in minutes. -/
  | offset (minutes : Int)
  deriving DecidableEq, Repr

namespace Calendar

def isLeap (year : Nat) : Bool :=
  year % 4 == 0 && (year % 100 != 0 || year % 400 == 0)

/-- The number of days of a month; zero for a month that does not exist. -/
def daysIn (year month : Nat) : Nat :=
  if month = 2 then if isLeap year then 29 else 28
  else if month = 4 ∨ month = 6 ∨ month = 9 ∨ month = 11 then 30
  else if 1 ≤ month ∧ month ≤ 12 then 31
  else 0

/-- The days before the first of January of a year. -/
def daysBeforeYear (year : Nat) : Nat :=
  let y := year - 1
  y * 365 + y / 4 - y / 100 + y / 400

/-- The days of the year before a month. -/
def daysBeforeMonth (year month : Nat) : Nat :=
  (List.range (month - 1)).foldl (fun days m => days + daysIn year (m + 1)) 0

end Calendar

structure Date where
  year : Nat
  month : Nat
  day : Nat
  deriving DecidableEq, Repr

namespace Date

/-- The day exists. -/
def Valid (d : Date) : Prop :=
  1 ≤ d.year ∧ d.year ≤ 9999 ∧ 1 ≤ d.month ∧ d.month ≤ 12 ∧ 1 ≤ d.day ∧
    d.day ≤ Calendar.daysIn d.year d.month

instance (d : Date) : Decidable d.Valid := by
  unfold Valid; infer_instance

/-- The first field that keeps the day from existing is reported, from the year
to the day. -/
def ofFields (year month day : Nat) : Except CalendarFault Date :=
  if year < 1 ∨ 9999 < year then .error (.year year)
  else if month < 1 ∨ 12 < month then .error .month
  else if day < 1 ∨ Calendar.daysIn year month < day then .error .day
  else .ok ⟨year, month, day⟩

/-- The day's number, the first of January of the year 1 being number one. -/
def ordinal (d : Date) : Nat :=
  Calendar.daysBeforeYear d.year + Calendar.daysBeforeMonth d.year d.month + d.day

/-- Year, month and day with hyphens. -/
def iso (d : Date) : String :=
  String.ofList (Text.paddedDecimal 4 d.year ++ '-' :: Text.paddedDecimal 2 d.month
    ++ '-' :: Text.paddedDecimal 2 d.day)

end Date

/-- A date with a time of day, and possibly the offset of its clock in minutes. -/
structure Moment where
  date : Date
  hour : Nat
  minute : Nat
  second : Nat
  microsecond : Nat
  offset : Option Int := none
  deriving DecidableEq, Repr

namespace Moment

/-- The fields of the time of day and the offset are in range, and the date
exists. -/
def Valid (t : Moment) : Prop :=
  t.date.Valid ∧ t.hour < 24 ∧ t.minute < 60 ∧ t.second < 60 ∧ t.microsecond < 1000000 ∧
    ∀ offset ∈ t.offset, -1440 < offset ∧ offset < 1440

/-- The offset is judged before the other fields, and those from the year down. -/
def ofFields (year month day hour minute second microsecond : Nat) (offset : Option Int) :
    Except CalendarFault Moment := do
  match offset with
  | some minutes => if minutes ≤ -1440 ∨ 1440 ≤ minutes then throw (.offset minutes)
  | none => pure ()
  let date ← Date.ofFields year month day
  if 24 ≤ hour then throw .hour
  if 60 ≤ minute then throw .minute
  if 60 ≤ second then throw .second
  return ⟨date, hour, minute, second, microsecond, offset⟩

/-- Microseconds since the start of the calendar, at offset zero when there is an
offset. -/
def instant (t : Moment) : Int :=
  let minutes : Int := ((t.date.ordinal * 24 + t.hour) * 60 + t.minute : Nat) - t.offset.getD 0
  (minutes * 60 + t.second) * 1000000 + t.microsecond

/-- Two clocks with offsets agree on an instant; without offsets the fields have
to agree; one with and one without never do. -/
def sameInstant (s t : Moment) : Bool :=
  s.offset.isSome == t.offset.isSome && s.instant == t.instant

def offsetText (minutes : Int) : List Char :=
  let size := minutes.natAbs
  (if minutes < 0 then '-' else '+') :: Text.paddedDecimal 2 (size / 60)
    ++ ':' :: Text.paddedDecimal 2 (size % 60)

/-- Date, separator, time, microseconds when there are any, offset when there is
one. -/
def isoWith (separator : Char) (t : Moment) : String :=
  let micro := if t.microsecond = 0 then [] else '.' :: Text.paddedDecimal 6 t.microsecond
  let offset := match t.offset with
    | none => []
    | some minutes => offsetText minutes
  t.date.iso ++ String.ofList (separator :: Text.paddedDecimal 2 t.hour
    ++ ':' :: Text.paddedDecimal 2 t.minute ++ ':' :: Text.paddedDecimal 2 t.second
    ++ micro ++ offset)

/-- The form with the letter T between date and time. -/
def iso (t : Moment) : String :=
  t.isoWith 'T'

end Moment
end Consignment
