import Consignment.Value.Basic
import Consignment.Number.Read
import Consignment.Number.Written
import Consignment.Text.Quoted

namespace Consignment
namespace Value

/-!
# Values in messages

A message shows a value in one of two ways.  `shown` is exact: texts stand in
quotes, so that the text `1` and the number `1` differ.  `plain` is the text a
reader would type: it differs from `shown` for texts and for points in time
only, and lists and mappings show their parts exactly in both.

An integer of too many digits is not written out in decimal, so a value that holds
one cannot be shown in either way.
-/

private def joined (parts : List String) : String :=
  String.intercalate ", " parts

def shownOffset (minutes : Int) : String :=
  if minutes = 0 then "datetime.timezone.utc"
  else
    let seconds := minutes * 60
    let delta :=
      if seconds < 0 then "days=-1, seconds=" ++ Text.decimal (86400 + seconds)
      else "seconds=" ++ Text.decimal seconds
    "datetime.timezone(datetime.timedelta(" ++ delta ++ "))"

def shownDate (d : Date) : String :=
  "datetime.date(" ++ joined ([d.year, d.month, d.day].map toString) ++ ")"

/-- A moment as a message shows it: seconds and microseconds only where they are
not zero. -/
def shownMoment (t : Moment) : String :=
  let fine :=
    if t.microsecond ≠ 0 then [t.second, t.microsecond]
    else if t.second ≠ 0 then [t.second]
    else []
  let offset := match t.offset with
    | none => []
    | some minutes => ["tzinfo=" ++ shownOffset minutes]
  "datetime.datetime(" ++ joined
    (([t.date.year, t.date.month, t.date.day, t.hour, t.minute] ++ fine).map toString ++ offset)
    ++ ")"

mutual

/-- A value as a message shows it exactly. -/
def shown : Value → String
  | null => "None"
  | bool b => if b then "True" else "False"
  | int n => Text.decimal n
  | float x => Number.shown x
  | text s => Text.quoted s
  | bytes b => Text.quotedBytes b
  | date d => shownDate d
  | moment t => shownMoment t
  | list items => "[" ++ joined (shownItems items) ++ "]"
  | map entries => "\x7b" ++ joined (shownEntries entries) ++ "\x7d"
  | set [] => "set()"
  | set members => "\x7b" ++ joined (shownItems members) ++ "\x7d"
  | pair first second => "(" ++ shown first ++ ", " ++ shown second ++ ")"
  | enclosing isMap => if isMap then "\x7b...\x7d" else "[...]"

def shownItems : List Value → List String
  | [] => []
  | v :: rest => shown v :: shownItems rest

def shownEntries : List (Value × Value) → List String
  | [] => []
  | (key, value) :: rest => (shown key ++ ": " ++ shown value) :: shownEntries rest

end

def plain : Value → String
  | text s => s
  | date d => d.iso
  | moment t => t.isoWith ' '
  | v => v.shown

mutual

/-- Whether every integer in a value is short enough to be written out. -/
def isShowable : Value → Bool
  | int n => n.natAbs < Number.tenTo Number.maxDecimalDigits
  | list items | set items => areShowable items
  | map entries => entriesAreShowable entries
  | pair first second => isShowable first && isShowable second
  | _ => true

def areShowable : List Value → Bool
  | [] => true
  | v :: rest => isShowable v && areShowable rest

def entriesAreShowable : List (Value × Value) → Bool
  | [] => true
  | (key, value) :: rest => isShowable key && isShowable value && entriesAreShowable rest

end

end Value
end Consignment
