import Consignment.Text.Split

namespace Consignment
namespace Yaml

/-!
# Tags and the typing of plain scalars

A tag says what a node stands for.  A scalar without a tag and without marks gets its
tag from its text: truth values, numbers, dates and the words for null have shapes of
their own, and every other text is a text.

A shape may be followed by a single line feed, which only a scalar with marks can end
with.
-/

inductive Tag where
  | null
  | bool
  | int
  | float
  | binary
  | timestamp
  | text
  | sequence
  | mapping
  | set
  /-- A list of single entries whose order matters. -/
  | orderedPairs
  /-- A list of single entries. -/
  | pairs
  /-- The key under which a mapping takes up another one's entries. -/
  | merge
  /-- The key under which a mapping has the value that it stands for. -/
  | value
  /-- A tag of no meaning here. -/
  | other (text : String)
  deriving DecidableEq, Repr

namespace Tag

/-- What the second handle without a name stands for. -/
def standardSpace : String := "tag:yaml.org,2002:"

/-- The tags of the standard. -/
def standard : List (String × Tag) := [
  ("null", .null), ("bool", .bool), ("int", .int), ("float", .float), ("binary", .binary),
  ("timestamp", .timestamp), ("str", .text), ("seq", .sequence), ("map", .mapping),
  ("set", .set), ("omap", .orderedPairs), ("pairs", .pairs), ("merge", .merge),
  ("value", .value)]

def ofText (text : String) : Tag :=
  match standard.find? fun entry => standardSpace ++ entry.1 == text with
  | some entry => entry.2
  | none => .other text

end Tag

/-! ## Shapes of plain scalars -/

def boolWords : List String := [
  "yes", "Yes", "YES", "no", "No", "NO", "true", "True", "TRUE", "false", "False", "FALSE",
  "on", "On", "ON", "off", "Off", "OFF"]

def nullWords : List String := ["~", "null", "Null", "NULL", ""]

def dropSign : List Char → List Char
  | '-' :: rest | '+' :: rest => rest
  | cs => cs

/-- A digit of a number, or the underscore that may stand for readability. -/
def isSpacedDigit (c : Char) : Bool :=
  c.isDigit || c == '_'

/-- One digit or two that count up to fifty-nine. -/
def isSixtieth : List Char → Bool
  | [a] => a.isDigit
  | [a, b] => '0' ≤ a && a ≤ '5' && b.isDigit
  | _ => false

/-- A digit, and digits and underscores after it. -/
def isSpacedNumber : List Char → Bool
  | first :: rest => first.isDigit && rest.all isSpacedDigit
  | [] => false

/-- A non-empty text of some characters. -/
def isSome (test : Char → Bool) (cs : List Char) : Bool :=
  !cs.isEmpty && cs.all test

/-- The shape of an integer: in base two, eight, ten, sixteen or sixty. -/
def isInteger (cs : List Char) : Bool :=
  match dropSign cs with
  | ['0'] => true
  | '0' :: 'b' :: rest => isSome (fun c => c == '0' || c == '1' || c == '_') rest
  | '0' :: 'x' :: rest =>
    isSome (fun c => isSpacedDigit c || ('a' ≤ c && c ≤ 'f') || ('A' ≤ c && c ≤ 'F')) rest
  | '0' :: rest => isSome (fun c => ('0' ≤ c && c ≤ '7') || c == '_') rest
  | body =>
    match Text.splitAt ':' body with
    | first :: sixtieths => isSpacedNumber first && sixtieths.all isSixtieth
    | [] => false

def isExponent : List Char → Bool
  | [] => true
  | e :: sign :: digits =>
    (e == 'e' || e == 'E') && (sign == '-' || sign == '+') && isSome Char.isDigit digits
  | _ => false

def isFraction (cs : List Char) : Bool :=
  isExponent (cs.dropWhile isSpacedDigit)

/-- The shape of a floating-point number: with a point, and no sign if it starts with
the point. -/
def isFloat (cs : List Char) : Bool :=
  let body := dropSign cs
  let whole := body.takeWhile (· != '.')
  let fraction := (body.dropWhile (· != '.')).drop 1
  if [".inf", ".Inf", ".INF"].contains (String.ofList body) then true
  else if [".nan", ".NaN", ".NAN"].contains (String.ofList cs) then true
  else if !body.contains '.' then false
  else
    match cs with
    | '.' :: first :: rest => first.isDigit && isFraction rest
    | _ =>
      match Text.splitAt ':' whole with
      | [number] => isSpacedNumber number && isFraction fraction
      | first :: sixtieths =>
        isSpacedNumber first && sixtieths.all isSixtieth && fraction.all isSpacedDigit
      | [] => false

/-! ## Points in time -/

/-- The fields of a date, with a time of day if there is one, as they are written. -/
structure WrittenTime where
  year : Nat
  month : Nat
  day : Nat
  time : Option (Nat × Nat × Nat) := none
  /-- The digits of the fraction of a second. -/
  fraction : List Char := []
  /-- The offset from universal time in minutes. -/
  offset : Option Int := none

/-- The number of some digits at the front, between the least and the most. -/
def takeNumber (least most : Nat) (cs : List Char) : Option (Nat × List Char) :=
  let digits := (cs.take most).takeWhile Char.isDigit
  if digits.length < least then none
  else
    some (digits.foldl (fun n c => n * 10 + (c.toNat - 0x30)) 0, cs.drop digits.length)

def takeChar (c : Char) : List Char → Option (List Char)
  | first :: rest => if first == c then some rest else none
  | [] => none

/-- The offset at the end of a time: none, universal time, or hours and minutes. -/
def readOffset (cs : List Char) : Option (Option Int) :=
  if cs.isEmpty then some none
  else
    match cs.dropWhile fun c => c == ' ' || c == '\t' with
    | ['Z'] => some (some 0)
    | sign :: rest => do
      if sign != '-' && sign != '+' then none
      let (hours, rest) ← takeNumber 1 2 rest
      let minutes ← if rest.isEmpty then some 0 else do
        let (minutes, rest) ← takeNumber 2 2 (← takeChar ':' rest)
        if rest.isEmpty then some minutes else none
      let size : Int := (hours * 60 + minutes : Nat)
      return some (if sign == '-' then -size else size)
    | [] => none

/-- A date, or a date and a time of day. -/
def readTime (cs : List Char) : Option WrittenTime := do
  let (year, rest) ← takeNumber 4 4 cs
  let (month, rest) ← takeNumber 1 2 (← takeChar '-' rest)
  let (day, rest) ← takeNumber 1 2 (← takeChar '-' rest)
  match rest with
  | [] => return { year, month, day }
  | separator :: after =>
    let after ←
      if separator == 'T' || separator == 't' then some after
      else if separator == ' ' || separator == '\t' then
        some (after.dropWhile fun c => c == ' ' || c == '\t')
      else none
    let (hour, rest) ← takeNumber 1 2 after
    let (minute, rest) ← takeNumber 2 2 (← takeChar ':' rest)
    let (second, rest) ← takeNumber 2 2 (← takeChar ':' rest)
    let (fraction, rest) := match rest with
      | '.' :: rest => (rest.takeWhile Char.isDigit, rest.dropWhile Char.isDigit)
      | _ => ([], rest)
    let offset ← readOffset rest
    return { year, month, day, time := some (hour, minute, second), fraction, offset }

/-- The shape of a point in time.  A date alone has two digits for month and day. -/
def isTimestamp (cs : List Char) : Bool :=
  match readTime cs with
  | none => false
  | some t => t.time.isSome || cs.length == 10

/-- Without a single line feed at the end. -/
def dropLastLineFeed (cs : List Char) : List Char :=
  if cs.getLast? == some '\n' then cs.dropLast else cs

/-- The tag that the text of a plain scalar gives it. -/
def implicitTag (text : List Char) : Tag :=
  let shape := dropLastLineFeed text
  let word := String.ofList shape
  if text == ['\n'] then .text
  else if boolWords.contains word then .bool
  else if isFloat shape then .float
  else if isInteger shape then .int
  else if word == "<<" then .merge
  else if nullWords.contains word then .null
  else if isTimestamp shape then .timestamp
  else if word == "=" then .value
  else .text

end Yaml
end Consignment
