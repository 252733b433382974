import Consignment.Fault
import Consignment.Number.Fixed
import Consignment.Value.Shown

namespace Consignment

/-!
# Templates

A template is a text with places for values.  A place starts with a percent sign and
ends with a letter that says how its value is shown: as a reader would type it, exactly,
as an integer in some base, or as a number with a point.  Between the two stand flags,
a least width, and a precision.  Two percent signs are one.

The values fill the places in order, or, where a place has a name in parentheses, by
name.  There have to be as many values as places without names.
-/

namespace Template

/-- What is asked of a place before its letter. -/
structure Layout where
  leftAligned : Bool := false
  signed : Bool := false
  blankSign : Bool := false
  marked : Bool := false
  zeroFilled : Bool := false
  width : Nat := 0
  precision : Option Nat := none

/-- What fills the places. -/
structure Filling where
  /-- The values that are left. -/
  values : List Value
  /-- The entries, where the only value is a mapping. -/
  entries : Option (List (Value × Value)) := none

namespace Filling

/-- A mapping that is the only value, and not empty, can fill places by name; once it has,
it is no value of its own any more. -/
def ofValues : List Value → Filling
  | [.map (entry :: rest)] => { values := [.map (entry :: rest)], entries := some (entry :: rest) }
  | values => { values }

def take (f : Filling) : Except TemplateFault (Value × Filling) :=
  match f.values with
  | [] => .error .tooFew
  | v :: rest => .ok (v, { f with values := rest })

end Filling

/-- Bring a text to the width of its place. -/
def align (l : Layout) (cs : List Char) : List Char :=
  let blanks := List.replicate (l.width - cs.length) ' '
  if l.leftAligned then cs ++ blanks else blanks ++ cs

/-- Bring a sign, a mark of the base and digits to the width of their place.  Zeros go
between the mark and the digits. -/
def alignNumber (l : Layout) (negative : Bool) (mark digits : List Char) : List Char :=
  let sign := if negative then ['-'] else if l.signed then ['+'] else if l.blankSign then [' '] else []
  let front := sign ++ mark
  if l.zeroFilled && !l.leftAligned then
    front ++ List.replicate (l.width - front.length - digits.length) '0' ++ digits
  else align l (front ++ digits)

/-- A text, cut to the precision. -/
def fillText (l : Layout) (text : String) : List Char :=
  align l (match l.precision with
    | some n => text.toList.take n
    | none => text.toList)

/-- The digits of a number in a base, at least as many as the precision asks for. -/
def digitsOf (l : Layout) (base n : Nat) : List Char :=
  let digits := Nat.toDigits base n
  List.replicate (l.precision.getD 0 - digits.length) '0' ++ digits

def integerOf (letter : Char) (v : Value) : Except Fault Int :=
  match v with
  | .float x =>
    match Number.truncate? x with
    | some n => .ok n
    | none => .error (if x.isNaN then .nanAsInteger else .infinityAsInteger)
  | v =>
    match v.integer? with
    | some n => .ok n
    | none => .error (.template (.notNumber letter v.qualifiedKindName))

def fillDecimal (l : Layout) (letter : Char) (v : Value) : Except Fault (List Char) := do
  let n ← integerOf letter v
  return alignNumber l (n < 0) [] (digitsOf l 10 n.natAbs)

def fillBased (l : Layout) (letter : Char) (v : Value) : Except Fault (List Char) :=
  match v.integer? with
  | none => .error (.template (.notInteger letter v.qualifiedKindName))
  | some n =>
    let digits := digitsOf l (if letter == 'o' then 8 else 16) n.natAbs
    let digits := if letter == 'X' then digits.map Char.toUpper else digits
    let mark := if l.marked then ['0', letter] else []
    .ok (alignNumber l (n < 0) mark digits)

def floatOf (v : Value) : Except Fault Float :=
  match v with
  | .float x => .ok x
  | v =>
    match v.integer? with
    | some n => .ok (Float.ofInt n)
    | none => .error (.template (.notReal v.qualifiedKindName))

def fillFloat (l : Layout) (letter : Char) (v : Value) : Except Fault (List Char) := do
  let x ← floatOf v
  let precision := l.precision.getD 6
  let magnitude (d : Option Number.Dyadic) : List Char :=
    match letter.toLower, d with
    | 'f', none => Number.withPoint l.marked 0 precision
    | 'f', some d => Number.fixed l.marked precision d.m d.q
    | 'e', d => Number.scientific l.marked precision d
    | _, d => Number.general l.marked (max precision 1) d
  let cased (cs : List Char) : List Char := if letter.isUpper then cs.map Char.toUpper else cs
  return match Number.parts x with
    | .nan => alignNumber { l with zeroFilled := false } false [] (cased "nan".toList)
    | .infinite negative => alignNumber { l with zeroFilled := false } negative [] (cased "inf".toList)
    | .zero negative => alignNumber l negative [] (cased (magnitude none))
    | .finite negative d => alignNumber l negative [] (cased (magnitude (some d)))

/-- A single character, by itself or by its number. -/
def fillCharacter (l : Layout) (v : Value) : Except Fault (List Char) :=
  match v with
  | .text s =>
    match s.toList with
    | [c] => .ok (align l [c])
    | _ => .error (.template .notCharacter)
  | v =>
    match v.integer? with
    | some n =>
      if n < 0 ∨ 0x110000 ≤ n then .error (.template .characterRange)
      else .ok (align l [Char.ofNat n.toNat])
    | none => .error (.template .notCharacter)

/-- A text with escapes for all that is not ASCII. -/
def asciiOnly (text : String) : String :=
  String.ofList (text.toList.flatMap fun c =>
    if c.toNat < 0x80 then [c] else Text.numericEscape c.toNat)

/-- The text of a value in a place.  The position is that of the letter. -/
def fillPlace (l : Layout) (letter : Char) (position : Nat) (v : Value) :
    Except Fault (List Char) :=
  match letter with
  | 's' => .ok (fillText l v.plain)
  | 'r' => .ok (fillText l v.shown)
  | 'a' => .ok (fillText l (asciiOnly v.shown))
  | 'd' | 'i' | 'u' => fillDecimal l letter v
  | 'x' | 'X' | 'o' => fillBased l letter v
  | 'e' | 'E' | 'f' | 'F' | 'g' | 'G' => fillFloat l letter v
  | 'c' => fillCharacter l v
  | _ => .error (.template (.letter letter position))

def takeFlags (l : Layout) : List Char → Layout × List Char
  | '-' :: rest => takeFlags { l with leftAligned := true } rest
  | '+' :: rest => takeFlags { l with signed := true } rest
  | ' ' :: rest => takeFlags { l with blankSign := true } rest
  | '#' :: rest => takeFlags { l with marked := true } rest
  | '0' :: rest => takeFlags { l with zeroFilled := true } rest
  | rest => (l, rest)

/-- A number at the front, zero if there is none. -/
def takeNumber (cs : List Char) : Nat × List Char :=
  let digits := cs.takeWhile Char.isDigit
  (digits.foldl (fun n c => n * 10 + (c.toNat - 0x30)) 0, cs.drop digits.length)

/-- What stands between the percent sign and the letter of a place. -/
def takeLayout (cs : List Char) : Layout × List Char :=
  let (l, rest) := takeFlags {} cs
  let (width, rest) := takeNumber rest
  let (precision, rest) := match rest with
    | '.' :: rest =>
      let (precision, rest) := takeNumber rest
      (some precision, rest)
    | _ => (none, rest)
  let rest := match rest with
    | 'h' :: rest | 'l' :: rest | 'L' :: rest => rest
    | _ => rest
  ({ l with width, precision }, rest)

/-- The name in parentheses at the front, if there is one. -/
def takeName : List Char → Option (Except TemplateFault (String × List Char))
  | '(' :: rest =>
    let name := rest.takeWhile (· != ')')
    match rest.drop name.length with
    | ')' :: after => some (.ok (String.ofList name, after))
    | _ => some (.error .incomplete)
  | _ => none

/-- Fill the places of a template of so many characters.  A place takes a character at
least, so the length of the template is enough fuel. -/
def fillFrom (size : Nat) : Nat → Filling → List Char → Except Fault (List Char × Filling)
  | 0, f, cs => .ok (cs, f)
  | fuel + 1, f, cs =>
    match cs with
    | [] => .ok ([], f)
    | '%' :: '%' :: rest => do
      let (more, f) ← fillFrom size fuel f rest
      return ('%' :: more, f)
    | '%' :: rest => do
      let (named, rest) ← match takeName rest with
        | none => pure (none, rest)
        | some (.error fault) => throw (.template fault)
        | some (.ok (name, rest)) =>
          match f.entries with
          | none => throw (.template .notMapping)
          | some entries =>
            match Value.field? name entries with
            | some v => pure (some v, rest)
            | none => throw (.missingField name)
      let (l, rest) := takeLayout rest
      match rest with
      | [] => throw (.template .incomplete)
      | letter :: rest =>
        let (v, f) ← match named with
          | some v => pure (v, { f with values := [] })
          | none => (f.take).mapError .template
        let text ← fillPlace l letter (size - rest.length - 1) v
        let (more, f) ← fillFrom size fuel f rest
        return (text ++ more, f)
    | c :: rest => do
      let (more, f) ← fillFrom size fuel f rest
      return (c :: more, f)

def fill (template : String) (values : List Value) : Except Fault String := do
  let cs := template.toList
  let (text, left) ← fillFrom cs.length cs.length (.ofValues values) cs
  if left.entries.isNone && !left.values.isEmpty then throw (.template .tooMany)
  return String.ofList text

end Template
end Consignment
