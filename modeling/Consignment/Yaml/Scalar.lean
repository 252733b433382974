import Consignment.Fault
import Consignment.Value.Basic
import Consignment.Yaml.Tag

namespace Consignment
namespace Yaml

/-!
# Values of scalars

The tag of a scalar decides how its text is read.  A tag that is written can stand
before any text, so every reading can fail; one that comes from the shape of the text
rarely does.
-/

/-- Blanks and underscores aside, an integer: in base two, eight, ten, sixteen, or in
parts that count by sixty. -/
def readInt (text : List Char) : Except Fault Int :=
  let cs := text.filter (· != '_')
  let read (base : Nat) (digits : List Char) : Except Fault Int :=
    (Number.readInteger base digits).mapError fun fault =>
      .integer fault (Text.quoted (String.ofList digits))
  let signed (n : Int) : Int := if cs.head? == some '-' then -n else n
  match cs with
  | [] => .error .emptyNumber
  | first :: rest =>
    let body := if first == '-' || first == '+' then rest else cs
    match body with
    | [] => .error .emptyNumber
    | ['0'] => .ok 0
    | '0' :: 'b' :: digits => (read 2 digits).map signed
    | '0' :: 'x' :: digits => (read 16 digits).map signed
    | '0' :: _ => (read 8 body).map signed
    | _ =>
      if body.contains ':' then do
        let parts ← (Text.splitAt ':' body).mapM (read 10)
        return signed (parts.foldl (fun n part => n * 60 + part) 0)
      else (read 10 body).map signed

/-- The digits of every script as digits of ASCII. -/
def plainDigits (cs : List Char) : List Char :=
  cs.map fun c =>
    match Text.decimalDigit? c with
    | some d => Char.ofNat (0x30 + d)
    | none => c

/-- How many parts count by sixty at most: the power of sixty for one more is beyond the
floating-point numbers. -/
def maxParts : Nat := 174

/-- The sum of parts that count by sixty, the last part first. -/
def sexagesimal : Float → Nat → List Float → Float
  | total, _, [] => total
  | total, base, part :: parts =>
    sexagesimal (total + part * Float.ofScientific base false 0) (base * 60) parts

/-- Underscores aside, a floating-point number, one of the words for those that are not
finite, or parts that count by sixty. -/
def readFloat (text : List Char) : Except Fault Float :=
  let cs := (text.filter (· != '_')).map Char.toLower
  let read (digits : List Char) : Except Fault Float :=
    match Number.readFloat? (plainDigits digits) with
    | some x => .ok x
    | none => .error (.decimal (String.ofList digits))
  let signed (x : Float) : Float := if cs.head? == some '-' then -x else x
  match cs with
  | [] => .error .emptyNumber
  | first :: rest =>
    let body := if first == '-' || first == '+' then rest else cs
    if body == ".inf".toList then .ok (signed (1.0 / 0.0))
    else if body == ".nan".toList then .ok (0.0 / 0.0)
    else if body.contains ':' then do
      let parts ← (Text.splitAt ':' body).mapM read
      if maxParts < parts.length then throw .integerAsFloat
      return signed (sexagesimal 0.0 1 parts.reverse)
    else (read body).map signed

def readBool (text : List Char) : Except Fault Bool :=
  let word := String.ofList (text.map Char.toLower)
  if ["yes", "true", "on"].contains word then .ok true
  else if ["no", "false", "off"].contains word then .ok false
  else .error (.truthValue word)

def readTimestamp (text : List Char) : Except Fault Value :=
  match readTime (dropLastLineFeed text) with
  | none => .error .timestamp
  | some t =>
    match t.time with
    | none => ((Date.ofFields t.year t.month t.day).mapError Fault.calendar).map .date
    | some (hour, minute, second) =>
      let digits := (t.fraction ++ List.replicate 6 '0').take 6
      let microsecond := digits.foldl (fun n c => n * 10 + (c.toNat - 0x30)) 0
      ((Moment.ofFields t.year t.month t.day hour minute second microsecond
        t.offset).mapError Fault.calendar).map .moment

/-- The six bits that a character stands for in bytes written as text. -/
def sixBits? (c : Char) : Option Nat :=
  if 'A' ≤ c ∧ c ≤ 'Z' then some (c.toNat - 0x41)
  else if 'a' ≤ c ∧ c ≤ 'z' then some (c.toNat - 0x47)
  else if '0' ≤ c ∧ c ≤ '9' then some (c.toNat + 4)
  else if c == '+' then some 62
  else if c == '/' then some 63
  else none

/-- The bytes of groups of four characters.  `place` counts the characters of the open
group, `held` are its bits that belong to no whole byte, and `pads` counts the
fillers since the last character that is not one; a character of neither kind is left
out.  A group that enough fillers complete ends the bytes, and an open group must not
be left. -/
def readGroups : Nat → Nat → Nat → List Char → Option (List UInt8)
  | place, _, _, [] => if place = 0 then some [] else none
  | place, held, pads, c :: rest =>
    if c == '=' then
      if 2 ≤ place then
        if 4 ≤ place + pads + 1 then some [] else readGroups place held (pads + 1) rest
      else readGroups place held pads rest
    else
      match sixBits? c with
      | none => readGroups place held pads rest
      | some bits =>
        let byte (n : Nat) (rest : Option (List UInt8)) : Option (List UInt8) :=
          rest.map (n.toUInt8 :: ·)
        match place with
        | 0 => readGroups 1 bits 0 rest
        | 1 => byte (held * 4 + bits / 16) (readGroups 2 (bits % 16) 0 rest)
        | 2 => byte (held * 16 + bits / 4) (readGroups 3 (bits % 4) 0 rest)
        | _ => byte (held * 64 + bits) (readGroups 0 0 0 rest)

def readBinary (text : List Char) : Except Fault (List UInt8) :=
  if text.all fun c => c.toNat < 0x80 then
    match readGroups 0 0 0 text with
    | some bytes => .ok bytes
    | none => .error .malformedDocument
  else .error .malformedDocument

/-- The value of a scalar.  Tags of collections and those of no meaning have none. -/
def scalarValue (tag : Tag) (text : List Char) : Except Fault Value :=
  match tag with
  | .null => .ok .null
  | .bool => (readBool text).map .bool
  | .int => (readInt text).map .int
  | .float => (readFloat text).map .float
  | .binary => (readBinary text).map .bytes
  | .timestamp => readTimestamp text
  | .text => .ok (.text (String.ofList text))
  | .sequence | .mapping | .set | .orderedPairs | .pairs | .merge | .value | .other _ =>
    .error .malformedDocument

end Yaml
end Consignment
