import Consignment.Number.Read
import Consignment.Value.Basic

namespace Consignment
namespace Json

/-!
# Reading JSON

A number with a fraction or an exponent is a floating-point number and any other an
integer.  A repeated name keeps its first place and takes its last value.  The words
for the numbers that are not finite are read too.

Every function reads from the front and returns what it leaves.  Fuel counts calls; a
call takes a character at least or is the last before one that does, so twice the
length of the text is enough, also for the calls that read a text inside a value.
-/

inductive Fault where
  /-- The text is not well-formed. -/
  | malformed
  /-- An integer has the given count of digits, which is too many. -/
  | tooLong (digits : Nat)
  deriving DecidableEq, Repr

abbrev Step (α : Type) := List Char → Except Fault (α × List Char)

def isSpace (c : Char) : Bool :=
  c == ' ' || c == '\t' || c == '\n' || c == '\r'

def skipSpaces (cs : List Char) : List Char :=
  cs.dropWhile isSpace

/-! ## Texts -/

def readUnit : Step Nat := fun cs =>
  let digits := (cs.take 4).filterMap Text.hexDigit?
  if digits.length = 4 then .ok (digits.foldl (fun n d => n * 16 + d) 0, cs.drop 4)
  else .error .malformed

/-- The character after the letter of a numeric escape: that of one unit or of two that
belong together.  A unit that lacks its partner becomes the replacement character. -/
def readNumericEscape : Step Char := fun cs => do
  let (high, rest) ← readUnit cs
  if 0xd800 ≤ high && high < 0xdc00 then
    match rest with
    | '\\' :: 'u' :: after =>
      match readUnit after with
      | .ok (low, after) =>
        if 0xdc00 ≤ low && low < 0xe000 then
          return (Char.ofNat (0x10000 + (high - 0xd800) * 1024 + (low - 0xdc00)), after)
        else return ('\ufffd', rest)
      | .error _ => return ('\ufffd', rest)
    | _ => return ('\ufffd', rest)
  else if 0xdc00 ≤ high && high < 0xe000 then return ('\ufffd', rest)
  else return (Char.ofNat high, rest)

def letterEscape? (c : Char) : Option Char :=
  [('\x22', '\x22'), ('\\', '\\'), ('/', '/'), ('b', '\x08'), ('f', '\x0c'), ('n', '\n'),
    ('r', '\r'), ('t', '\t')].lookup c

/-- The rest of a text after its opening quote; `done` is what was read of it, the last
character first. -/
def readTextFrom : Nat → List Char → Step String
  | 0, _, _ => .error .malformed
  | fuel + 1, done, cs =>
    match cs with
    | '\x22' :: rest => .ok (String.ofList done.reverse, rest)
    | '\\' :: 'u' :: rest => do
      let (c, rest) ← readNumericEscape rest
      readTextFrom fuel (c :: done) rest
    | '\\' :: letter :: rest =>
      match letterEscape? letter with
      | some c => readTextFrom fuel (c :: done) rest
      | none => .error .malformed
    | c :: rest =>
      if c.toNat < 0x20 || c == '\\' then .error .malformed
      else readTextFrom fuel (c :: done) rest
    | [] => .error .malformed

/-! ## Numbers -/

def takeDigits (cs : List Char) : Option (List Char × List Char) :=
  let digits := cs.takeWhile Char.isDigit
  if digits.isEmpty then none else some (digits, cs.drop digits.length)

/-- The whole part of a number: a zero alone, or digits that start with another one. -/
def takeWhole : List Char → Option (List Char × List Char)
  | '0' :: rest => some (['0'], rest)
  | cs => takeDigits cs

def takeFraction : List Char → List Char × List Char
  | '.' :: rest =>
    match takeDigits rest with
    | some (digits, after) => ('.' :: digits, after)
    | none => ([], '.' :: rest)
  | cs => ([], cs)

def takeExponent (cs : List Char) : List Char × List Char :=
  match cs with
  | e :: rest =>
    if e == 'e' || e == 'E' then
      let (sign, unsigned) := match rest with
        | '-' :: after => (['-'], after)
        | '+' :: after => (['+'], after)
        | _ => ([], rest)
      match takeDigits unsigned with
      | some (digits, after) => (e :: sign ++ digits, after)
      | none => ([], cs)
    else ([], cs)
  | [] => ([], [])

def readNumber : Step Value := fun cs =>
  let (sign, unsigned) := match cs with
    | '-' :: rest => (['-'], rest)
    | _ => ([], cs)
  match takeWhole unsigned with
  | none => .error .malformed
  | some (whole, rest) =>
    let (fraction, rest) := takeFraction rest
    let (exponent, rest) := takeExponent rest
    if fraction.isEmpty && exponent.isEmpty then
      match Number.readInteger 10 (sign ++ whole) with
      | .ok n => .ok (.int n, rest)
      | .error (.tooLong digits) => .error (.tooLong digits)
      | .error (.shape _) => .error .malformed
    else
      match Number.readFloat? (sign ++ whole ++ fraction ++ exponent) with
      | some x => .ok (.float x, rest)
      | none => .error .malformed

/-! ## Values -/

def words : List (List Char × Value) := [
  ("null".toList, .null), ("true".toList, .bool true), ("false".toList, .bool false),
  ("NaN".toList, .float (0.0 / 0.0)), ("Infinity".toList, .float (1.0 / 0.0)),
  ("-Infinity".toList, .float (-1.0 / 0.0))]

def readWord? (cs : List Char) : Option (Value × List Char) :=
  (words.find? fun word => word.1.isPrefixOf cs).map fun word => (word.2, cs.drop word.1.length)

mutual

/-- A value, with no space before it. -/
def readValue : Nat → Step Value
  | 0, _ => .error .malformed
  | fuel + 1, cs =>
    match cs with
    | '\x22' :: rest => do
      let (text, rest) ← readTextFrom fuel [] rest
      return (.text text, rest)
    | '[' :: rest =>
      match skipSpaces rest with
      | ']' :: rest => .ok (.list [], rest)
      | rest => do
        let (items, rest) ← readItems fuel rest
        return (.list items, rest)
    | '\x7b' :: rest =>
      match skipSpaces rest with
      | '\x7d' :: rest => .ok (.map [], rest)
      | rest => do
        let (entries, rest) ← readEntries fuel rest
        return (.map (Value.mapOf entries), rest)
    | _ =>
      match readWord? cs with
      | some found => .ok found
      | none => readNumber cs

/-- The items of a list up to its end, at least one. -/
def readItems : Nat → Step (List Value)
  | 0, _ => .error .malformed
  | fuel + 1, cs => do
    let (item, rest) ← readValue fuel cs
    match skipSpaces rest with
    | ',' :: rest =>
      let (items, rest) ← readItems fuel (skipSpaces rest)
      return (item :: items, rest)
    | ']' :: rest => return ([item], rest)
    | _ => throw .malformed

/-- The entries of a mapping up to its end, at least one. -/
def readEntries : Nat → Step (List (Value × Value))
  | 0, _ => .error .malformed
  | fuel + 1, cs =>
    match cs with
    | '\x22' :: rest => do
      let (key, rest) ← readTextFrom fuel [] rest
      match skipSpaces rest with
      | ':' :: rest =>
        let (value, rest) ← readValue fuel (skipSpaces rest)
        match skipSpaces rest with
        | ',' :: rest =>
          let (entries, rest) ← readEntries fuel (skipSpaces rest)
          return ((.text key, value) :: entries, rest)
        | '\x7d' :: rest => return ([(.text key, value)], rest)
        | _ => throw .malformed
      | _ => throw .malformed
    | _ => .error .malformed

end

/-- The value that a whole text is. -/
def read (cs : List Char) : Except Fault Value := do
  let (value, rest) ← readValue (2 * cs.length + 2) (skipSpaces cs)
  if (skipSpaces rest).isEmpty then return value else throw .malformed

end Json
end Consignment
