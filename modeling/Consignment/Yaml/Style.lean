import Consignment.Yaml.Cursor
import Consignment.Yaml.Tag

namespace Consignment
namespace Yaml

/-!
# How a scalar is written

A scalar is written without marks if nothing in its text could be taken for structure
and if its tag is the one that the text gives it.  Otherwise it stands in single
quotes, unless it holds a character that has to be escaped, or a blank beside a line
end that folding would lose; then it stands in double quotes.
-/

inductive Style where
  | plain
  | single
  | double
  /-- Line by line, after a mark. -/
  | literal
  deriving DecidableEq, Repr

def isLineMark (c : Char) : Bool :=
  c == '\n' || c == '\x85' || c == '\u2028' || c == '\u2029'

def isSpecial (c : Char) : Bool :=
  let n := c.toNat
  !(c == '\n' || (0x20 ≤ n && n ≤ 0x7e) || n == 0x85 || (0xa0 ≤ n && n ≤ 0xfffd && n != 0xfeff)
    || (0x10000 ≤ n && n < 0x10ffff))

/-- Whether some neighbours satisfy a test. -/
def anyNeighbours (test : Char → Char → Bool) : List Char → Bool
  | a :: b :: rest => test a b || anyNeighbours test (b :: rest)
  | _ => false

/-- Whether the character at the front and the one after it begin a structure. -/
def startsStructure : List Char → Bool
  | '-' :: '-' :: '-' :: _ | '.' :: '.' :: '.' :: _ => true
  | c :: rest =>
    "#,[]\x7b\x7d&*!|>\x27\x22%@\x60".toList.contains c
      || ((c == '?' || c == ':' || c == '-') && isSpaceOrEnd (rest.headD '\x00'))
  | [] => false

/-- Whether a text holds something that could be taken for structure: at its front, a
colon before a blank or the end, or a number sign after a blank. -/
def holdsStructure (cs : List Char) : Bool :=
  startsStructure cs
    || (cs.length > 1 && cs.getLast? == some ':')
    || anyNeighbours (fun a b => a == ':' && isSpaceOrEnd b) (cs.drop 1)
    || anyNeighbours (fun a b => isSpaceOrEnd a && b == '#') cs

def isMultiline (cs : List Char) : Bool :=
  cs.any isLineMark

/-- Whether a text reads back the same without marks, as far as structure goes. -/
def allowsPlain (cs : List Char) : Bool :=
  let atEdge (c : Option Char) : Bool := c == some ' '
  !(atEdge cs.head? || atEdge cs.getLast? || isMultiline cs || cs.any isSpecial
    || holdsStructure cs)

/-- Whether a text reads back the same in single quotes. -/
def allowsSingle (cs : List Char) : Bool :=
  !(cs.any isSpecial
    || anyNeighbours (fun a b => (isLineMark a && b == ' ') || (a == ' ' && isLineMark b)) cs)

def styleOf (tag : Tag) (cs : List Char) : Style :=
  if tag = .binary && !cs.isEmpty then .literal
  else if implicitTag cs = tag && allowsPlain cs then .plain
  else if allowsSingle cs then .single
  else .double

end Yaml
end Consignment
