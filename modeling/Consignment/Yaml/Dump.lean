import Consignment.Number.Written
import Consignment.Value.Basic
import Consignment.Yaml.Page

namespace Consignment
namespace Yaml

/-!
# Writing documents

Lists and mappings are written as blocks, and empty ones in brackets.  A list that is
the value of a key is not indented more than the key; a list inside a list is.  The
order of entries is kept.

A key that is empty, spans lines or is too long has marks of its own, and so has one
that is no scalar.
-/

/-- Numbers have a point in both layouts, and the words for those that are not finite
start with one. -/
def floatText (x : Float) : List Char :=
  let cs := (Number.written Number.messageLayout ".inf" ".nan" x).toList
  if cs.contains 'e' && !cs.contains '.' then
    cs.takeWhile (· != 'e') ++ ['.', '0'] ++ cs.dropWhile (· != 'e')
  else cs

def letterOfSixBits (n : Nat) : Char :=
  "ABCDEFGHIJKLMNOPQRSTUVWXYZabcdefghijklmnopqrstuvwxyz0123456789+/".toList.getD n '='

/-- Bytes as text, four letters for every three bytes. -/
def bytesText : List UInt8 → List Char
  | a :: b :: c :: rest =>
    let n := (a.toNat * 256 + b.toNat) * 256 + c.toNat
    [n / 262144, n / 4096 % 64, n / 64 % 64, n % 64].map letterOfSixBits ++ bytesText rest
  | [a, b] =>
    let n := (a.toNat * 256 + b.toNat) * 4
    [n / 4096, n / 64 % 64, n % 64].map letterOfSixBits ++ ['=']
  | [a] =>
    let n := a.toNat * 16
    [n / 64, n % 64].map letterOfSixBits ++ ['=', '=']
  | [] => []

/-- The tag and the text of a value that is a scalar. -/
def scalarOf? : Value → Option (Tag × List Char)
  | .null => some (.null, "null".toList)
  | .bool b => some (.bool, (if b then "true" else "false").toList)
  | .int n => some (.int, (Text.decimal n).toList)
  | .float x => some (.float, floatText x)
  | .text s => some (.text, s.toList)
  | .bytes b => some (.binary, bytesText b)
  | .date d => some (.timestamp, d.iso.toList)
  | .moment t => some (.timestamp, (t.isoWith ' ').toList)
  | .enclosing _ => some (.null, "null".toList)
  | .list _ | .map _ | .set _ | .pair _ _ => none

/-- The most characters of a key without marks of its own, the name of its tag
included. -/
def maxKeyWidth : Nat := 128

/-- How long the name of a tag is where it is written. -/
def tagWidth (tag : Tag) : Nat :=
  match Tag.standard.find? (·.2 == tag) with
  | some entry => entry.1.length + 2
  | none => 0

/-- Whether a key needs no marks of its own. -/
def isSimpleKey (v : Value) : Bool :=
  match scalarOf? v with
  | some (tag, cs) => !cs.isEmpty && !isMultiline cs && cs.length + tagWidth tag < maxKeyWidth
  | none =>
    match v with
    | .list [] | .map [] => true
    | _ => false

def linesOf (width : Nat) : Nat → List Char → List (List Char)
  | 0, _ => []
  | fuel + 1, cs =>
    if cs.length ≤ width then [cs] else cs.take width :: linesOf width fuel (cs.drop width)

/-- How many letters of bytes stand on a line. -/
def bytesLineWidth : Nat := 76

/-- The columns by which a block is indented more than the one around it. -/
def indentStep : Nat := 2

/-- The indentation inside a node, given that around it; the root has none around. -/
def deeper (indent : Option Nat) : Nat :=
  match indent with
  | none => 0
  | some n => n + indentStep

namespace Page

/-- Write a scalar.  That of a key on one line cannot be folded. -/
def scalar (p : Page) (indent : Option Nat) (canFold : Bool) (tag : Tag) (cs : List Char) : Page :=
  let column := (indent.getD 0) + indentStep
  let marked := if tag = .binary then p.mark "!!binary" true false else p
  match styleOf tag cs with
  | .plain =>
    { p.plain (if canFold then some column else none) cs with
      openEnded := p.openEnded || indent.isNone }
  | .single => marked.single column canFold cs
  | .double => marked.double column canFold cs
  | .literal => marked.literal column (linesOf bytesLineWidth cs.length cs)

mutual

/-- Write a node.  `inMapping` says that it is the value of a key. -/
def node (p : Page) (indent : Option Nat) (inMapping canFold : Bool) : Value → Page
  | .list [] => (p.mark "[" true false).mark "]" false false
  | .list items =>
    p.items (if inMapping && !p.inIndent then indent.getD 0 else deeper indent) items
  | .map [] => (p.mark "\x7b" true false).mark "\x7d" false false
  | .map entries => p.entries (deeper indent) entries
  | .set [] => ((p.mark "!!set" true false).mark "\x7b" true false).mark "\x7d" false false
  | .set members => (p.mark "!!set" true false).members (deeper indent) members
  | .pair first second =>
    let column := if inMapping && !p.inIndent then indent.getD 0 else deeper indent
    let p := ((p.indent column).mark "-" true true).node (some column) false true first
    ((p.indent column).mark "-" true true).node (some column) false true second
  | v =>
    match scalarOf? v with
    | some (tag, cs) => p.scalar indent canFold tag cs
    | none => p

def items (p : Page) (column : Nat) : List Value → Page
  | [] => p
  | item :: rest =>
    (((p.indent column).mark "-" true true).node (some column) false true item).items column rest

def entries (p : Page) (column : Nat) : List (Value × Value) → Page
  | [] => p
  | (key, value) :: rest =>
    let p := p.indent column
    let p :=
      if isSimpleKey key then (p.node (some column) true false key).mark ":" false false
      else
        (((p.mark "?" true true).node (some column) true true key).indent column).mark ":" true true
    (p.node (some column) true true value).entries column rest

/-- Write the members of a set, as keys without values. -/
def members (p : Page) (column : Nat) : List Value → Page
  | [] => p
  | member :: rest =>
    let p := p.indent column
    let p :=
      if isSimpleKey member then (p.node (some column) true false member).mark ":" false false
      else
        (((p.mark "?" true true).node (some column) true true member).indent column).mark ":"
          true true
    (p.scalar (some column) true .null "null".toList).members column rest

end

end Page

/-- The document of a value.  A plain scalar that is all of it has an end mark, because
more text would continue it. -/
def dump (v : Value) : String :=
  let p := (Page.node {} none false true v).indent 0
  let p := if p.openEnded then (p.mark "..." true false).indent 0 else p
  p.text

end Yaml
end Consignment
