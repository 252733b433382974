import Consignment.Text.Digits
import Consignment.Yaml.Style

namespace Consignment
namespace Yaml

/-!
# Writing lines

A page is a text in the making, with what the next piece has to know of it: the
column, whether a blank stands before, and whether the line holds nothing but blanks
and marks of items and keys.

A scalar that reaches beyond the width of a line goes on in the next line where its
style allows to fold it: at a single space, or, in double quotes, also after an
escape.
-/

structure Page where
  /-- What is written, the last character first. -/
  written : List Char := []
  column : Nat := 0
  /-- A blank or the start of the line stands before. -/
  afterBlank : Bool := true
  /-- Only blanks and marks stand before on this line. -/
  inIndent : Bool := true
  /-- The document ends with a scalar that more text would continue. -/
  openEnded : Bool := false

def lineWidth : Nat := 80

namespace Page

def text (p : Page) : String :=
  String.ofList p.written.reverse

/-- Write characters that end no line. -/
def write (p : Page) (cs : List Char) : Page :=
  { p with written := cs.reverse ++ p.written, column := p.column + cs.length }

def endLine (p : Page) (mark : Char) : Page :=
  { p with written := mark :: p.written, column := 0, afterBlank := true, inIndent := true }

/-- Start a line of an indentation, unless the page stands there already. -/
def indent (p : Page) (indent : Nat) : Page :=
  let p :=
    if !p.inIndent || indent < p.column || (p.column = indent && !p.afterBlank) then p.endLine '\n'
    else p
  if p.column < indent then
    { p.write (List.replicate (indent - p.column) ' ') with afterBlank := true }
  else p

/-- Write a mark, with a blank before it if it needs one.  The mark of an item or a key
leaves the page in the indentation. -/
def mark (p : Page) (mark : String) (needsBlank : Bool) (opens : Bool) : Page :=
  let blank := if p.afterBlank || !needsBlank then [] else [' ']
  { p.write (blank ++ mark.toList) with
    afterBlank := false
    inIndent := p.inIndent && opens
    openEnded := false }

/-- Go on with a scalar in the next line. -/
def fold (p : Page) (indent : Nat) : Page :=
  { p.indent indent with afterBlank := false, inIndent := false }

/-! ## Scalars -/

/-- The pieces of a text: runs of spaces, of line marks, and of other characters. -/
def runs (cs : List Char) : List (List Char) :=
  let kind (c : Char) : Nat := if c == ' ' then 0 else if isLineMark c then 1 else 2
  cs.splitBy fun a b => kind a == kind b

/-- Write a text without marks. -/
def plainRuns (foldAt : Option Nat) : List (List Char) → Page → Page
  | [], p => p
  | run :: rest, p =>
    match foldAt with
    | some column =>
      if run == [' '] && lineWidth < p.column then plainRuns foldAt rest (p.fold column)
      else plainRuns foldAt rest (p.write run)
    | none => plainRuns foldAt rest (p.write run)

/-- Write a scalar without marks.  `foldAt` is the indentation of its further lines, if
it can be folded. -/
def plain (p : Page) (foldAt : Option Nat) (cs : List Char) : Page :=
  let p := if p.afterBlank || cs.isEmpty then p else p.write [' ']
  if cs.isEmpty then p
  else plainRuns foldAt (runs cs) { p with afterBlank := false, inIndent := false }

/-- Write line marks so that folding gives them back: a single line feed takes two. -/
def lineMarks (column : Nat) (marks : List Char) (p : Page) : Page :=
  let p := if marks.head? == some '\n' then p.endLine '\n' else p
  (marks.foldl endLine p).indent column

/-- Write a text in single quotes, in which a quote is written twice. -/
def singleRuns (column : Nat) (canFold isFirst : Bool) : List (List Char) → Page → Page
  | [], p => p
  | run :: rest, p =>
    let next :=
      if run.any isLineMark then lineMarks column run p
      else if run == [' '] && canFold && !isFirst && !rest.isEmpty && lineWidth < p.column then
        p.indent column
      else p.write (run.flatMap fun c => if c == '\x27' then ['\x27', '\x27'] else [c])
    singleRuns column canFold false rest next

def single (p : Page) (column : Nat) (canFold : Bool) (cs : List Char) : Page :=
  (singleRuns column canFold true (runs cs) (p.mark "\x27" true false)).mark "\x27" false false

/-- The letter after a backslash that stands for a character. -/
def escapeLetter? (c : Char) : Option Char :=
  [('\x00', '0'), ('\x07', 'a'), ('\x08', 'b'), ('\t', 't'), ('\n', 'n'), ('\x0b', 'v'),
    ('\x0c', 'f'), ('\r', 'r'), ('\x1b', 'e'), ('\x22', '\x22'), ('\\', '\\'), ('\x85', 'N'),
    ('\u2028', 'L'), ('\u2029', 'P')].lookup c

def isLiteralInDouble (c : Char) : Bool :=
  let n := c.toNat
  (escapeLetter? c).isNone && n != 0xfeff
    && ((0x20 ≤ n && n ≤ 0x7e) || (0xa0 ≤ n && n ≤ 0xfffd))

/-- How a character that does not stand for itself is written in double quotes. -/
def escape (c : Char) : List Char :=
  match escapeLetter? c with
  | some letter => ['\\', letter]
  | none =>
    let n := c.toNat
    if n ≤ 0xff then '\\' :: 'x' :: Text.upperHex 2 n
    else if n ≤ 0xffff then '\\' :: 'u' :: Text.upperHex 4 n
    else '\\' :: 'U' :: Text.upperHex 8 n

/-- Go on in the next line inside double quotes, before the given character.  A space
at the front of a line needs a backslash. -/
def foldDouble (column : Nat) (next : Char) (p : Page) : Page :=
  let p := (p.write ['\\']).fold column
  if next == ' ' then p.write ['\\'] else p

/-- Write a text in double quotes. -/
def doubleChars (column : Nat) (canFold : Bool) : Bool → Bool → List Char → Page → Page
  | _, _, [], p => p
  | isFirst, afterEscape, c :: rest, p =>
    let mayFold := canFold && !isFirst && !rest.isEmpty
    if isLiteralInDouble c then
      let p :=
        if mayFold && (c == ' ' || afterEscape) && lineWidth < p.column then foldDouble column c p
        else p
      doubleChars column canFold false false rest (p.write [c])
    else
      let p := p.write (escape c)
      let p :=
        if mayFold && lineWidth + 1 < p.column then foldDouble column (rest.headD ' ') p else p
      doubleChars column canFold false true rest p

def double (p : Page) (column : Nat) (canFold : Bool) (cs : List Char) : Page :=
  (doubleChars column canFold true false cs (p.mark "\x22" true false)).mark "\x22" false false

/-- Write a text line by line, each with an indentation and ended by a line feed. -/
def literal (p : Page) (column : Nat) (lines : List (List Char)) : Page :=
  lines.foldl (fun p line => (p.endLine '\n').indent column |>.write line) (p.mark "|" true false)
    |>.endLine '\n'

end Page
end Yaml
end Consignment
