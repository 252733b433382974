namespace Consignment
namespace Yaml

/-!
# Positions in a document

A cursor is what is left of a document's text and where that rest begins.  The column
matters because indentation is structure, and index and line because a key without a
mark has to stay on one line and within a bounded length.

Looking past the end shows the null character.  A document cannot hold one itself, so
that character always means the end.
-/

def isBreak (c : Char) : Bool :=
  c == '\n' || c == '\r' || c == '\x85' || c == '\u2028' || c == '\u2029'

/-- A character that ends a line, or the end of the text. -/
def isBreakOrEnd (c : Char) : Bool :=
  c == '\x00' || isBreak c

/-- A space, a tab, a character that ends a line, or the end of the text. -/
def isSpaceOrEnd (c : Char) : Bool :=
  c == ' ' || c == '\t' || isBreakOrEnd c

structure Cursor where
  rest : List Char
  index : Nat := 0
  line : Nat := 0
  column : Nat := 0
  /-- How many characters are left: a bound for every loop over them. -/
  left : Nat := rest.length
  left_eq : left = rest.length := by rfl

namespace Cursor

def peek (c : Cursor) : Char :=
  c.rest.headD '\x00'

/-- A later character. -/
def peekAt (c : Cursor) (n : Nat) : Char :=
  (c.rest.drop n).headD '\x00'

/-- Past the next character.  The two characters of a common line end count as one
line, and a byte order mark takes no column. -/
def next (c : Cursor) : Cursor :=
  match held : c.rest with
  | [] => c
  | ch :: rest =>
    have left_eq : c.left - 1 = rest.length := by rw [c.left_eq, held]; rfl
    if isBreak ch && !(ch == '\r' && rest.head? == some '\n') then
      ⟨rest, c.index + 1, c.line + 1, 0, c.left - 1, left_eq⟩
    else
      ⟨rest, c.index + 1, c.line, if ch == '\ufeff' then c.column else c.column + 1, c.left - 1,
        left_eq⟩

def skip (c : Cursor) : Nat → Cursor
  | 0 => c
  | n + 1 => c.next.skip n

/-- The characters at the front that satisfy a test, and the cursor after them. -/
def span (c : Cursor) (test : Char → Bool) : List Char × Cursor :=
  let run := c.rest.takeWhile test
  (run, c.skip run.length)

/-- Past the characters at the front that satisfy a test. -/
def drop (c : Cursor) (test : Char → Bool) : Cursor :=
  (c.span test).2

/-- The end of a line at the front, as a single character, and the cursor after it.
Two line ends keep their character, all others become a line feed. -/
def lineEnd (c : Cursor) : Option Char × Cursor :=
  let ch := c.peek
  if ch == '\r' && c.peekAt 1 == '\n' then (some '\n', c.skip 2)
  else if ch == '\r' || ch == '\n' || ch == '\x85' then (some '\n', c.next)
  else if ch == '\u2028' || ch == '\u2029' then (some ch, c.next)
  else (none, c)

/-- Whether a mark between documents stands here: three equal characters and a space
or an end after them. -/
def atMark (c : Cursor) (mark : Char) : Bool :=
  c.peek == mark && c.peekAt 1 == mark && c.peekAt 2 == mark && isSpaceOrEnd (c.peekAt 3)

/-- Whether either mark between documents stands here. -/
def atAnyMark (c : Cursor) : Bool :=
  c.atMark '-' || c.atMark '.'

/-- Past spaces and a comment, up to the end of the line. -/
def dropComment (c : Cursor) : Cursor :=
  let c := c.drop (· == ' ')
  if c.peek == '#' then c.drop (!isBreakOrEnd ·) else c

end Cursor
end Yaml
end Consignment
