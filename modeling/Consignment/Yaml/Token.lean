import Consignment.Fault
import Consignment.Yaml.Cursor

namespace Consignment
namespace Yaml

/-!
# Tokens of a document

A document is a list of tokens: the marks of its structure, the properties of its
nodes and its scalars.  Blocks that are given by indentation have tokens for their
start and end like those that are given by brackets.

Text that cannot be divided into tokens ends the list with the fault.  The fault
counts only if the tokens before it do not already break the grammar.
-/

inductive Directive where
  /-- The version that the document is written for. -/
  | version (major minor : Nat)
  /-- The text that a tag's handle stands for. -/
  | handle (handle expansion : String)
  /-- A directive of no meaning here. -/
  | other
  deriving DecidableEq, Repr

inductive Token where
  | directive (directive : Directive)
  | documentStart
  | documentEnd
  | blockSequenceStart
  | blockMappingStart
  | blockEnd
  | flowSequenceStart
  | flowSequenceEnd
  | flowMappingStart
  | flowMappingEnd
  | blockEntry
  | flowEntry
  | key
  | value
  | alias (name : String)
  | anchor (name : String)
  /-- The handle of a tag, if it has one, and the rest of it. -/
  | tag (handle : Option String) (rest : String)
  /-- A scalar's text, and whether it is written without quotes or marks. -/
  | scalar (text : List Char) (isPlain : Bool)
  | streamEnd
  | broken (fault : Fault)
  deriving DecidableEq, Repr

abbrev Scan (α : Type) := Cursor → Except Fault (α × Cursor)

def malformed {α : Type} : Except Fault α :=
  .error .malformedDocument

def isWordChar (c : Char) : Bool :=
  c.isAlphanum || c == '-' || c == '_'

/-! ## Directives and properties of nodes -/

def scanNumber : Scan Nat := fun c =>
  let (digits, after) := c.span Char.isDigit
  if digits.isEmpty then malformed
  else if Number.maxDecimalDigits < digits.length then .error (.integer (.tooLong digits.length) "")
  else .ok (digits.foldl (fun n d => n * 10 + (d.toNat - 0x30)) 0, after)

/-- The handle of a tag: an exclamation mark alone, or around a name. -/
def scanHandle : Scan String := fun c =>
  if c.peek != '!' then malformed
  else if c.peekAt 1 == ' ' then .ok ("!", c.next)
  else
    let (word, after) := c.next.span isWordChar
    if after.peek == '!' then .ok ("!" ++ String.ofList word ++ "!", after.next)
    else malformed

/-- A character of a tag that needs no escape. -/
def isTagChar (c : Char) : Bool :=
  c.isAlphanum || "-;/?:@&=+$,_.!~*'()[]".toList.contains c

def escapedBytes : List Char → Except Fault (List UInt8 × List Char)
  | '%' :: a :: b :: rest =>
    match Text.hexDigit? a, Text.hexDigit? b with
    | some x, some y => do
      let (bytes, after) ← escapedBytes rest
      return ((x * 16 + y).toUInt8 :: bytes, after)
    | _, _ => malformed
  | '%' :: _ => malformed
  | cs => .ok ([], cs)

/-- The text of a tag, escapes replaced by what they stand for, and how many characters it
takes.  Every piece takes a character at least, so the number of characters is enough
fuel. -/
def tagTextFrom : Nat → List Char → Except Fault (List Char × Nat)
  | 0, _ => .ok ([], 0)
  | fuel + 1, cs =>
    match cs with
    | '%' :: _ => do
      let (bytes, after) ← escapedBytes cs
      match Text.decodeUtf8 bytes with
      | .error _ => malformed
      | .ok text =>
        let (more, taken) ← tagTextFrom fuel after
        return (text ++ more, taken + 3 * bytes.length)
    | ch :: rest =>
      if isTagChar ch then do
        let (more, taken) ← tagTextFrom fuel rest
        return (ch :: more, taken + 1)
      else .ok ([], 0)
    | [] => .ok ([], 0)

def scanTagText : Scan String := fun c => do
  let (text, taken) ← tagTextFrom c.left c.rest
  if taken = 0 then malformed
  else .ok (String.ofList text, c.skip taken)

/-- A directive, up to and including the end of its line. -/
def scanDirective : Scan Token := fun c => do
  let (name, c) := c.next.span isWordChar
  if name.isEmpty || !(c.peek == ' ' || isBreakOrEnd c.peek) then malformed
  let (directive, c) ←
    if name == "YAML".toList then do
      let (major, c) ← scanNumber (c.drop (· == ' '))
      if c.peek != '.' then malformed
      let (minor, c) ← scanNumber c.next
      if !(c.peek == ' ' || isBreakOrEnd c.peek) then malformed
      pure (Directive.version major minor, c)
    else if name == "TAG".toList then do
      let (handle, c) ← scanHandle (c.drop (· == ' '))
      if c.peek != ' ' then malformed
      let (expansion, c) ← scanTagText (c.drop (· == ' '))
      if !(c.peek == ' ' || isBreakOrEnd c.peek) then malformed
      pure (Directive.handle handle expansion, c)
    else pure (Directive.other, c.drop (!isBreakOrEnd ·))
  let c := c.dropComment
  if !isBreakOrEnd c.peek then malformed
  return (.directive directive, c.lineEnd.2)

def scanName : Scan String := fun c =>
  let (name, after) := c.next.span isWordChar
  if name.isEmpty then malformed
  else if isSpaceOrEnd after.peek || "?:,]\x7d%@\x60".toList.contains after.peek then
    .ok (String.ofList name, after)
  else malformed

/-- A tag: verbatim between angle brackets, a mark alone, or a handle with a text. -/
def scanTag : Scan Token := fun c => do
  let (token, c) ←
    if c.peekAt 1 == '<' then do
      let (text, c) ← scanTagText (c.skip 2)
      if c.peek != '>' then malformed
      pure (Token.tag none text, c.next)
    else if isSpaceOrEnd (c.peekAt 1) then pure (Token.tag none "!", c.next)
    else
      let ahead := (c.rest.drop 1).takeWhile fun ch => !(ch == ' ' || isBreakOrEnd ch)
      if ahead.contains '!' then do
        let (handle, c) ← scanHandle c
        let (text, c) ← scanTagText c
        pure (Token.tag (some handle) text, c)
      else do
        let (text, c) ← scanTagText c.next
        pure (Token.tag (some "!") text, c)
  if c.peek == ' ' || isBreakOrEnd c.peek then return (token, c) else malformed

/-! ## Scalars with marks -/

/-- What becomes of the line ends after a block scalar. -/
inductive Chomping where
  | strip
  | clip
  | keep
  deriving DecidableEq, Repr

/-- The marks after the sign of a block scalar: the treatment of its end and the
indentation, in either order. -/
def scanBlockMarks : Scan (Chomping × Option Nat) := fun c =>
  let chomping? (ch : Char) : Option Chomping :=
    if ch == '+' then some .keep else if ch == '-' then some .strip else none
  let digit? (ch : Char) : Option Nat := if ch.isDigit then some (ch.toNat - 0x30) else none
  let finish (chomping : Chomping) (indent : Option Nat) (c : Cursor) :
      Except Fault ((Chomping × Option Nat) × Cursor) :=
    if indent == some 0 then malformed
    else if c.peek == ' ' || isBreakOrEnd c.peek then .ok ((chomping, indent), c)
    else malformed
  match chomping? c.peek with
  | some chomping =>
    match digit? c.next.peek with
    | some n => finish chomping (some n) c.next.next
    | none => finish chomping none c.next
  | none =>
    match digit? c.peek with
    | some n =>
      match chomping? c.next.peek with
      | some chomping => finish chomping (some n) c.next.next
      | none => finish .clip (some n) c.next
    | none => finish .clip none c

/-- Past the spaces at the front that stand before a column. -/
def dropIndent (column : Nat) (c : Cursor) : Cursor :=
  c.skip ((c.rest.takeWhile (· == ' ')).length.min (column - c.column))

/-- The ends of empty lines, each indented at most to a column.  Every line takes a
character at least, so the length of the text is enough fuel. -/
def scanBreaks (column : Nat) : Nat → Cursor → List Char × Cursor
  | 0, c => ([], c)
  | fuel + 1, c =>
    let c := dropIndent column c
    match c.lineEnd with
    | (some ch, after) =>
      let (more, c) := scanBreaks column fuel after
      (ch :: more, c)
    | (none, _) => ([], c)

/-- The ends of the empty lines before a block scalar's text and the greatest column
that spaces on them reach. -/
def scanIndentation : Nat → Nat → Cursor → List Char × Nat × Cursor
  | 0, deepest, c => ([], deepest, c)
  | fuel + 1, deepest, c =>
    if c.peek == ' ' then scanIndentation fuel (max deepest c.next.column) c.next
    else
      match c.lineEnd with
      | (some ch, after) =>
        let (more, deepest, c) := scanIndentation fuel deepest after
        (ch :: more, deepest, c)
      | (none, _) => ([], deepest, c)

/-- The lines of a block scalar.  `ends` are the line ends before the next line.  In a
folded scalar the end of a line is a space where neither that line nor the next one
begins with a blank and no empty line stands between them. -/
def scanBlockLines (folded : Bool) (chomping : Chomping) (column : Nat) :
    Nat → List Char → Cursor → List Char × Cursor
  | 0, _, c => ([], c)
  | fuel + 1, ends, c =>
    let isBlank (ch : Char) : Bool := ch == ' ' || ch == '\t'
    let leadingText := !isBlank c.peek
    let (text, c) := c.span (!isBreakOrEnd ·)
    let (lineEnd, c) := c.lineEnd
    let lineEnd := lineEnd.toList
    let (next, c) := scanBreaks column (c.left + 1) c
    if c.column == column && c.peek != '\x00' then
      let glue :=
        if folded && lineEnd == ['\n'] && leadingText && !isBlank c.peek then
          if next.isEmpty then [' '] else []
        else lineEnd
      let (more, c) := scanBlockLines folded chomping column fuel next c
      (ends ++ text ++ glue ++ more, c)
    else
      let tail := match chomping with
        | .strip => []
        | .clip => lineEnd
        | .keep => lineEnd ++ next
      (ends ++ text ++ tail, c)

/-- A block scalar inside a block of the given indentation, which is one less than
that of its own least line. -/
def scanBlockScalar (least : Nat) (folded : Bool) : Scan Token := fun c => do
  let ((chomping, mark), c) ← scanBlockMarks c.next
  let c := c.dropComment
  if !isBreakOrEnd c.peek then malformed
  let c := c.lineEnd.2
  let least := max least 1
  let (ends, column, c) := match mark with
    | none =>
      let (ends, deepest, c) := scanIndentation (c.left + 1) 0 c
      (ends, max least deepest, c)
    | some n =>
      let (ends, c) := scanBreaks (least + n - 1) (c.left + 1) c
      (ends, least + n - 1, c)
  if c.column == column && c.peek != '\x00' then
    let (text, c) := scanBlockLines folded chomping column (c.left + 1) ends c
    return (.scalar text false, c)
  else
    let tail := match chomping with
      | .keep => ends
      | _ => []
    return (.scalar tail false, c)

/-- The character that a letter after a backslash stands for. -/
def escapes : List (Char × Char) := [
  ('0', '\x00'), ('a', '\x07'), ('b', '\x08'), ('t', '\t'), ('\t', '\t'), ('n', '\n'), ('v', '\x0b'),
  ('f', '\x0c'), ('r', '\r'), ('e', '\x1b'), (' ', ' '), ('\x22', '\x22'), ('\\', '\\'), ('/', '/'),
  ('N', '\x85'), ('_', '\xa0'), ('L', '\u2028'), ('P', '\u2029')]

/-- How many hexadecimal digits follow a letter after a backslash. -/
def escapeWidth? (c : Char) : Option Nat :=
  if c == 'x' then some 2 else if c == 'u' then some 4 else if c == 'U' then some 8 else none

/-- The line ends of empty lines inside quotes, blanks between them left out.  A mark
between documents must not stand at the front of a line. -/
def scanQuotedBreaks : Nat → Scan (List Char)
  | 0, c => .ok ([], c)
  | fuel + 1, c => do
    if c.atAnyMark then malformed
    let c := c.drop fun ch => ch == ' ' || ch == '\t'
    match c.lineEnd with
    | (some ch, after) => do
      let (more, c) ← scanQuotedBreaks fuel after
      return (ch :: more, c)
    | (none, _) => return ([], c)

/-- The text between quotes up to the closing one.  The end of a line is a space when
no empty line follows it; blanks around it are left out.  The number of half of a
surrogate pair gives the replacement character. -/
def scanQuoted (double : Bool) : Nat → Scan (List Char)
  | 0, _ => malformed
  | fuel + 1, c => do
    let quote := if double then '\x22' else '\x27'
    let ch := c.peek
    let continued (text : List Char) (c : Cursor) : Except Fault (List Char × Cursor) := do
      let (more, c) ← scanQuoted double fuel c
      return (text ++ more, c)
    if ch == '\x00' then malformed
    else if !double && ch == quote && c.peekAt 1 == quote then continued [quote] (c.skip 2)
    else if ch == quote then return ([], c.next)
    else if double && ch == '\\' then
      let escape := c.next.peek
      let after := c.next.next
      match escapes.lookup escape, escapeWidth? escape with
      | some plain, _ => if c.next.rest.isEmpty then malformed else continued [plain] after
      | none, some width =>
        let digits := (after.rest.take width).filterMap Text.hexDigit?
        if digits.length = width then
          let code := digits.foldl (fun n d => n * 16 + d) 0
          if 0x110000 ≤ code then .error (.character code)
          else continued [if code.isValidChar then Char.ofNat code else '\ufffd'] (after.skip width)
        else malformed
      | none, none =>
        match c.next.lineEnd with
        | (some _, after) =>
          let (ends, c) ← scanQuotedBreaks (c.left + 1) after
          continued ends c
        | (none, _) => malformed
    else if ch == ' ' || ch == '\t' || isBreak ch then
      let (blanks, after) := c.span fun ch => ch == ' ' || ch == '\t'
      match after.lineEnd with
      | (some lineEnd, after) =>
        let (ends, c) ← scanQuotedBreaks (c.left + 1) after
        let fold := if lineEnd != '\n' then [lineEnd] else if ends.isEmpty then [' '] else []
        continued (fold ++ ends) c
      | (none, _) => if after.peek == '\x00' then malformed else continued blanks after
    else
      let (run, after) := c.span fun ch =>
        !(isSpaceOrEnd ch || ch == quote || (double && ch == '\\'))
      continued run after

/-! ## Plain scalars -/

/-- Whether a character that marks flow collections stands in their way. -/
def isFlowMark (c : Char) : Bool :=
  c == ',' || c == '[' || c == ']' || c == '\x7b' || c == '\x7d'

/-- The run of a plain scalar up to a blank, the colon of a mapping, or a mark of a
flow collection inside one. -/
def plainRun (inFlow : Bool) : List Char → List Char
  | [] => []
  | ch :: rest =>
    let next := rest.headD '\x00'
    if isSpaceOrEnd ch || (ch == ':' && (isSpaceOrEnd next || (inFlow && isFlowMark next)))
        || (inFlow && (isFlowMark ch || ch == '?')) then []
    else ch :: plainRun inFlow rest

/-- The line ends of empty lines between the lines of a plain scalar; `none` when a
mark between documents ends it. -/
def scanPlainBreaks : Nat → Cursor → Option (List Char) × Cursor
  | 0, c => (some [], c)
  | fuel + 1, c =>
    if c.peek == ' ' then scanPlainBreaks fuel c.next
    else
      match c.lineEnd with
      | (some ch, after) =>
        if after.atAnyMark then (none, after)
        else
          match scanPlainBreaks fuel after with
          | (some more, c) => (some (ch :: more), c)
          | (none, c) => (none, c)
      | (none, _) => (some [], c)

/-- What stands between two runs of a plain scalar: spaces, or what a folded line end
becomes.  The flag says that a line ended; the text is `none` when the scalar is over
and empty when nothing stands there. -/
def scanPlainSpaces (c : Cursor) : Option (List Char) × Bool × Cursor :=
  let (blanks, c) := c.span (· == ' ')
  match c.lineEnd with
  | (some lineEnd, after) =>
    if after.atAnyMark then (none, true, after)
    else
      match scanPlainBreaks (after.left + 1) after with
      | (none, c) => (none, true, c)
      | (some ends, c) =>
        let fold := if lineEnd != '\n' then [lineEnd] else if ends.isEmpty then [' '] else []
        (some (fold ++ ends), true, c)
  | (none, _) => (some blanks, false, c)

/-- A plain scalar whose lines are indented to a column at least, unless it is inside
a flow collection.  `before` is what stands before the next run; the flag says whether
the scalar ended with a line. -/
def scanPlain (inFlow : Bool) (column : Nat) : Nat → List Char → Bool → Cursor →
    List Char × Bool × Cursor
  | 0, _, ended, c => ([], ended, c)
  | fuel + 1, before, ended, c =>
    if c.peek == '#' then ([], ended, c)
    else
      let run := plainRun inFlow c.rest
      if run.isEmpty then ([], ended, c)
      else
        let c := c.skip run.length
        match scanPlainSpaces c with
        | (none, newLine, c) => (before ++ run, newLine, c)
        | (some blanks, newLine, c) =>
          if blanks.isEmpty || c.peek == '#' || (!inFlow && c.column < column) then
            (before ++ run, newLine, c)
          else
            let (more, ended, c) := scanPlain inFlow column fuel blanks newLine c
            (before ++ run ++ more, ended, c)

end Yaml
end Consignment
