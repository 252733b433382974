import Consignment.Yaml.Token

namespace Consignment
namespace Yaml

/-!
# Dividing a document into tokens

Outside brackets, indentation is structure: a line that is indented more than the
block around it opens a block, and one that is indented less closes all blocks that
are deeper.  Inside brackets indentation means nothing.

A key needs no mark of its own.  Whether a node is a key is known only when the colon
after it is met, so the place of the last node that could be one is remembered, for
every level of brackets, and the marks are put before it afterwards.  Such a key stays
on one line and is not longer than a bound.  Where a block of keys has to go on, a node
has to be a key.
-/

/-- A node that is a key if a colon follows. -/
structure PossibleKey where
  /-- How many tokens stand before it. -/
  position : Nat
  /-- Nothing but a key can stand here. -/
  required : Bool
  index : Nat
  line : Nat
  column : Nat

/-- A document that is divided up to a cursor. -/
structure Divided where
  cursor : Cursor
  /-- The tokens so far, the last one first. -/
  done : List Token := []
  count : Nat := 0
  /-- The columns of the open blocks, the innermost first. -/
  blocks : List Nat := []
  /-- Whether a key without a mark can start here. -/
  keyAllowed : Bool := true
  /-- The possible key at this level of brackets. -/
  key : Option PossibleKey := none
  /-- The possible keys at the levels around, the innermost first. -/
  outerKeys : List (Option PossibleKey) := []

/-- The most characters from the start of a key without a mark to its colon. -/
def maxKeyLength : Nat := 1024

namespace Divided

def inFlow (d : Divided) : Bool :=
  !d.outerKeys.isEmpty

def push (d : Divided) (token : Token) : Divided :=
  { d with done := token :: d.done, count := d.count + 1 }

/-- Put tokens before the token of a position. -/
def insert (d : Divided) (position : Nat) (tokens : List Token) : Divided :=
  let later := d.count - position
  { d with
    done := d.done.take later ++ tokens.reverse ++ d.done.drop later
    count := d.count + tokens.length }

/-- Give up a possible key, which must not have been required. -/
def giveUp (key : Option PossibleKey) : Except Fault (Option PossibleKey) :=
  match key with
  | some key => if key.required then malformed else .ok none
  | none => .ok none

/-- Give up the possible key at this level. -/
def dropKey (d : Divided) : Except Fault Divided := do
  return { d with key := ← giveUp d.key }

/-- Give up a possible key whose colon could only come too late. -/
def dropIfStale (cursor : Cursor) (key : Option PossibleKey) :
    Except Fault (Option PossibleKey) :=
  match key with
  | some k =>
    if k.line ≠ cursor.line ∨ maxKeyLength < cursor.index - k.index then giveUp key else .ok key
  | none => .ok none

/-- Give up all possible keys whose colons could only come too late. -/
def dropStaleKeys (d : Divided) : Except Fault Divided := do
  let key ← dropIfStale d.cursor d.key
  let outerKeys ← d.outerKeys.mapM (dropIfStale d.cursor)
  return { d with key, outerKeys }

/-- Remember that the node at the cursor can be a key. -/
def saveKey (d : Divided) : Except Fault Divided :=
  if d.keyAllowed then do
    let d ← d.dropKey
    let c := d.cursor
    let required := !d.inFlow && d.blocks.head? == some c.column
    return { d with key := some ⟨d.count, required, c.index, c.line, c.column⟩ }
  else .ok d

/-- Close the blocks that satisfy a test on their columns, from the innermost on, up to
the first that does not.  Brackets keep all blocks open. -/
def closeBlocks (d : Divided) (test : Nat → Bool) : Divided :=
  if d.inFlow then d
  else
    let closed := d.blocks.takeWhile test
    { d with
      done := closed.map (fun _ => Token.blockEnd) ++ d.done
      count := d.count + closed.length
      blocks := d.blocks.drop closed.length }

/-- Whether a block at a column would be inside all open ones. -/
def opensBlock (d : Divided) (column : Nat) : Bool :=
  match d.blocks.head? with
  | none => true
  | some innermost => innermost < column

/-- Open a block at the cursor unless it is open already. -/
def openBlock (d : Divided) (token : Token) : Divided :=
  if d.opensBlock d.cursor.column then
    { d with blocks := d.cursor.column :: d.blocks }.push token
  else d

/-- Past blanks, comments and line ends.  Outside brackets a key can start on a new
line.  Every line takes a character at least, so the length of the text is enough
fuel. -/
def toNextToken : Nat → Divided → Divided
  | 0, d => d
  | fuel + 1, d =>
    let c := d.cursor.dropComment
    match c.lineEnd with
    | (some _, after) =>
      toNextToken fuel { d with cursor := after, keyAllowed := d.keyAllowed || !d.inFlow }
    | (none, _) => { d with cursor := c }

/-- Where no line ends, only blanks and a comment are passed. -/
theorem toNextToken_of_inline {d : Divided} (fuel : Nat) {after : Cursor}
    (inline : d.cursor.dropComment.lineEnd = (none, after)) :
    toNextToken (fuel + 1) d = { d with cursor := d.cursor.dropComment } := by
  -- One step, written out; to rewrite with the definition would look into `lineEnd` as well.
  change (match d.cursor.dropComment.lineEnd with
    | (some _, after) =>
      toNextToken fuel { d with cursor := after, keyAllowed := d.keyAllowed || !d.inFlow }
    | (none, _) => { d with cursor := d.cursor.dropComment }) = _
  rw [inline]

/-- Where a line ends, what is passed goes on behind the end. -/
theorem toNextToken_of_lineEnd {d : Divided} (fuel : Nat) {mark : Char} {after : Cursor}
    (ends : d.cursor.dropComment.lineEnd = (some mark, after)) :
    toNextToken (fuel + 1) d =
      toNextToken fuel { d with cursor := after, keyAllowed := d.keyAllowed || !d.inFlow } := by
  change (match d.cursor.dropComment.lineEnd with
    | (some _, after) =>
      toNextToken fuel { d with cursor := after, keyAllowed := d.keyAllowed || !d.inFlow }
    | (none, _) => { d with cursor := d.cursor.dropComment }) = _
  rw [ends]

def takeBetween (d : Divided) (scan : Scan Token) : Except Fault Divided := do
  let d ← (d.closeBlocks fun _ => true).dropKey
  let (token, cursor) ← scan d.cursor
  return { d with cursor, keyAllowed := false }.push token

def openFlow (d : Divided) (token : Token) : Except Fault Divided := do
  let d ← d.saveKey
  return { d with
    cursor := d.cursor.next
    keyAllowed := true
    key := none
    outerKeys := d.key :: d.outerKeys }.push token

def closeFlow (d : Divided) (token : Token) : Except Fault Divided :=
  match d.outerKeys with
  | [] => malformed
  | key :: outerKeys =>
    .ok ({ d with cursor := d.cursor.next, keyAllowed := false, key, outerKeys }.push token)

def takeMark (d : Divided) (token : Token) (keyAllowed : Bool) : Except Fault Divided := do
  let d ← d.dropKey
  return { d with cursor := d.cursor.next, keyAllowed }.push token

/-- The mark of an item, or that of a key.  Outside brackets it can only stand where a
key could, and it opens a block. -/
def takeBlockMark (d : Divided) (start token : Token) (keyAllowed : Bool) : Except Fault Divided :=
  if d.inFlow then d.takeMark token keyAllowed
  else if d.keyAllowed then (d.openBlock start).takeMark token keyAllowed
  else malformed

/-- The colon before a value.  If a possible key stands before it, that is the key. -/
def takeColon (d : Divided) : Except Fault Divided :=
  match d.key with
  | some key =>
    let opens := !d.inFlow && d.opensBlock key.column
    let d := d.insert key.position (if opens then [.blockMappingStart, .key] else [.key])
    .ok ({ d with
      cursor := d.cursor.next
      blocks := if opens then key.column :: d.blocks else d.blocks
      keyAllowed := false
      key := none }.push .value)
  | none => d.takeBlockMark .blockMappingStart .value (!d.inFlow)

/-- A property of a node, or a scalar in quotes. -/
def takeKeyable (d : Divided) (scan : Scan Token) : Except Fault Divided := do
  let d ← d.saveKey
  let (token, cursor) ← scan d.cursor
  return { d with cursor, keyAllowed := false }.push token

/-- The least column of a line inside the innermost block. -/
def leastColumn (d : Divided) : Nat :=
  match d.blocks.head? with
  | none => 0
  | some innermost => innermost + 1

/-- A scalar after a mark for its line ends. -/
def takeBlockScalar (d : Divided) (folded : Bool) : Except Fault Divided := do
  let d ← d.dropKey
  let (token, cursor) ← scanBlockScalar d.leastColumn folded d.cursor
  return { d with cursor, keyAllowed := true }.push token

/-- A scalar without marks.  If it ends with a line, a key can start after it. -/
def takePlain (d : Divided) : Except Fault Divided := do
  let d ← d.saveKey
  let c := d.cursor
  let (text, ended, cursor) :=
    scanPlain d.inFlow d.leastColumn (c.left + 1) [] false c
  return { d with cursor, keyAllowed := ended }.push (.scalar text true)

def startsPlain (d : Divided) (c : Cursor) : Bool :=
  let ch := c.peek
  !(isSpaceOrEnd ch || "-?:,[]\x7b\x7d#&*!|>\x27\x22%@\x60".toList.contains ch)
    || (!isSpaceOrEnd (c.peekAt 1) && (ch == '-' || (!d.inFlow && (ch == '?' || ch == ':'))))

def scanQuotedToken (double : Bool) : Scan Token := fun c => do
  let (text, c) ← scanQuoted double (c.left + 1) c.next
  return (.scalar text false, c)

/-- The token at the cursor, before which no blank stands, and the tokens that come
with it. -/
def takeToken (d : Divided) : Except Fault Divided :=
  let c := d.cursor
  let ch := c.peek
  let marksBlock := isSpaceOrEnd (c.peekAt 1)
  if ch == '%' && c.column == 0 then d.takeBetween scanDirective
  else if c.column == 0 && c.atMark '-' then
    d.takeBetween fun c => .ok (.documentStart, c.skip 3)
  else if c.column == 0 && c.atMark '.' then
    d.takeBetween fun c => .ok (.documentEnd, c.skip 3)
  else if ch == '[' then d.openFlow .flowSequenceStart
  else if ch == '\x7b' then d.openFlow .flowMappingStart
  else if ch == ']' then d.closeFlow .flowSequenceEnd
  else if ch == '\x7d' then d.closeFlow .flowMappingEnd
  else if ch == ',' then d.takeMark .flowEntry true
  else if ch == '-' && marksBlock then d.takeBlockMark .blockSequenceStart .blockEntry true
  else if ch == '?' && (d.inFlow || marksBlock) then
    d.takeBlockMark .blockMappingStart .key (!d.inFlow)
  else if ch == ':' && (d.inFlow || marksBlock) then d.takeColon
  else if ch == '*' then
    d.takeKeyable fun c => (scanName c).map fun (name, c) => (.alias name, c)
  else if ch == '&' then
    d.takeKeyable fun c => (scanName c).map fun (name, c) => (.anchor name, c)
  else if ch == '!' then d.takeKeyable scanTag
  else if ch == '|' && !d.inFlow then d.takeBlockScalar false
  else if ch == '>' && !d.inFlow then d.takeBlockScalar true
  else if ch == '\x27' then d.takeKeyable (scanQuotedToken false)
  else if ch == '\x22' then d.takeKeyable (scanQuotedToken true)
  else if d.startsPlain c then d.takePlain
  else malformed

/-- The tokens that are certain: those before the first possible key. -/
def certain (d : Divided) : List Token :=
  let positions := (d.key :: d.outerKeys).filterMap fun key => key.map PossibleKey.position
  d.done.reverse.take (positions.foldl min d.count)

/-- Past blanks and up to the next token, with the ends of blocks. -/
def advance (d : Divided) : Except Fault Divided := do
  let d ← (toNextToken (d.cursor.left + 1) d).dropStaleKeys
  return d.closeBlocks (d.cursor.column < ·)

/-- One token further, or all tokens where the text ends or cannot be divided. -/
def step (d : Divided) : List Token ⊕ Divided :=
  match d.advance with
  | .error fault => .inl (d.certain ++ [.broken fault])
  | .ok d =>
    if d.cursor.rest.isEmpty then
      let d := d.closeBlocks fun _ => true
      match d.dropKey with
      | .error fault => .inl (d.certain ++ [.broken fault])
      | .ok d => .inl (d.done.reverse ++ [.streamEnd])
    else
      match d.takeToken with
      | .error fault => .inl (d.certain ++ [.broken fault])
      | .ok d => .inr d

/-- The tokens up to the end of the text, or up to the place where it cannot be divided.
Every step takes a character at least, so the length of the text is enough fuel. -/
def run : Nat → Divided → List Token
  | 0, d => d.done.reverse
  | fuel + 1, d => d.step.elim id (run fuel)

end Divided

def isDocumentChar (c : Char) : Bool :=
  let n := c.toNat
  c == '\t' || c == '\n' || c == '\r' || (0x20 ≤ n && n ≤ 0x7e) || n == 0x85
    || (0xa0 ≤ n && n ≤ 0xfffd) || 0x10000 ≤ n

/-- The tokens of a document.  A byte order mark at the front is no part of it. -/
def tokens (text : List Char) : List Token :=
  if text.all isDocumentChar then
    let c : Cursor := { rest := text }
    let c := if c.peek == '\ufeff' then c.next else c
    Divided.run (text.length + 2) { cursor := c }
  else [.broken .malformedDocument]

end Yaml
end Consignment
