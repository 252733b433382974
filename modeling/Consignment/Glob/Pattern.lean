namespace Consignment
namespace Glob

/-!
# Patterns for one name

A pattern is matched against one name at a time, character by character and
case-sensitively.  A star stands for any run of characters and a question mark for
any one.  Brackets enclose a set: characters and ranges, the complement of them
after an exclamation mark, and a closing bracket only in the first place.  A bracket
that is never closed stands for itself.

A hyphen makes a range of its two neighbours where both are there and the left one
has not just ended a range.  A range whose ends are in the wrong order holds
nothing, and its ends are gone with it.
-/

/-- What one position of a pattern matches. -/
inductive Piece where
  /-- Any run of characters. -/
  | star
  /-- Any one character. -/
  | any
  /-- One character. -/
  | exactly (c : Char)
  /-- A character in one of the ranges, or in none of them. -/
  | among (inverted : Bool) (ranges : List (Char × Char))
  deriving DecidableEq, Repr

/-- The ends of a list, from the whole to the empty one. -/
def suffixes {α : Type} : List α → List (List α)
  | [] => [[]]
  | a :: rest => (a :: rest) :: suffixes rest

def inSet (inverted : Bool) (ranges : List (Char × Char)) (c : Char) : Bool :=
  (ranges.any fun r => decide (r.1 ≤ c) && decide (c ≤ r.2)) != inverted

def matchesPieces : List Piece → List Char → Bool
  | [], cs => cs.isEmpty
  | .star :: pieces, cs => (suffixes cs).any fun rest => matchesPieces pieces rest
  | .any :: pieces, cs =>
    match cs with
    | [] => false
    | _ :: rest => matchesPieces pieces rest
  | .exactly c :: pieces, cs =>
    match cs with
    | [] => false
    | d :: rest => c == d && matchesPieces pieces rest
  | .among inverted ranges :: pieces, cs =>
    match cs with
    | [] => false
    | d :: rest => inSet inverted ranges d && matchesPieces pieces rest

/-- Split the inside of brackets at the hyphens that make ranges.  `quiet` counts the
characters that come before a hyphen can make one; `chunk` is what has been read
since the last such hyphen, latest first. -/
def chunksFrom : Nat → List Char → List Char → List (List Char)
  | _, chunk, [] => [chunk.reverse]
  | quiet, chunk, c :: rest =>
    match quiet with
    | 0 => if c == '-' then chunk.reverse :: chunksFrom 2 [] rest else chunksFrom 0 (c :: chunk) rest
    | quiet + 1 => chunksFrom quiet (c :: chunk) rest

/-- A hyphen at the end makes no range: it belongs to the chunk before it. -/
def closeChunks : List (List Char) → List (List Char)
  | [] => []
  | [chunk, []] => [chunk ++ ['-']]
  | chunk :: rest => chunk :: closeChunks rest

/-- Join the chunks around a range whose ends are in the wrong order, without the
ends; the chunks are taken from the last to the first. -/
def dropEmptyRanges : List (List Char) → List (List Char)
  | [] => []
  | chunk :: rest =>
    match dropEmptyRanges rest with
    | [] => [chunk]
    | next :: others =>
      match chunk.getLast?, next.head? with
      | some last, some first =>
        if first < last then (chunk.dropLast ++ next.drop 1) :: others
        else chunk :: next :: others
      | _, _ => chunk :: next :: others

/-- The ranges that chunks with hyphens between them denote. -/
def rangesOf : List (List Char) → List (Char × Char)
  | [] => []
  | [chunk] => chunk.map fun c => (c, c)
  | chunk :: next :: rest =>
    let spanning := match chunk.getLast?, next.head? with
      | some first, some last => [(first, last)]
      | _, _ => []
    chunk.map (fun c => (c, c)) ++ spanning ++ rangesOf (next :: rest)

/-- The piece that the inside of brackets denotes. -/
def setOf (inside : List Char) : Piece :=
  let lead := if inside.head? == some '!' then 2 else 1
  let chunks := dropEmptyRanges (closeChunks (chunksFrom lead [] inside))
  match chunks with
  | ['!'] :: [] => .any
  | ('!' :: chunk) :: rest => .among true (rangesOf (chunk :: rest))
  | _ => .among false (rangesOf chunks)

/-- The inside of brackets and what follows them, if they are closed. -/
def takeBrackets (cs : List Char) : Option (List Char × List Char) :=
  let (mark, afterMark) := match cs with
    | '!' :: rest => (['!'], rest)
    | _ => ([], cs)
  let (lead, afterLead) := match afterMark with
    | ']' :: rest => ([']'], rest)
    | _ => ([], afterMark)
  match afterLead.dropWhile (· != ']') with
  | [] => none
  | _ :: rest => some (mark ++ lead ++ afterLead.takeWhile (· != ']'), rest)

/-- The pieces of a pattern.  Every piece takes a character at least, so the length
of the pattern is enough fuel. -/
def piecesFrom : Nat → List Char → List Piece
  | 0, _ => []
  | _, [] => []
  | fuel + 1, c :: rest =>
    if c == '*' then .star :: piecesFrom fuel rest
    else if c == '?' then .any :: piecesFrom fuel rest
    else if c == '[' then
      match takeBrackets rest with
      | none => .exactly '[' :: piecesFrom fuel rest
      | some (inside, after) => setOf inside :: piecesFrom fuel after
    else .exactly c :: piecesFrom fuel rest

def pieces (pattern : List Char) : List Piece :=
  piecesFrom pattern.length pattern

def matchesName (pattern name : String) : Bool :=
  matchesPieces (pieces pattern.toList) name.toList

def isMagic (pattern : String) : Bool :=
  pattern.toList.any fun c => c == '*' || c == '?' || c == '['

def isRecursive (pattern : String) : Bool :=
  pattern == "**"

/-- Whether a name or pattern begins with a dot. -/
def isHidden (name : String) : Bool :=
  name.toList.head? == some '.'

end Glob
end Consignment
