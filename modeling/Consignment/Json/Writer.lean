import Consignment.Value.Shown

namespace Consignment
namespace Json

/-!
# Writing JSON

Characters are written as they are, except for the quote, the backslash and controls.
A value that the format does not know is written as the text that a reader would type,
and a key always is a text.
-/

inductive Layout where
  /-- On one line. -/
  | line
  /-- An item or entry per line, each indented by two columns more than its container. -/
  | block
  deriving DecidableEq, Repr

/-- How a character is written between quotes. -/
def escaped (c : Char) : List Char :=
  if c == '\x22' || c == '\\' then ['\\', c]
  else if c == '\n' then ['\\', 'n']
  else if c == '\r' then ['\\', 'r']
  else if c == '\t' then ['\\', 't']
  else if c == '\x08' then ['\\', 'b']
  else if c == '\x0c' then ['\\', 'f']
  else if c.toNat < 0x20 then '\\' :: 'u' :: Text.hex 4 c.toNat
  else [c]

def quotedText (s : String) : String :=
  String.ofList ('\x22' :: s.toList.flatMap escaped ++ ['\x22'])

def keyText : Value → String
  | .text s => s
  | .null => "null"
  | .bool b => if b then "true" else "false"
  | v => v.plain

def enclose (layout : Layout) (depth : Nat) (opening closing : String) (parts : List String) :
    String :=
  match layout with
  | .line => opening ++ String.intercalate ", " parts ++ closing
  | .block =>
    let lineStart (depth : Nat) : String := "\n" ++ String.ofList (List.replicate (2 * depth) ' ')
    let separator := "," ++ lineStart (depth + 1)
    if parts.isEmpty then opening ++ closing
    else
      opening ++ lineStart (depth + 1) ++ String.intercalate separator parts ++ lineStart depth
        ++ closing

mutual

/-- A value inside so many containers. -/
def writeAt (layout : Layout) (depth : Nat) : Value → String
  | .null => "null"
  | .bool b => if b then "true" else "false"
  | .int n => Text.decimal n
  | .float x => Number.written Number.messageLayout "Infinity" "NaN" x
  | .text s => quotedText s
  | .list items => enclose layout depth "[" "]" (writeItems layout (depth + 1) items)
  | .set items => enclose layout depth "[" "]" (writeItems layout (depth + 1) items)
  | .map entries => enclose layout depth "\x7b" "\x7d" (writeEntries layout (depth + 1) entries)
  | .pair first second =>
    enclose layout depth "[" "]"
      [writeAt layout (depth + 1) first, writeAt layout (depth + 1) second]
  | v => quotedText v.plain

def writeItems (layout : Layout) (depth : Nat) : List Value → List String
  | [] => []
  | item :: rest => writeAt layout depth item :: writeItems layout depth rest

def writeEntries (layout : Layout) (depth : Nat) : List (Value × Value) → List String
  | [] => []
  | (key, value) :: rest =>
    (quotedText (keyText key) ++ ": " ++ writeAt layout depth value)
      :: writeEntries layout depth rest

end

/-- The text of a value. -/
def write (layout : Layout) (v : Value) : String :=
  writeAt layout 0 v

end Json
end Consignment
