import Consignment.Condition.Basic

namespace Consignment
namespace Condition

/-!
# Reading conditions

A condition is written as two terms around `==` or `!=`, with any number of
spaces around the operator and at the end.  A variable is a dollar sign, an ASCII
letter and then letters, digits and underscores; a literal is a run of letters,
digits, underscores, hyphens and dots between single quotes, and may be empty.

Each reader takes the text from where it stands and gives the rest, or the text
from where it got stuck.  A stuck place is thus a suffix of the whole text, and
its offset is what the two lengths differ by.  A malformed variable and a
malformed operator are stuck where they begin, a malformed literal where it
cannot go on.
-/

def isNameStart (c : Char) : Bool :=
  c.isAlpha

def isNameChar (c : Char) : Bool :=
  c.isAlphanum || c == '_'

def isLiteralChar (c : Char) : Bool :=
  isNameChar c || c == '-' || c == '.'

/-- Reading from a suffix of the text: a result with the rest, or the suffix where
reading got stuck. -/
abbrev Step (α : Type) := Except (List Char) (α × List Char)

def readTerm : List Char → Step Term
  | '$' :: rest =>
    if (rest.head?.map isNameStart).getD false then
      .ok (.reference (String.ofList (rest.takeWhile isNameChar)), rest.dropWhile isNameChar)
    else .error ('$' :: rest)
  | '\x27' :: rest =>
    match rest.dropWhile isLiteralChar with
    | '\x27' :: after => .ok (.literal (String.ofList (rest.takeWhile isLiteralChar)), after)
    | stuck => .error stuck
  | stuck => .error stuck

/-- Read an operator, as the condition it makes of two terms. -/
def readOperator : List Char → Step (Term → Term → Condition)
  | '=' :: '=' :: rest => .ok (equal, rest)
  | '!' :: '=' :: rest => .ok (unequal, rest)
  | stuck => .error stuck

/-- Skip the spaces at the front; other blanks stay. -/
def skipSpaces (cs : List Char) : List Char :=
  cs.dropWhile (· == ' ')

/-- Read a whole text as a condition, or tell the suffix where reading got stuck. -/
def readChars (cs : List Char) : Except (List Char) Condition := do
  let (left, rest) ← readTerm cs
  let (make, rest) ← readOperator (skipSpaces rest)
  let (right, rest) ← readTerm (skipSpaces rest)
  match skipSpaces rest with
  | [] => return make left right
  | stuck => throw stuck

/-- A text that is no condition: where reading got stuck, in characters from the
start, and in which entry the text stands, if that is known. -/
structure SyntaxFault where
  text : String
  offset : Nat
  context : String := ""
  deriving DecidableEq, Repr

namespace SyntaxFault

/-- The text from the stuck place up to the next space. -/
def unexpected (f : SyntaxFault) : List Char :=
  (f.text.toList.drop f.offset).takeWhile (· != ' ')

def problem (f : SyntaxFault) : String :=
  if f.unexpected.isEmpty then "unexpected end of condition"
  else "unexpected text \"" ++ String.ofList f.unexpected ++ "\""

/-- The text with a mark under the stuck place. -/
def diagnostic (f : SyntaxFault) : String :=
  "    " ++ f.text ++ "\n    " ++ String.ofList (List.replicate f.offset ' ') ++ "^-- here"

def message (f : SyntaxFault) : String :=
  (if f.context.isEmpty then "" else f.context ++ ": ")
    ++ "无效的构建条件 \"" ++ f.text ++ "\"，典型格式: \"$name ==/!= 'value'\"；问题: "
    ++ f.problem ++ "\n" ++ f.diagnostic

end SyntaxFault

/-- Read a condition; without a text there is no condition. -/
def read : Option String → Except SyntaxFault Condition
  | none => .ok always
  | some text =>
    match readChars text.toList with
    | .ok condition => .ok condition
    | .error stuck => .error ⟨text, text.toList.length - stuck.length, ""⟩

end Condition
end Consignment
