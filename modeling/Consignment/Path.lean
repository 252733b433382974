import Consignment.Text.Split

namespace Consignment

/-!
# Paths

A path is a list of parts under an anchor.  Reading a path drops empty parts and
single dots; double dots stay, because what they lead to depends on the files.
Two slashes at the front, and exactly two, are an anchor of their own.
-/

inductive Anchor where
  /-- At the working directory. -/
  | relative
  /-- At the root. -/
  | root
  /-- At the root, written with two slashes. -/
  | doubleRoot
  deriving DecidableEq, Repr

namespace Anchor

def text : Anchor → String
  | relative => ""
  | root => "/"
  | doubleRoot => "//"

end Anchor

structure Path where
  anchor : Anchor := .relative
  parts : List String := []
  deriving DecidableEq, Repr

namespace Path

/-- The anchor that a text shows at its front. -/
def anchorOf : List Char → Anchor
  | '/' :: '/' :: '/' :: _ => .root
  | '/' :: '/' :: _ => .doubleRoot
  | '/' :: _ => .root
  | _ => .relative

def isPart (piece : List Char) : Bool :=
  piece ≠ [] && piece ≠ ['.']

def ofText (text : String) : Path :=
  let cs := text.toList
  ⟨anchorOf cs, ((Text.splitAt '/' cs).filter isPart).map String.ofList⟩

def text (p : Path) : String :=
  if p.anchor = .relative ∧ p.parts = [] then "."
  else p.anchor.text ++ String.intercalate "/" p.parts

/-- Follow a path from another one: an anchored path stands for itself. -/
def append (base p : Path) : Path :=
  if p.anchor = .relative then ⟨base.anchor, base.parts ++ p.parts⟩ else p

/-- Follow a path that is given as a text. -/
def join (base : Path) (text : String) : Path :=
  base.append (ofText text)

/-- The last part, empty when there is none. -/
def name (p : Path) : String :=
  p.parts.getLastD ""

def parent (p : Path) : Path :=
  ⟨p.anchor, p.parts.dropLast⟩

/-- The last dot of the name and what follows it, if something stands on both
sides of the dot. -/
def suffix (p : Path) : List Char :=
  let cs := p.name.toList
  let after := (cs.reverse.takeWhile (· != '.')).reverse
  if after.isEmpty || cs.length ≤ after.length + 1 then [] else '.' :: after

/-- What leads from a base to a path whose first parts are the base's. -/
def relativeTo? (p base : Path) : Option (List String) :=
  if p.anchor = base.anchor ∧ base.parts.isPrefixOf p.parts then
    some (p.parts.drop base.parts.length)
  else none

/-- Whether a part holds a character that no path can hold. -/
def hasNull (p : Path) : Bool :=
  p.parts.any (·.toList.contains '\x00')

end Path
end Consignment
