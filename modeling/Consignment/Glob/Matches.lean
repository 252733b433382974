import Consignment.Disk.Basic
import Consignment.Glob.Pattern

namespace Consignment
namespace Glob

/-!
# The paths that a pattern matches

A pattern is a path whose parts are patterns.  It is matched from a base directory,
part by part: a part that is a plain name has to exist, any other part is matched
against the names in the directory so far, and two stars stand for any number of
directories on the way, or for everything below at the end.  Names that begin with a
dot are matched only by a part that begins with one.

Directories that cannot be listed have no names.  A path with a character that no
path can hold is a fault where it would be listed, and nothing elsewhere.
-/

/-- The last piece of a pattern after a slash, and what stands before it without
slashes at its end, unless it is nothing but slashes. -/
def splitPattern (pattern : String) : String × String :=
  let reversed := pattern.toList.reverse
  let base := (reversed.takeWhile (· != '/')).reverse
  let front := reversed.dropWhile (· != '/')
  let trimmed := front.dropWhile (· == '/')
  let directory := if trimmed.isEmpty then front.reverse else trimmed.reverse
  (String.ofList directory, String.ofList base)

/-- A text followed by another one as paths: the second alone when it is anchored. -/
def joinText (first second : String) : String :=
  if first.isEmpty then second
  else if second.isEmpty then first
  else if second.toList.head? == some '/' then second
  else if first.toList.getLast? == some '/' then first ++ second
  else first ++ "/" ++ second

/-- A directory followed by a name, also an empty one: then a slash ends the text. -/
def extendText (first second : String) : String :=
  if second.toList.head? == some '/' then second
  else if first.isEmpty || first.toList.getLast? == some '/' then first ++ second
  else first ++ "/" ++ second

/-- Whether a text has a character that no path can hold. -/
def hasNull (text : String) : Bool :=
  text.toList.contains '\x00'

/-- What a text leads to, nothing when it cannot be followed. -/
def nodeAt (d : Disk) (text : String) : Option Node :=
  if hasNull text then none
  else
    match d.locateText text with
    | .ok place => d.node? place
    | .error _ => none

def isDirectoryAt (d : Disk) (text : String) : Bool :=
  match nodeAt d text with
  | some .directory => true
  | _ => false

/-- The names in the directory that a text leads to, or those of its directories. -/
def namesAt (d : Disk) (text : String) (directoriesOnly : Bool) : Except Fault (List String) :=
  if hasNull text then .error .nullInPath
  else
    match d.locateText text with
    | .error _ => .ok []
    | .ok place =>
      match d.node? place with
      | some .directory =>
        .ok ((d.names place).filter fun name =>
          !directoriesOnly ||
            match d.node? (place ++ [name]) with
            | some .directory => true
            | _ => false)
      | _ => .ok []

/-- Everything below a directory, as texts from it, hidden names left out.  A tree is
no deeper than it has nodes, so their number is enough fuel. -/
def below (d : Disk) (directoriesOnly : Bool) : Nat → String → Except Fault (List String)
  | 0, _ => .ok []
  | fuel + 1, directory => do
    let names ← namesAt d directory directoriesOnly
    let found ← (names.filter (!isHidden ·)).mapM fun name => do
      let deeper ← below d directoriesOnly fuel (joinText directory name)
      return name :: deeper.map (joinText name)
    return found.flatten

/-- The texts that the last part of a pattern matches in a directory. -/
def lastPart (d : Disk) (directory part : String) (directoriesOnly : Bool) :
    Except Fault (List String) :=
  if !isMagic part then
    if part.isEmpty then .ok (if isDirectoryAt d directory then [part] else [])
    else .ok (if (nodeAt d (joinText directory part)).isSome then [part] else [])
  else if isRecursive part then do
    let deeper ← below d directoriesOnly (d.nodes.length + 1) directory
    return (if isDirectoryAt d directory then "" :: deeper else deeper)
  else do
    let names ← namesAt d directory directoriesOnly
    let visible := if isHidden part then names else names.filter (!isHidden ·)
    return visible.filter (matchesName part)

/-- The texts that a pattern matches from a base.  Every step takes a part off, so
the length of the pattern is enough fuel. -/
def matchFrom (d : Disk) (base : String) : Nat → String → Bool → Except Fault (List String)
  | 0, _, _ => .ok []
  | fuel + 1, pattern, directoriesOnly =>
    let (directory, part) := splitPattern pattern
    if !isMagic pattern then
      if part.isEmpty then
        .ok (if isDirectoryAt d (joinText base directory) then [pattern] else [])
      else .ok (if (nodeAt d (joinText base pattern)).isSome then [pattern] else [])
    else if directory.isEmpty then lastPart d base part directoriesOnly
    else do
      let directories ←
        if directory != pattern && isMagic directory then matchFrom d base fuel directory true
        else pure [directory]
      let found ← directories.mapM fun directory => do
        let names ← lastPart d (joinText base directory) part directoriesOnly
        return names.map (extendText directory)
      return found.flatten

/-- All texts that a pattern matches from a base directory.  The base itself, which
two stars at the front match first, is left out. -/
def matching (d : Disk) (base : Path) (pattern : String) : Except Fault (List String) := do
  let found ← matchFrom d base.text (pattern.length + 1) pattern false
  if pattern.isEmpty || pattern.toList.take 2 == ['*', '*'] then
    match found with
    | "" :: rest => return rest
    | _ => return found
  else return found

end Glob
end Consignment
