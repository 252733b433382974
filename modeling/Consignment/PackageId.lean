import Consignment.Text.Blank
import Consignment.Text.Order

namespace Consignment

/-!
# Package ids

A package is known by a name and a version.  The written form puts a slash
between the two; the name may hold slashes of its own, so the last one separates.
Reading ignores blanks around the text and refuses an empty name or version.
-/

structure PackageId where
  name : String
  version : String
  deriving DecidableEq, Repr, Inhabited

namespace PackageId

def text (id : PackageId) : String :=
  id.name ++ "/" ++ id.version

/-- Split at the last slash into what stands before and after it. -/
def splitLast (cs : List Char) : Option (List Char × List Char) :=
  match cs.reverse.dropWhile (· != '/') with
  | [] => none
  | _ :: before => some (before.reverse, (cs.reverse.takeWhile (· != '/')).reverse)

def ofText? (text : String) : Option PackageId :=
  match splitLast (Text.trim text.toList) with
  | some (name, version) =>
    if name.isEmpty || version.isEmpty then none
    else some ⟨String.ofList name, String.ofList version⟩
  | none => none

/-- Not after, by name and then by version. -/
def notAfter (a b : PackageId) : Bool :=
  if a.name == b.name then Text.notAfter a.version b.version else Text.notAfter a.name b.name

/-- In order, with repetitions. -/
def sorted (ids : List PackageId) : List PackageId :=
  ids.mergeSort notAfter

end PackageId
end Consignment
