import Consignment.Document
import Consignment.Manifest.Decode

namespace Consignment
namespace Manifest

/-!
# Finding and reading manifests

A manifest is given by its file or by its directory.  In a directory it has one of a
few names, and exactly one file of such a name has to be there.
-/

def readNotice (m : Manifest) : Notice :=
  Topic.manifest.notice Level.debug
    ("清单已解析: " ++ m.packageName ++ "/" ++ m.packageVersion ++ ", " ++ toString m.entries.length
      ++ " 个条目")

/-- Read a manifest from a value, with a notice. -/
def decode (source : String) (v : Value) : Report Manifest := do
  let m ← Report.ofOutcome (ofValue source v)
  Report.note m.readNotice
  return m

def ofText (source : String) (text : List Char) : Report Manifest :=
  match Yaml.load text with
  | .ok v => decode source v
  | .error .malformedDocument => .fail (.manifest source (.malformed .malformedDocument))
  | .error fault => .fail (.escaped fault)

def load (d : Disk) (p : Path) : Report Manifest :=
  match Document.textAt d p with
  | .ok text => ofText p.text text
  | .error fault =>
    if fault.isDisk || fault.isValue then .fail (.manifestFile (.unreadable p.text fault))
    else .fail (.escaped fault)

/-- The path that a name in a directory leads to.  Only a text is a name. -/
def candidate (directory : Path) : Value → Except Fault Path
  | .text name => .ok (directory.join name)
  | v => .error (.kindInPath v.qualifiedKindName)

/-- The files in a directory that have one of the names, in the order of the names. -/
def candidates (d : Disk) (directory : Path) : List Value → Except Fault (List Path)
  | [] => .ok []
  | name :: rest => do
    let p ← candidate directory name
    let isThere ← d.isFile p
    let others ← candidates d directory rest
    return if isThere then p :: others else others

/-- The file of the manifest that a path leads to. -/
def locate (d : Disk) (p : Path) (names : List Value) : Except Failure Path := do
  if ← (d.isFile p).mapError .escaped then return p
  if !(← (d.isDirectory p).mapError .escaped) then throw (.manifestFile (.absent p.text))
  match ← (candidates d p names).mapError .escaped with
  | [] =>
    match names with
    | [] => throw (.escaped .noItem)
    | first :: _ => throw (.manifestFile (.noCandidate p.text first.plain))
  | [found] => return found
  | found => throw (.manifestFile (.severalCandidates p.text (found.map Path.name)))

end Manifest
end Consignment
