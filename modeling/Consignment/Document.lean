import Consignment.Disk.Write
import Consignment.Report
import Consignment.Yaml.Dump
import Consignment.Yaml.Load

namespace Consignment
namespace Document

/-!
# Documents on disk

Manifests, configurations and staged invoices are documents of the same format.  They
are small, so a file beyond a certain size is taken for a mistake and not read.

A document that is only looked up, such as a configuration, may be missing or hold
something else than a mapping; both count as an empty mapping.
-/

/-- The most bytes of a document that is read. -/
def maxSize : Nat := 10 * 1024 * 1024

/-- The text of a document, every line ended by a line feed. -/
def textAt (d : Disk) (p : Path) : Except Fault (List Char) := do
  match ← d.stat p with
  | .file bytes =>
    if maxSize < bytes.size then throw (.tooLarge p.text bytes.size maxSize)
    match Text.decodeUtf8 bytes.toList with
    | .ok text => return Text.unifyLineEnds text
    | .error fault => throw (.undecodable fault)
  | .directory => Disk.refuse .isDirectory p

def malformedNotice (p : Path) (fault : Fault) : Notice :=
  Topic.documents.notice Level.error ("解析 YAML 文件失败: " ++ p.text ++ ", 错误: " ++ fault.message)

def notMapNotice (p : Path) (v : Value) : Notice :=
  Topic.documents.notice Level.warning
    (p.text ++ " 内容不是字典类型 (实际类型: " ++ v.kindName ++ ")，返回空字典")

def notWrittenNotice (p : Path) (fault : Fault) : Notice :=
  Topic.documents.notice Level.error ("写入文件失败: " ++ p.text ++ ", 错误: " ++ fault.message)

def valueAt (d : Disk) (p : Path) : Report Value :=
  match textAt d p with
  | .error fault => .fail (.escaped fault)
  | .ok text =>
    match Yaml.load text with
    | .ok v => pure v
    | .error .malformedDocument => do
      Report.note (malformedNotice p .malformedDocument)
      Report.fail (.escaped .malformedDocument)
    | .error fault => .fail (.escaped fault)

/-- The entries of the mapping that a document is. -/
def entriesAt (d : Disk) (p : Path) : Report (List (Value × Value)) := do
  if ← Report.ofOutcome ((d.holds p).mapError .escaped) then
    match ← valueAt d p with
    | .null => return []
    | .map entries => return entries
    | v =>
      Report.note (notMapNotice p v)
      return []
  else return []

/-- The text of a document.  Integers are written out in decimal, so there is none for a
value that holds one of too many digits. -/
def textOf (v : Value) : Except Fault String :=
  if v.isShowable then .ok (Yaml.dump v) else .error .longInteger

/-- Write a document in the place of the one that a path leads to, if any. -/
def save (d : Disk) (p : Path) (v : Value) : Disk × Report Unit :=
  match textOf v with
  | .error fault => (d, .fail (.escaped fault))
  | .ok text =>
    match d.replaceFile p text.toUTF8 with
    | (d, .ok ()) => (d, pure ())
    | (d, .error (.disk fault)) =>
      (d, do
        Report.note (notWrittenNotice p (.disk fault))
        Report.fail (.escaped (.disk fault)))
    | (d, .error fault) => (d, .fail (.escaped fault))

/-- Whether a document that cannot be had for this reason is unreadable in the sense of
the failures that say so: it is refused, malformed, or holds a value out of range. -/
def isUnreadable (fault : Fault) : Bool :=
  fault.isDisk || fault.isValue || fault = .malformedDocument

end Document
end Consignment
