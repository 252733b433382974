import Consignment.Closure
import Consignment.Digest
import Consignment.Glob.Matches
import Consignment.Manifest.Basic
import Consignment.MediaType
import Consignment.Merge
import Consignment.Pool
import Consignment.Version

namespace Consignment

/-!
# From manifests to invoices

Expansion turns the entries that take part in a build into an invoice.  Each entry
gets a group of its own and a primary parcel that requires it.  The dependencies of
an imported handler and the files that the entry's patterns match become members of
the group.  Dependencies and files are merged, each kind for itself, and no file may
have the name of a dependency.

The invoice lists the primary parcels in the order of the entries, then the
dependencies, then the files.  The first thing that cannot be had ends the expansion:
the primary parcels come first, then the dependencies, the patterns, the files, and
at last the comparison of names.
-/

/-- What an expansion works with. -/
structure ExpansionContext where
  /-- The directory that module paths and patterns start from. -/
  base : Path
  disk : Disk
  versioning : Versioning
  stamp : Stamp
  /-- The invoices of other packages, no id twice. -/
  external : List (PackageId × Invoice) := []
  values : Values := []
  pool : Pool := {}

namespace ExpansionContext

def nameOf (c : ExpansionContext) (path : Path) : Except Failure String :=
  match path.relativeTo? c.base with
  | some parts => .ok (Path.text ⟨.relative, parts⟩)
  | none => .error (.files (.outside path.text c.base.text))

/-- The label of a local file.  The entry is named when the file cannot be read. -/
def localLabel (c : ExpansionContext) (role : Role) (path : Path) (feature : FeatureMap)
    (annotations : Option TextMap) : Except Failure Label :=
  match c.disk.read path with
  | .error (.disk fault) => .error (.files (.unreadable path.text role.describe (.disk fault)))
  | .error fault => .error (.escaped fault)
  | .ok bytes => do
    let name ← c.nameOf path
    return ⟨name, Digest.ofBytes bytes, MediaType.ofPath path, bytes.size, some feature, annotations⟩

/-- The invoice of a referenced package and the handler in it. -/
def externalSource (c : ExpansionContext) (role : Role) (ref : ExternalRef) :
    Except Failure (Invoice × Parcel) :=
  match c.external.lookup ref.package with
  | none => .error (.invoiceMissing role.describe ref.package)
  | some invoice =>
    match invoice.handler ref.handlerId with
    | .ok parcel => .ok (invoice, parcel)
    | .error (.handlerMissing _ id handlerId available) =>
      .error (.handlerMissing (some ref.text) id handlerId available)
    | .error failure => .error failure

/-- The parcel of the entry's own module.  An imported one keeps what is known of its
content and gets the entry's route. -/
def primaryParcel (c : ExpansionContext) (role : Role) : Except Failure Parcel :=
  match role with
  | .handler modulePath route => do
    let label ← c.localLabel role (c.base.join modulePath) (servingFeature (some route) false) none
    return .requiring label role.groupName
  | .imported ref route => do
    let (_, source) ← c.externalSource role ref
    return .requiring
      { source.label with
        feature := some (servingFeature (some route) false)
        annotations := some [(doNotStageKey, "true")] }
      role.groupName
  | .exported modulePath exportId => do
    let label ← c.localLabel role (c.base.join modulePath) (servingFeature none false)
      (some [(handlerIdKey, exportId)])
    return .requiring label role.groupName

/-- The dependencies of an imported handler, as members of the entry's group. -/
def dependencyParcels (c : ExpansionContext) (role : Role) : Report (List Parcel) :=
  match role.external? with
  | none => pure []
  | some ref => do
    let (invoice, handler) ← Report.ofOutcome (c.externalSource role ref)
    let found ← (invoice.closure handler).mapFailure fun
      | .notHandler _ id parcel => .notHandler (some ref.text) id parcel
      | failure => failure
    Report.note (Topic.expansion.notice Level.debug
      ("外部引用 " ++ ref.text ++ ": " ++ toString found.length ++ " 个依赖 parcel"))
    return found.map fun p => .memberIn p.label.markedDoNotStage role.groupName

/-- The files that a pattern matches, by code point. -/
def matchedFiles (c : ExpansionContext) (pattern : String) : Report (List Path) := do
  let found ← Report.ofOutcome ((Glob.matching c.disk c.base pattern).mapError .escaped)
  let paths := (Text.sorted found).map c.base.join
  let files ← Report.ofOutcome <| (paths.filterMapM fun path => do
    return if ← c.disk.isFile path then some path else none).mapError .escaped
  if files.isEmpty then
    Report.note (Topic.expansion.notice Level.debug ("glob 未匹配任何文件: " ++ pattern))
  return files

/-- The files that an entry's patterns match, pattern by pattern. -/
def entryFiles (c : ExpansionContext) (entry : Entry) : Report (List Path) := do
  let found ← Report.forAll (entry.files.getD []) c.matchedFiles
  return found.flatten

/-- The parcel of a matched file, as a member of the entry's group. -/
def fileParcel (c : ExpansionContext) (role : Role) (path : Path) : Except Failure Parcel := do
  let label ← c.localLabel role path (servingFeature none true) none
  return .memberIn label role.groupName

def skipNotice (entry : Entry) : Notice :=
  Topic.manifest.notice Level.debug
    ("条件不满足，跳过 " ++ entry.role.describe ++ ": " ++ entry.condition.text)

/-- The entries that take part, with a notice on every other. -/
def select (values : Values) (manifest : Manifest) : Report (List Entry) := do
  Report.notes ((manifest.skipped values).map skipNotice)
  return manifest.matching values

def doneNotice (id : PackageId) (primary external files groups : Nat) : Notice :=
  Topic.expansion.notice Level.info
    ("展开完成: " ++ id.text ++ ", " ++ toString (primary + external + files) ++ " 个 parcel (外部依赖 "
      ++ toString external ++ ", 文件 " ++ toString files ++ "), " ++ toString groups ++ " 个 group")

/-- The invoice of a manifest. -/
def expand (c : ExpansionContext) (manifest : Manifest) : Report Invoice := do
  let entries ← select c.values manifest
  let skipped := manifest.entries.length - entries.length
  if skipped ≠ 0 then
    Report.note (Topic.expansion.notice Level.info ("构建条件排除了 " ++ toString skipped ++ " 个条目"))
  let primary ← c.pool.gather .modules (entries.map fun e => .ofOutcome (c.primaryParcel e.role))
  let dependencies ← Report.forAll entries fun e => c.dependencyParcels e.role
  let external := Parcel.merge dependencies.flatten
  let matched ← Report.forAll entries fun e => do
    let paths ← c.entryFiles e
    return paths.map fun path => (e.role, path)
  let found ← c.pool.gather .files <|
    matched.flatten.map fun m => .ofOutcome (c.fileParcel m.1 m.2)
  let files := Parcel.merge found
  let clashes := clashingNames external files
  if !clashes.isEmpty then Report.fail (.nameClash clashes)
  let id : PackageId :=
    ⟨manifest.packageName, versionFor c.versioning c.stamp manifest.packageVersion⟩
  Report.note (doneNotice id primary.length external.length files.length entries.length)
  return {
    id
    description := (manifest.description.map Value.text).getD .null
    authors := manifest.authors
    annotations := manifest.annotations
    parcels := primary ++ external ++ files
    groups := entries.map (·.role.groupName) }

end ExpansionContext
end Consignment
