import Consignment.Config
import Consignment.Expansion
import Consignment.Manifest.Load
import Consignment.Source

namespace Consignment

/-!
# Packaging

To package an application is to find its manifest, to get the invoices of the packages
that it refers to, and to expand it into an invoice; to prepare it is to stage the
result as well.

A directory with staged packages is preferred to a server, and a server that is named
in the request to one of the configuration.  Neither is needed when no entry of the
build refers to another package.
-/

/-- What surrounds a piece of work. -/
structure Surroundings where
  disk : Disk
  network : String → Answer
  stamp : Stamp
  config : Config := {}

/-- What is asked to be packaged. -/
structure Order where
  source : String := "."
  versioning : Versioning := .dev
  values : Values := []
  /-- Empty when the request names none. -/
  serverUrl : String := ""
  /-- Empty when the request names none. -/
  importDirectory : String := ""

/-- A packaged application and where its manifest is. -/
structure Packaged where
  invoice : Invoice
  manifestPath : Path

namespace Surroundings

def loadManifest (s : Surroundings) (source : String) : Report (Manifest × Path) := do
  let p ← Report.ofOutcome (Manifest.locate s.disk (.ofText source) s.config.manifestNames)
  return (← Manifest.load s.disk p, p)

/-- The variables that conditions mention and the order gives no value for. -/
def missingVariables (manifest : Manifest) (values : Values) : List String :=
  manifest.variableNames.filter fun name => (values.get? name).isNone

def missingNotice (names : List String) : Notice :=
  Topic.packaging.notice Level.warning
    ("构建条件引用了未提供的变量 (按缺失处理): " ++ String.intercalate ", " names)

/-- Where an order gets the invoices of other packages from, if there is a place. -/
def sourceOf (s : Surroundings) (order : Order) : Except Failure (Option Source) :=
  if !order.importDirectory.isEmpty then .ok (some (.staged (.ofText order.importDirectory)))
  else
    let url := if order.serverUrl.isEmpty then s.config.serverUrl else .text order.serverUrl
    if url.isVoid then .ok none
    else (Source.ofServer url s.config.fetchTimeout).map some

/-- A way to the invoices of other packages for an order, if there is one. -/
abbrev Supply := Order → Report (Option (PackageId → Report Invoice))

/-- The supply that asks the source of an order. -/
def supply (s : Surroundings) : Supply := fun order => do
  let source ← Report.ofOutcome (s.sourceOf order)
  return source.map (Source.fetch s.network s.disk)

def pool (s : Surroundings) : Pool :=
  { workers := s.config.workers }

/-- The invoices of the packages that the entries of a build refer to. -/
def externalInvoices (supply : Supply) (pool : Pool) (order : Order) (refs : List ExternalRef) :
    Report (List (PackageId × Invoice)) := do
  if refs.isEmpty then return []
  match ← supply order with
  | none => Report.fail (.config .noSource)
  | some fetch => prefetch fetch pool refs

/-- What the application of a manifest is expanded with. -/
def contextFor (s : Surroundings) (pool : Pool) (order : Order) (manifestPath : Path)
    (external : List (PackageId × Invoice)) : ExpansionContext where
  base := manifestPath.parent
  disk := s.disk
  versioning := order.versioning
  stamp := s.stamp
  external := external
  values := order.values
  pool := pool

/-- Package the application of a manifest. -/
def packageManifest (s : Surroundings) (supply : Supply) (pool : Pool) (order : Order)
    (manifest : Manifest) (manifestPath : Path) : Report Packaged := do
  let missing := missingVariables manifest order.values
  if !missing.isEmpty then Report.note (missingNotice missing)
  let entries ← ExpansionContext.select order.values manifest
  let external ← externalInvoices supply pool order (Manifest.externalRefs entries)
  let invoice ← (s.contextFor pool order manifestPath external).expand manifest
  return ⟨invoice, manifestPath⟩

/-- Package an application with a given supply and pool. -/
def buildWith (s : Surroundings) (supply : Supply) (pool : Pool) (order : Order) :
    Report Packaged := do
  let (manifest, manifestPath) ← s.loadManifest order.source
  s.packageManifest supply pool order manifest manifestPath

def build (s : Surroundings) (order : Order) : Report Packaged :=
  s.buildWith s.supply s.pool order

def stagingPath : Value → Except Fault Path
  | .text name => .ok (.ofText name)
  | .bytes _ => .error .bytesAsPath
  | v => .error (.kindAsPath v.qualifiedKindName)

/-- Package an application and stage it.  The result has the directory of the staged
package. -/
def prepare (s : Surroundings) (order : Order) (staging : Value) :
    Disk × Report (Packaged × Path) :=
  let built := s.build order
  match built.outcome with
  | .error failure => (s.disk, { built with outcome := .error failure })
  | .ok packaged =>
    match stagingPath staging with
    | .error fault => (s.disk, do
        let _ ← built
        Report.fail (.escaped fault))
    | .ok staging =>
      let (d, staged) :=
        Staging.write s.disk packaged.manifestPath.parent staging packaged.invoice
      (d, do
        let packaged ← built
        return (packaged, ← staged))

end Surroundings
end Consignment
