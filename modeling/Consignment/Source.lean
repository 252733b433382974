import Consignment.Invoice.Decode
import Consignment.Json.Reader
import Consignment.Manifest.Basic
import Consignment.Pool
import Consignment.Staging
import Consignment.Url.Basic

namespace Consignment

/-!
# Where the invoices of other packages come from

The invoice of a package that is referred to is asked for at a server, or read from a
staging directory.  Either way it has to be the invoice of that package.

All packages that a build refers to are asked for before the build, each once.
-/

/-- What comes of asking for a document at an address. -/
inductive Answer where
  | body (bytes : List UInt8)
  /-- The server refuses, with a code and a reason. -/
  | status (code reason : String)
  /-- There is no connection to the server. -/
  | unreachable (reason : String)
  /-- The connection ends early. -/
  | interrupted (text : String)

inductive Source where
  | server (url : String) (timeout : Value)
  | staged (directory : Path)

namespace Source

/-- What the address of a server is for, as a refusal of it says. -/
def serverContext : String := "invoice server"

/-- The server at an address that is given as bytes; no scheme of bytes is allowed. -/
def refuseBytes (b : List UInt8) : Failure :=
  match b.zipIdx.find? fun entry => 0x80 ≤ entry.1.toNat with
  | some (byte, position) => .escaped (.notAscii byte position)
  | none =>
    match Url.schemeOf (String.ofList (b.map fun byte => Char.ofNat byte.toNat)) with
    | .error fault => .escaped (.authority fault)
    | .ok scheme =>
      .invalid (.scheme (Text.quotedBytes scheme.toUTF8.toList) serverContext (Text.quotedBytes b))

def ofServer (url timeout : Value) : Except Failure Source :=
  match url with
  | .text url => do
    Url.validate serverContext url
    return .server url timeout
  | .bytes b => .error (refuseBytes b)
  | v => .error (.escaped (.kindAsAddress v.qualifiedKindName))

def valueOfBody (id : PackageId) (bytes : List UInt8) : Except Failure Value :=
  match Text.decodeUtf8 bytes with
  | .error _ => .error (.fetch (.malformed id))
  | .ok text =>
    match Json.read text with
    | .ok v => .ok v
    | .error .malformed => .error (.fetch (.malformed id))
    | .error (.tooLong digits) => .error (.escaped (.integer (.tooLong digits) ""))

def valueOfAnswer (id : PackageId) : Answer → Except Failure Value
  | .body bytes => valueOfBody id bytes
  | .status code reason => .error (.fetch (.status id code reason))
  | .unreachable reason => .error (.fetch (.network id reason))
  | .interrupted text => .error (.fetch (.connection id text))

/-- The invoice of a package, which has to be about that package. -/
def invoiceOfValue (id : PackageId) (v : Value) : Except Failure Invoice := do
  let inv ← (Invoice.ofValue v).mapError fun
    | .invalid cause => .fetch (.invalid id cause)
    | failure => failure
  if inv.id = id then return inv else throw (.fetch (.otherPackage id inv.id))

def addressOf (server : String) (id : PackageId) : String :=
  Url.join server ["_i", id.text]

def fetch (network : String → Answer) (d : Disk) (source : Source) (id : PackageId) :
    Report Invoice :=
  match source with
  | .server address timeout => do
    let url := addressOf address id
    Report.note (Topic.fetching.notice Level.info ("拉取 invoice: " ++ url))
    Report.ask ⟨Url.requested url, timeout⟩
    let v ← Report.ofOutcome (valueOfAnswer id (network (Url.requested url)))
    Report.ofOutcome (invoiceOfValue id v)
  | .staged directory => do
    let p := Staging.invoiceOf directory id
    if !(← Report.ofOutcome ((d.isFile p).mapError .escaped)) then
      Report.fail (.fetch (.notStaged id p.text))
    let entries ← (Document.entriesAt d p).mapFailure fun
      | .escaped fault =>
        if Document.isUnreadable fault then .fetch (.unreadable id p.text fault)
        else .escaped fault
      | failure => failure
    Report.note (Topic.fetching.notice Level.info ("本地命中: " ++ id.text ++ " -> " ++ p.text))
    Report.ofOutcome (invoiceOfValue id (.map entries))

end Source

/-- The packages that are referred to, each once and in the order of the first references. -/
def ExternalRef.packages (refs : List ExternalRef) : List PackageId :=
  (refs.map (·.package)).eraseDups

/-- The invoices of all packages that are referred to.  Each is asked for once. -/
def prefetch (fetch : PackageId → Report Invoice) (pool : Pool) (refs : List ExternalRef) :
    Report (List (PackageId × Invoice)) := do
  let ids := ExternalRef.packages refs
  if ids.isEmpty then return []
  Report.note (Topic.fetching.notice Level.info
    ("预取 " ++ toString ids.length ++ " 个外部包"))
  let invoices ← pool.gather .invoices (ids.map fetch)
  return ids.zip invoices

def Source.fetchAll (network : String → Answer) (d : Disk) (source : Source) (pool : Pool)
    (refs : List ExternalRef) : Report (List (PackageId × Invoice)) :=
  prefetch (source.fetch network d) pool refs

end Consignment
