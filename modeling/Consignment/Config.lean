import Consignment.Document

namespace Consignment

/-!
# Configuration

A configuration gives the defaults of the packaging.  It is a document whose known
fields replace the built-in defaults; all others are kept and have no effect.

Only two fields are checked when the document is read.  The others keep whatever value
they are given, and one of the wrong kind is a fault where it is first used.
-/

structure Config where
  /-- The names that a manifest can have in its directory, never none. -/
  manifestNames : List Value := [.text "wagipack.yml", .text "wagipack.yaml"]
  stagingDirectory : Value := .text ".wagipack/staging"
  serverUrl : Value := .text ""
  /-- How many seconds an answer of the server is waited for. -/
  fetchTimeout : Value := .int 30
  versioning : Value := .text "dev"
  /-- At least one. -/
  maxWorkers : Value := .int 4
  extra : List (Value × Value) := []

namespace Config

/-- Where the configuration is looked for if no other path is given. -/
def defaultPath : String := ".wagipack.yml"

def fieldNames : List String :=
  ["manifest_names", "staging_dir", "server_url", "fetch_timeout", "versioning", "max_workers"]

def isField : Value → Bool
  | .text name => fieldNames.contains name
  | _ => false

/-- The number of workers; truth values count as numbers. -/
def workers (c : Config) : Nat :=
  (c.maxWorkers.integer?.getD 1).toNat

/-- Check the fields of a document; the path is named in a refusal. -/
def ofEntries (path : String) (entries : List (Value × Value)) : Except Failure Config := do
  let field (name : String) (default : Value) : Value := (Value.field? name entries).getD default
  let builtIn : Config := {}
  let manifestNames ←
    match field "manifest_names" (.list builtIn.manifestNames) with
    | .list (first :: rest) => pure (first :: rest)
    | _ => throw (.config (.manifestNames path))
  let maxWorkers := field "max_workers" builtIn.maxWorkers
  match maxWorkers.integer? with
  | some n => if n < 1 then throw (.config (.maxWorkers path))
  | none => throw (.config (.maxWorkers path))
  return {
    manifestNames
    stagingDirectory := field "staging_dir" builtIn.stagingDirectory
    serverUrl := field "server_url" builtIn.serverUrl
    fetchTimeout := field "fetch_timeout" builtIn.fetchTimeout
    versioning := field "versioning" builtIn.versioning
    maxWorkers
    extra := entries.filter fun entry => !isField entry.1 }

/-- The configuration in a file; the built-in one if there is no file or nothing in it. -/
def load (d : Disk) (path : String) : Report Config := do
  let entries ← (Document.entriesAt d (.ofText path)).mapFailure fun
    | .escaped fault =>
      if Document.isUnreadable fault then .config (.unreadable path fault) else .escaped fault
    | failure => failure
  Report.ofOutcome (ofEntries path entries)

/-- The configuration in a file, with a notice that it was read. -/
def establish (d : Disk) (path : String) : Report Config := do
  let c ← load d path
  Report.note (Topic.config.notice Level.debug ("配置已加载: " ++ path))
  return c

def toValue (c : Config) : Value :=
  .record [
    ("manifest_names", .list c.manifestNames), ("staging_dir", c.stagingDirectory),
    ("server_url", c.serverUrl), ("fetch_timeout", c.fetchTimeout), ("versioning", c.versioning),
    ("max_workers", c.maxWorkers), ("extra", .map c.extra)]

end Config
end Consignment
