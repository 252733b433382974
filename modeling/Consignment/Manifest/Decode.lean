import Consignment.Failure
import Consignment.Manifest.Basic

namespace Consignment
namespace Manifest

/-!
# Reading manifests from documents

A manifest document is checked completely: a field that is not known, one that is
missing and one of the wrong kind are all refused, so nothing that is written in a
manifest is ever ignored.  A field that is null counts as absent.

The checks run in a fixed order, and the first one that fails decides: the fields
of the whole and of the package table, the authors, the handlers in order, the
exports in order, the presence of an entry, and at last the texts of the package.
-/

def topFields : List String := ["package", "annotations", "handler", "export"]

def packageFields : List String := ["name", "version", "description", "authors"]

def handlerFields : List String := ["name", "external", "route", "files", "condition"]

def externalFields : List String := ["package_id", "handler_id"]

def exportFields : List String := ["name", "id", "files", "condition"]

abbrev Table := List (Value × Value)

def isField (allowed : List String) : Value → Bool
  | .text name => allowed.contains name
  | _ => false

/-- Every key of the table is one of the given fields. -/
def checkFields (allowed : List String) (label : String) (table : Table) :
    Except ManifestFault Unit :=
  match (table.map Prod.fst).filter (!isField allowed ·) with
  | [] => .ok ()
  | unknown => .error (.unknownFields label unknown)

def optionalText (field label : String) (table : Table) : Except ManifestFault (Option String) :=
  match Value.entryOrNull field table with
  | .null => .ok none
  | .text s => .ok (some s)
  | v => .error (.notText label field v.kindName)

/-- A text that has to be there and must not be empty. -/
def requiredText (field label : String) (table : Table) : Except ManifestFault String :=
  match Value.field? field table with
  | none => .error (.missingField label field)
  | some _ => do
    match ← optionalText field label table with
    | none => throw (.emptyField label field)
    | some s => if s.isEmpty then throw (.emptyField label field) else return s

def optionalTexts (field label : String) (table : Table) :
    Except ManifestFault (Option (List String)) :=
  match Value.entryOrNull field table with
  | .null => .ok none
  | .list items =>
    match Value.allTexts items with
    | some texts => .ok (some texts)
    | none => .error (.notTexts label field)
  | _ => .error (.notTexts label field)

def optionalTextMap (field : String) (table : Table) :
    Except ManifestFault (Option (List (String × String))) :=
  match Value.entryOrNull field table with
  | .null => .ok none
  | .map entries =>
    match Value.allTextEntries entries with
    | some texts => .ok (some texts)
    | none => .error (.notTextMap field)
  | _ => .error (.notTextMap field)

def allTables : List Value → Option (List Table)
  | [] => some []
  | .map entries :: rest => (allTables rest).map (entries :: ·)
  | _ :: _ => none

def tables (field : String) (whole : Table) : Except ManifestFault (List Table) :=
  match Value.entryOrNull field whole with
  | .null => .ok []
  | .list items =>
    match allTables items with
    | some tables => .ok tables
    | none => .error (.notTables field)
  | _ => .error (.notTables field)

/-- A fault of a manifest as a failure that tells the manifest's source. -/
def atSource {α : Type} (source : String) (checked : Except ManifestFault α) : Except Failure α :=
  checked.mapError (ManifestFault.failure source)

/-- The condition of an entry.  A malformed one is reported with the entry that it
belongs to. -/
def conditionOf (source label : String) (table : Table) : Except Failure Condition := do
  let text ← atSource source (optionalText "condition" label table)
  (Condition.read text).mapError fun fault =>
    .condition { fault with context := Failure.located source ++ label }

def externalOf (label : String) (v : Value) : Except ManifestFault ExternalRef :=
  match v with
  | .map table => do
    let inner := label ++ " external"
    checkFields externalFields inner table
    let text ← requiredText "package_id" inner table
    match PackageId.ofText? text with
    | none => throw (.externalId label (.packageId text))
    | some package =>
      let handlerId ← requiredText "handler_id" inner table
      return ⟨package, handlerId⟩
  | _ => .error (.externalNotTable label)

def handlerOf (source : String) (table : Table) : Except Failure Entry := do
  let route ← atSource source (requiredText "route" "[[handler]]" table)
  let label := "[[handler]] (route " ++ route ++ ")"
  atSource source (checkFields handlerFields label table)
  match Value.entryOrNull "name" table, Value.entryOrNull "external" table with
  | .null, .null => throw (.manifest source (.ambiguousHandler route))
  | .null, external =>
    let condition ← conditionOf source label table
    let files ← atSource source (optionalTexts "files" label table)
    let ref ← atSource source (externalOf label external)
    return ⟨.imported ref route, files, condition⟩
  | _, .null =>
    let condition ← conditionOf source label table
    let files ← atSource source (optionalTexts "files" label table)
    let modulePath ← atSource source (requiredText "name" label table)
    return ⟨.handler modulePath route, files, condition⟩
  | _, _ => throw (.manifest source (.ambiguousHandler route))

/-- Read an export.  An export without patterns has an empty list of them. -/
def exportOf (source : String) (table : Table) : Except Failure Entry := do
  atSource source (checkFields exportFields "[[export]]" table)
  let modulePath ← atSource source (requiredText "name" "[[export]]" table)
  let label := "[[export]] (" ++ modulePath ++ ")"
  let exportId ← atSource source (requiredText "id" label table)
  let files ← atSource source (optionalTexts "files" label table)
  let condition ← conditionOf source label table
  return ⟨.exported modulePath exportId, some (files.getD []), condition⟩

/-- Read a manifest; the source is where the document came from, or empty. -/
def ofValue (source : String) (v : Value) : Except Failure Manifest :=
  match v with
  | .map whole => do
    atSource source (checkFields topFields "清单顶层" whole)
    let package ← match Value.entryOrNull "package" whole with
      | .map package => pure package
      | _ => throw (.manifest source .noPackage)
    atSource source (checkFields packageFields "[package]" package)
    let authors ← atSource source (optionalTexts "authors" "[package]" package)
    let handlers ← (← atSource source (tables "handler" whole)).mapM (handlerOf source)
    let exports ← (← atSource source (tables "export" whole)).mapM (exportOf source)
    let entries := handlers ++ exports
    if entries.isEmpty then throw (.noEntries source)
    let packageName ← atSource source (requiredText "name" "[package]" package)
    let packageVersion ← atSource source (requiredText "version" "[package]" package)
    let description ← atSource source (optionalText "description" "[package]" package)
    let annotations ← atSource source (optionalTextMap "annotations" whole)
    return ⟨packageName, packageVersion, entries, description, authors, annotations⟩
  | _ => .error (.manifest source .notMap)

end Manifest
end Consignment
