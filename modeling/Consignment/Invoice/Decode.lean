import Consignment.Failure
import Consignment.Invoice.Basic

namespace Consignment

/-!
# Reading invoices from documents

An invoice is read from the layout in which it is written, and from a layout with
a header that gives name and version apart.  Names, digests and media types are
taken as plain text whatever their kind, and a size is taken from anything that
denotes an integer.  Lists of texts and maps of texts have to be exactly that.  What is
taken as plain text, or shown as the reason of a refusal, has to be short enough for that.

The checks run from the outside in, and the first one that fails decides: the
shape of the whole, the header, the package id, the groups, the shape of the
parcel list, the texts of the package, and then the parcels in order.
-/

namespace Value

def toInteger : Value → Except Fault Int
  | bool b => .ok (if b then 1 else 0)
  | int n => .ok n
  | float x =>
    match Number.parts x with
    | .nan => .error .nanAsInteger
    | .infinite _ => .error .infinityAsInteger
    | _ => .ok ((Number.truncate? x).getD 0)
  | text s => (Number.readInteger 10 s.toList).mapError fun f => .integer f (Text.quoted s)
  | bytes b =>
    let cs := b.map fun byte => if byte.toNat < 0x80 then Char.ofNat byte.toNat else '\uFFFD'
    (Number.readInteger 10 cs).mapError fun f => .integer f (Text.quotedBytes b)
  | v => .error (.kindAsInteger v.qualifiedKindName)

/-- The items of a value where a list is expected and anything with items is
accepted: the keys of a mapping, the characters of a text, the bytes as numbers. -/
def items : Value → Except Fault (List Value)
  | list items => .ok items
  | map entries => .ok (entries.map Prod.fst)
  | set members => .ok members
  | pair first second => .ok [first, second]
  | text s => .ok (s.toList.map fun c => text (String.ofList [c]))
  | bytes b => .ok (b.map fun byte => int byte.toNat)
  | enclosing _ => .ok []
  | v => .error (.kindAsList v.qualifiedKindName)

/-- A value as plain text. -/
def written : Value → Except Fault String
  | text s => .ok s
  | v => if v.isShowable then .ok v.plain else .error .longInteger

@[simp] theorem written_text (s : String) : (text s).written = .ok s := rfl

/-- A list of texts, or nothing. -/
def textList? (field : String) : Value → Except Failure (Option (List String))
  | null => .ok none
  | list items =>
    match allTexts items with
    | some texts => .ok (some texts)
    | none => .error (InvalidInput.failure (.textList field (list items)))
  | v => .error (InvalidInput.failure (.textList field v))

def textMap? (field : String) : Value → Except Failure (Option TextMap)
  | null => .ok none
  | map entries =>
    match allTextEntries entries with
    | some texts => .ok (some texts)
    | none => .error (InvalidInput.failure (.textMap field (map entries)))
  | v => .error (InvalidInput.failure (.textMap field v))

/-- The maps of texts of a feature map; an absent one counts as empty, and keys are
taken as plain text. -/
def featureEntries (field : String) : List (Value × Value) → FeatureMap → Except Failure FeatureMap
  | [], done => .ok done
  | (key, value) :: rest, done => do
    let name ← key.written.mapError .escaped
    let texts ← textMap? (field ++ "." ++ name) value
    featureEntries field rest (put name (texts.getD []) done)
where
  /-- Put a map under a name: in the place of the old one, or at the end. -/
  put (name : String) (texts : TextMap) : FeatureMap → FeatureMap
    | [] => [(name, texts)]
    | (k, v) :: rest => if k = name then (k, texts) :: rest else (k, v) :: put name texts rest

def featureMap? (field : String) : Value → Except Failure (Option FeatureMap)
  | null => .ok none
  | map entries => (featureEntries field entries []).map some
  | v => .error (InvalidInput.failure (.feature field v))

end Value

namespace Label

/-- The media type of content of which nothing is known. -/
def defaultMediaType : String := "application/octet-stream"

/-- A fault in a field of a label makes the label invalid, except that an infinite
size is a fault of its own. -/
def fieldFailure (whole : Value) (fault : Fault) : Failure :=
  match fault with
  | .infinityAsInteger => .escaped fault
  | _ => (InvalidInput.labelField whole fault).failure

def ofValue (v : Value) : Except Failure Label :=
  match v with
  | .map entries => do
    let need (name : String) : Except Failure String :=
      match Value.field? name entries with
      | some value => value.written.mapError (fieldFailure v)
      | none => .error (fieldFailure v (.missingField name))
    let name ← need "name"
    let sha256 ← need "sha256"
    let size ← ((Value.field? "size" entries).getD (.int 0)).toInteger.mapError (fieldFailure v)
    let mediaType ← ((Value.field? "mediaType" entries).getD
      (.text defaultMediaType)).written.mapError .escaped
    let feature ← Value.featureMap? ("label " ++ name ++ " feature")
      (Value.entryOrNull "feature" entries)
    let annotations ← Value.textMap? ("label " ++ name ++ " annotations")
      (Value.entryOrNull "annotations" entries)
    return ⟨name, sha256, mediaType, size, feature, annotations⟩
  | _ => .error (InvalidInput.failure (.label v))

end Label

namespace Parcel

/-- Read the conditions of a parcel; void ones are none. -/
def membershipOfValue (v : Value) : Except Failure (Option Membership) :=
  if v.isVoid then .ok none
  else
    match v with
    | .map entries => do
      let memberOf ← Value.textList? "conditions.memberOf" (Value.entryOrNull "memberOf" entries)
      let requires ← Value.textList? "conditions.requires" (Value.entryOrNull "requires" entries)
      return some ⟨memberOf, requires⟩
    | _ => .error (InvalidInput.failure (.conditions v))

def ofValue (v : Value) : Except Failure Parcel :=
  match v with
  | .map entries =>
    match Value.field? "label" entries with
    | none => .error (InvalidInput.failure (.parcel v))
    | some label => do
      let conditions ← membershipOfValue (Value.entryOrNull "conditions" entries)
      let label ← Label.ofValue label
      return ⟨label, conditions⟩
  | _ => .error (InvalidInput.failure (.parcel v))

end Parcel

namespace Invoice

def groupOfValue (v : Value) : Except Failure String :=
  match v with
  | .map entries =>
    match Value.field? "name" entries with
    | some name => name.written.mapError .escaped
    | none => .error (InvalidInput.failure (.group v))
  | _ => .error (InvalidInput.failure (.group v))

/-- The package id: the one that is written out, or the one that the header gives
in two parts. -/
def idOfEntries (entries header : List (Value × Value)) : Except Failure PackageId :=
  match Value.field? "package_id" entries with
  | some value => do
    let text ← value.written.mapError .escaped
    match PackageId.ofText? text with
    | some id => return id
    | none => throw (.invalid (.packageId text))
  | none => do
    let name := Value.entryOrNull "name" header
    let version := Value.entryOrNull "version" header
    if name.isVoid || version.isVoid then throw (.invalid .noPackageId)
    return ⟨← name.written.mapError .escaped, ← version.written.mapError .escaped⟩

def fieldOrHeader (name : String) (entries header : List (Value × Value)) : Value :=
  (Value.field? name entries).getD (Value.entryOrNull name header)

/-- The header of a document; a void one is empty. -/
def headerOf (entries : List (Value × Value)) : Except Failure (List (Value × Value)) :=
  match Value.entryOrNull "bindle" entries with
  | .map header => .ok header
  | v => if v.isVoid then .ok [] else .error (InvalidInput.failure (.header v))

/-- The names of the groups of a document; void ones are none. -/
def groupsOf (entries : List (Value × Value)) : Except Failure (List String) :=
  let group := Value.entryOrNull "group" entries
  if group.isVoid then .ok [] else do (← group.items.mapError .escaped).mapM groupOfValue

/-- The parcels of a document before they are read; void ones are none. -/
def parcelItemsOf (entries : List (Value × Value)) : Except Failure (List Value) :=
  match Value.entryOrNull "parcel" entries with
  | .list items => .ok items
  | v => if v.isVoid then .ok [] else .error (InvalidInput.failure (.parcels v))

def ofValue (v : Value) : Except Failure Invoice :=
  match v with
  | .map entries => do
    let header ← headerOf entries
    let id ← idOfEntries entries header
    let groups ← groupsOf entries
    let items ← parcelItemsOf entries
    let authors ← Value.textList? "authors" (fieldOrHeader "authors" entries header)
    let annotations ← Value.textMap? "annotations" (Value.entryOrNull "annotations" entries)
    let parcels ← items.mapM Parcel.ofValue
    return {
      id, authors, annotations, parcels, groups
      description := fieldOrHeader "description" entries header }
  | _ => .error (.invalid (.invoice v.kindName))

end Invoice
end Consignment
