import Consignment.Invoice.Basic

namespace Consignment

/-!
# Invoices as documents

The document of an invoice is a mapping with the keys in a fixed order.  What is
absent is left out, and so are a feature map, an annotation map and a membership
that are present and empty: those three are the only things that a document does
not tell from absence.
-/

namespace Label

def toValue (label : Label) : Value :=
  let feature := match label.feature with
    | none | some [] => []
    | some features =>
      [("feature", Value.record (features.map fun f => (f.1, Value.textMap f.2)))]
  let annotations := match label.annotations with
    | none | some [] => []
    | some texts => [("annotations", Value.textMap texts)]
  .record ([("name", .text label.name), ("sha256", .text label.sha256),
    ("mediaType", .text label.mediaType), ("size", .int label.size)] ++ feature ++ annotations)

end Label

namespace Membership

def fields (m : Membership) : List (String × Value) :=
  let field (name : String) : Option (List String) → List (String × Value)
    | none => []
    | some groups => [(name, .texts groups)]
  field "memberOf" m.memberOf ++ field "requires" m.requires

end Membership

namespace Parcel

def toValue (p : Parcel) : Value :=
  let conditions := match p.conditions with
    | none => []
    | some m => match m.fields with
      | [] => []
      | fields => [("conditions", Value.record fields)]
  .record (("label", p.label.toValue) :: conditions)

end Parcel

namespace Invoice

def toValue (inv : Invoice) : Value :=
  let description := match inv.description with
    | .null => []
    | v => [("description", v)]
  let authors := match inv.authors with
    | none => []
    | some names => [("authors", Value.texts names)]
  let annotations := match inv.annotations with
    | none => []
    | some texts => [("annotations", Value.textMap texts)]
  .record ([("package_id", .text inv.id.text)] ++ description ++ authors ++ annotations
    ++ [("parcel", .list (inv.parcels.map Parcel.toValue)),
      ("group", .list (inv.groups.map fun name => .record [("name", .text name)]))])

end Invoice
end Consignment
