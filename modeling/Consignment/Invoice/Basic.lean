import Consignment.PackageId
import Consignment.Value.Basic

namespace Consignment

/-!
# Invoices

An invoice describes a package by its contents.  A *parcel* is one file: a label
with its name, the digest of its content and what else is known of it, and
possibly a condition that ties it to *groups*.  A parcel can be a member of
groups and can require groups; whoever takes a parcel takes the members of the
groups that it requires, and so on.

A label's annotations are free texts under names.  Two names have a meaning here:
one gives the id under which a parcel can be imported as a handler, the other
marks content that is only referred to and never staged.
-/

/-- Texts under names, no name twice, in order of insertion. -/
abbrev TextMap := List (String × String)

/-- Features of a label: texts under names, under the name of the feature. -/
abbrev FeatureMap := List (String × TextMap)

/-- The annotation that gives a parcel the id under which it can be imported. -/
def handlerIdKey : String := "wagi_handler_id"

/-- The annotation on content that is referred to and not staged. -/
def doNotStageKey : String := "do_not_stage"

/-- The feature that says how a parcel is served. -/
def servingFeature (route : Option String) (isAsset : Bool) : FeatureMap :=
  let mark := ("file", if isAsset then "true" else "false")
  [("wagi", match route with
    | some route => [("route", route), mark]
    | none => [mark])]

/-- Put a text under a name: in the place of the old one, or at the end. -/
def TextMap.put (name value : String) : TextMap → TextMap
  | [] => [(name, value)]
  | (k, v) :: rest => if k = name then (k, value) :: rest else (k, v) :: put name value rest

/-- What is known of the content of a parcel. -/
structure Label where
  name : String
  sha256 : String
  mediaType : String
  size : Int
  feature : Option FeatureMap := none
  annotations : Option TextMap := none
  deriving DecidableEq, Repr

namespace Label

def annotation? (label : Label) (name : String) : Option String :=
  (label.annotations.getD []).lookup name

def hasAnnotation (label : Label) (name : String) : Bool :=
  (label.annotation? name).isSome

/-- The label with the mark of content that is not staged. -/
def markedDoNotStage (label : Label) : Label :=
  { label with
    annotations := some (TextMap.put doNotStageKey "true" (label.annotations.getD [])) }

end Label

/-- The groups that a parcel belongs to and the groups that it requires. -/
structure Membership where
  memberOf : Option (List String) := none
  requires : Option (List String) := none
  deriving DecidableEq, Repr

/-- One file of a package. -/
structure Parcel where
  label : Label
  conditions : Option Membership := none
  deriving DecidableEq, Repr

namespace Parcel

/-- The id under which the parcel can be imported as a handler. -/
def handlerId? (p : Parcel) : Option String :=
  p.label.annotation? handlerIdKey

def requiredGroups (p : Parcel) : List String :=
  (p.conditions.bind Membership.requires).getD []

def memberGroups (p : Parcel) : List String :=
  (p.conditions.bind Membership.memberOf).getD []

def isMemberOf (p : Parcel) (group : String) : Bool :=
  p.memberGroups.contains group

/-- Whether the content is referred to only. -/
def isReference (p : Parcel) : Bool :=
  p.label.hasAnnotation doNotStageKey

/-- A parcel that requires one group and belongs to none. -/
def requiring (label : Label) (group : String) : Parcel :=
  ⟨label, some ⟨none, if group.isEmpty then none else some [group]⟩⟩

/-- A parcel that belongs to one group and requires none. -/
def memberIn (label : Label) (group : String) : Parcel :=
  ⟨label, some ⟨if group.isEmpty then none else some [group], none⟩⟩

end Parcel

/-- The description of a package.  The description text is whatever the document
held in its place, null when it held nothing. -/
structure Invoice where
  id : PackageId
  description : Value := .null
  authors : Option (List String) := none
  annotations : Option TextMap := none
  parcels : List Parcel := []
  groups : List String := []

namespace Invoice

/-- The members of a group, in the order of the invoice. -/
def members (inv : Invoice) (group : String) : List Parcel :=
  inv.parcels.filter (·.isMemberOf group)

theorem mem_members {inv : Invoice} {group : String} {p : Parcel} :
    p ∈ inv.members group ↔ p ∈ inv.parcels ∧ group ∈ p.memberGroups := by
  simp [members, Parcel.isMemberOf]

def named? (inv : Invoice) (name : String) : Option Parcel :=
  inv.parcels.find? (·.label.name == name)

/-- The first parcel that can be imported under an id. -/
def handler? (inv : Invoice) (handlerId : String) : Option Parcel :=
  inv.parcels.find? (·.handlerId? == some handlerId)

/-- The ids under which parcels can be imported, by code point and with
repetitions; an empty id is none. -/
def handlerIds (inv : Invoice) : List String :=
  Text.sorted ((inv.parcels.filterMap Parcel.handlerId?).filter (!·.isEmpty))

end Invoice
end Consignment
