import Consignment.Invoice.Basic

namespace Consignment

/-!
# Merging parcels of the same content

Several entries can contribute the same file.  Parcels with the same digest and the
same name become one: it has the label of the first of them, it requires what the
first requires, and it belongs to every group that any of them belongs to, each group
once and in order of first appearance.
-/

namespace Parcel

/-- The same content under the same name. -/
def sameFile (p q : Parcel) : Bool :=
  p.label.sha256 == q.label.sha256 && p.label.name == q.label.name

/-- A parcel with other memberships; each group counts once. -/
def withMembers (p : Parcel) (groups : List String) : Parcel :=
  let distinct := groups.eraseDups
  ⟨p.label, some ⟨if distinct.isEmpty then none else some distinct,
    p.conditions.bind Membership.requires⟩⟩

/-- Add a parcel to merged ones. -/
def mergeInto (p : Parcel) : List Parcel → List Parcel
  | [] => [p.withMembers p.memberGroups]
  | q :: rest =>
    if q.sameFile p then q.withMembers (q.memberGroups ++ p.memberGroups) :: rest
    else q :: mergeInto p rest

/-- One parcel for each content and name, in order of first appearance. -/
def merge (parcels : List Parcel) : List Parcel :=
  parcels.foldl (fun done p => mergeInto p done) []

@[simp] theorem merge_nil : merge [] = [] := rfl

/-- Merging can be continued. -/
theorem merge_append (first second : List Parcel) :
    merge (first ++ second) = second.foldl (fun done p => mergeInto p done) (merge first) := by
  simp [merge, List.foldl_append]

end Parcel

/-- The names that occur both among foreign and among local parcels, in order. -/
def clashingNames (external files : List Parcel) : List String :=
  Text.sortedSet ((files.map (·.label.name)).filter
    fun name => (external.map (·.label.name)).contains name)

theorem mem_clashingNames {external files : List Parcel} {name : String} :
    name ∈ clashingNames external files ↔
      (∃ p ∈ external, p.label.name = name) ∧ ∃ p ∈ files, p.label.name = name := by
  simp [clashingNames, Text.mem_sortedSet, and_comm]

end Consignment
