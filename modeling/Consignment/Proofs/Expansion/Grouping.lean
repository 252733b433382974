import Consignment.Proofs.Expansion.Merge

namespace Consignment

/-!
# Merging is grouping

The parcels of one file, in the order of a list, are united into one parcel.  Uniting
looks at the whole list of them; merging never does, but adds one parcel after the other
to what is merged already, and the parcel that is added first is joined with itself.  Both
give the same list, which is determined by what it says of each file.

A parcel that was united stands for all the parcels that it was united from.  So lists can
be merged in parts, and merging what is merged changes nothing.
-/

/-! ## Items without repetitions -/

theorem eraseDups_append_singleton {α : Type} [BEq α] [LawfulBEq α] (items : List α) (last : α) :
    (items ++ [last]).eraseDups =
      items.eraseDups ++ if items.contains last then [] else [last] := by
  rw [List.eraseDups_append]
  by_cases known : last ∈ items <;> simp [List.removeAll, known, List.eraseDups_cons]

/-- Distinct items can stand for all items at the end of a list. -/
theorem eraseDups_append_eraseDups {α : Type} [BEq α] [LawfulBEq α] (first second : List α) :
    (first ++ second.eraseDups).eraseDups = (first ++ second).eraseDups := by
  induction second using List.reverseRecOn with
  | nil => rfl
  | append_singleton second last ih =>
    rw [← List.append_assoc, eraseDups_append_singleton, eraseDups_append_singleton]
    by_cases known : last ∈ second
    · have found : (first ++ second).contains last = true := by simp [known]
      rw [if_pos (List.contains_iff_mem.mpr known), List.append_nil, if_pos found, List.append_nil,
        ih]
    · have fresh : (first ++ second.eraseDups).contains last = (first ++ second).contains last := by
        simp
      rw [if_neg (List.contains_iff_mem.not.mpr known), ← List.append_assoc,
        eraseDups_append_singleton, ih, fresh]

/-- The keys of the first items of each key, in order of first appearance. -/
theorem map_distinctBy {α β : Type} [BEq β] [LawfulBEq β] [DecidableEq β] (key : α → β)
    (items : List α) :
    (distinctBy key items).map key = (items.map key).eraseDups := by
  induction items using List.reverseRecOn with
  | nil => rfl
  | append_singleton items last ih =>
    rw [distinctBy_append_singleton, List.map_append, ih, List.map_append, List.map_singleton,
      eraseDups_append_singleton]
    congr 1
    by_cases known : ∃ a ∈ items, key a = key last
    · have found : (items.map key).contains (key last) = true := by simpa using known
      rw [if_pos known, if_pos found]
      rfl
    · have fresh : ¬ (items.map key).contains (key last) = true := by simpa using known
      rw [if_neg known, if_neg fresh]
      rfl

/-- Of the items of one key, the first is kept. -/
theorem filter_distinctBy {α β : Type} [DecidableEq β] (key : α → β) (items : List α) (k : β) :
    ((distinctBy key items).filter fun a => key a = k) =
      (items.filter fun a => key a = k).head?.toList := by
  induction items with
  | nil => rfl
  | cons first rest ih =>
    rw [distinctBy]
    by_cases here : key first = k
    · have others : ((distinctBy key rest).filter fun b => key b ≠ key first).filter
          (fun a => key a = k) = [] := by
        simp [here]
      rw [List.filter_cons_of_pos (by simpa using here), others,
        List.filter_cons_of_pos (by simpa using here)]
      rfl
    · have others : ((distinctBy key rest).filter fun b => key b ≠ key first).filter
          (fun a => key a = k) = (distinctBy key rest).filter fun a => key a = k := by
        rw [List.filter_filter]
        apply List.filter_congr
        intro a _
        by_cases there : key a = k
        · simp [there, Ne.symm here]
        · simp [there]
      rw [List.filter_cons_of_neg (by simpa using here), others, ih,
        List.filter_cons_of_neg (by simpa using here)]

namespace Parcel

/-! ## Uniting the parcels of a file -/

def ofFile (parcels : List Parcel) (key : String × String) : List Parcel :=
  parcels.filter fun p => p.fileKey = key

/-- One parcel in the place of several: the label and the requirements of the first, and the
groups of all, each group once.  Without any group there is no list of groups. -/
def united : List Parcel → Option Parcel
  | [] => none
  | first :: rest =>
    let groups := ((first :: rest).flatMap memberGroups).eraseDups
    some ⟨first.label,
      some ⟨if groups = [] then none else some groups, first.conditions.bind Membership.requires⟩⟩

theorem united_cons (first : Parcel) (rest : List Parcel) :
    united (first :: rest) = some (first.withMembers ((first :: rest).flatMap memberGroups)) := by
  unfold united withMembers
  simp only [List.isEmpty_iff]

theorem flatMap_united (parcels : List Parcel) :
    (united parcels).toList.flatMap memberGroups = (parcels.flatMap memberGroups).eraseDups := by
  cases parcels with
  | nil => rfl
  | cons first rest =>
    rw [united_cons, Option.toList_some, List.flatMap_singleton, memberGroups_withMembers]

theorem withMembers_append_eraseDups (p : Parcel) (first second : List String) :
    p.withMembers (first ++ second.eraseDups) = p.withMembers (first ++ second) := by
  unfold withMembers
  rw [eraseDups_append_eraseDups]

/-- A parcel that was united already brings the groups that it was united with. -/
theorem united_withMembers_cons (p : Parcel) (groups : List String) (others : List Parcel) :
    united (p.withMembers groups :: others) =
      some (p.withMembers (groups ++ others.flatMap memberGroups)) := by
  rw [united_cons, List.flatMap_cons, memberGroups_withMembers, withMembers_withMembers,
    withMembers_eraseDups_append]

/-- A united parcel stands for those that it was united from. -/
theorem united_united_append (first second : List Parcel) :
    united ((united first).toList ++ (united second).toList) = united (first ++ second) := by
  cases first with
  | nil =>
    cases second with
    | nil => rfl
    | cons p rest =>
      have alone := united_withMembers_cons p ((p :: rest).flatMap memberGroups) []
      rw [List.flatMap_nil, List.append_nil] at alone
      rw [List.nil_append, united_cons p rest]
      exact alone
  | cons p rest =>
    rw [united_cons, Option.toList_some, List.singleton_append, united_withMembers_cons,
      flatMap_united, withMembers_append_eraseDups, ← List.flatMap_append, List.cons_append,
      united_cons]

theorem ofFile_append (first second : List Parcel) (key : String × String) :
    ofFile (first ++ second) key = ofFile first key ++ ofFile second key :=
  List.filter_append first second

/-! ## What merging makes of each file -/

/-- The merged parcels of a file are its parcels, united. -/
theorem ofFile_merge (parcels : List Parcel) (key : String × String) :
    ofFile (merge parcels) key = (united (ofFile parcels key)).toList := by
  have kept : ofFile (distinctBy fileKey parcels) key = (ofFile parcels key).head?.toList :=
    filter_distinctBy fileKey parcels key
  have groups : ∀ p ∈ ofFile (distinctBy fileKey parcels) key,
      p.withMembers (groupsOf parcels p) =
        p.withMembers ((ofFile parcels key).flatMap memberGroups) := by
    intro p mem
    have same : p.fileKey = key := of_decide_eq_true (List.mem_filter.mp mem).2
    rw [groupsOf, same]
    rfl
  have united : ofFile (merge parcels) key = (ofFile (distinctBy fileKey parcels) key).map
      fun p => p.withMembers (groupsOf parcels p) := by
    rw [merge_eq, ofFile, List.filter_map]
    rfl
  rw [united, List.map_congr_left groups, kept]
  cases ofFile parcels key with
  | nil => rfl
  | cons first rest =>
    rw [united_cons]
    rfl

/-- The files of a list, in order of first appearance. -/
theorem map_fileKey_merge (parcels : List Parcel) :
    (merge parcels).map fileKey = (parcels.map fileKey).eraseDups := by
  rw [merge_eq, map_fileKey_withMembers, map_distinctBy]

/-- One parcel for each file of a list, in order of first appearance, united from all
parcels of the file. -/
structure Grouped (parcels merged : List Parcel) : Prop where
  files : merged.map fileKey = (parcels.map fileKey).eraseDups
  each : ∀ p ∈ merged, united (ofFile parcels p.fileKey) = some p

theorem grouped_merge (parcels : List Parcel) : Grouped parcels (merge parcels) where
  files := map_fileKey_merge parcels
  each := by
    intro p mem
    have here : p ∈ ofFile (merge parcels) p.fileKey := List.mem_filter.mpr ⟨mem, by simp⟩
    rw [ofFile_merge] at here
    exact Option.mem_toList.mp here

/-- Nothing else is a grouping of the list. -/
theorem Grouped.eq_merge {parcels merged : List Parcel} (grouped : Grouped parcels merged) :
    merged = merge parcels := by
  have read (others : List Parcel) (grouped : Grouped parcels others) :
      ((parcels.map fileKey).eraseDups.filterMap fun key => united (ofFile parcels key)) =
        others := by
    rw [← grouped.files, List.filterMap_map]
    calc others.filterMap ((fun key => united (ofFile parcels key)) ∘ fileKey)
        = others.filterMap some := List.filterMap_congr grouped.each
      _ = others := List.filterMap_some
  rw [← read merged grouped, read (merge parcels) (grouped_merge parcels)]

/-- What is merged in parts is grouped as a whole. -/
theorem grouped_merge_append (first second : List Parcel) :
    Grouped (merge first ++ merge second) (merge (first ++ second)) where
  files := by
    rw [map_fileKey_merge, List.map_append, List.map_append, map_fileKey_merge, map_fileKey_merge,
      eraseDups_append_eraseDups, eraseDups_eraseDups_append]
  each := by
    intro p mem
    rw [ofFile_append, ofFile_merge, ofFile_merge, united_united_append, ← ofFile_append]
    exact (grouped_merge (first ++ second)).each p mem

/-- Merging gives one parcel for each content and name, in order of first appearance: with
the label and the requirements of the first, and the groups of all in their order, each once.
Nothing else fits this.  Hence merging twice is merging once, and lists can be merged in
parts. -/
theorem merge_eq_grouping (parcels more : List Parcel) :
    (∀ merged, Grouped parcels merged ↔ merged = merge parcels) ∧
      merge (merge parcels) = merge parcels ∧
      merge (parcels ++ more) = merge (merge parcels ++ merge more) := by
  refine ⟨?_, ?_, ?_⟩
  · intro merged
    constructor
    · exact Grouped.eq_merge
    · rintro rfl
      exact grouped_merge parcels
  · have again := (grouped_merge_append parcels []).eq_merge
    rw [merge_nil, List.append_nil, List.append_nil] at again
    exact again.symm
  · exact (grouped_merge_append parcels more).eq_merge

end Parcel
end Consignment
