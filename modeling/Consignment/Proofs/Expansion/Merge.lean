import Consignment.Merge
import Consignment.Proofs.Dependency.Reachability
import Mathlib.Data.List.Induction

namespace Consignment

/-!
# What merging leaves

Merged parcels are the first ones of each content and name, in their order.  Each of them
keeps its label and what it requires, and belongs to the groups of all parcels of the same
content and name, each group once.

`merge_eq` says this as an equation between the parcels that are merged one after the
other and the groups of parcels read off the whole list.  What the expansion needs of
merging follows from it: no file is listed twice, and no membership is lost or invented.
-/

/-- An item at the end is kept if no earlier one has its key. -/
theorem distinctBy_append_singleton {α β : Type} [DecidableEq β] (key : α → β) (items : List α)
    (last : α) :
    distinctBy key (items ++ [last]) =
      distinctBy key items ++ if ∃ a ∈ items, key a = key last then [] else [last] := by
  induction items with
  | nil => simp [distinctBy]
  | cons first rest ih =>
    rw [List.cons_append, distinctBy, ih, List.filter_append, distinctBy, List.cons_append]
    congr 2
    by_cases same : key first = key last
    · have found : ∃ a ∈ first :: rest, key a = key last := ⟨first, List.mem_cons_self, same⟩
      rw [if_pos found]
      split <;> simp [same]
    · have others : (∃ a ∈ first :: rest, key a = key last) ↔ ∃ a ∈ rest, key a = key last := by
        simp [same]
      simp only [others]
      split
      · rfl
      · simp [Ne.symm same]

theorem eraseDups_eq_self {α : Type} [BEq α] [LawfulBEq α] {items : List α} (nodup : items.Nodup) :
    items.eraseDups = items := by
  induction items with
  | nil => rfl
  | cons item rest ih =>
    rcases List.nodup_cons.mp nodup with ⟨fresh, later⟩
    have kept : (rest.filter fun other => !other == item) = rest := by
      rw [List.filter_eq_self]
      intro other mem
      have differs : other ≠ item := fun same => fresh (same ▸ mem)
      simpa using differs
    rw [List.eraseDups_cons, kept, ih later]

/-- Items that are already distinct can be joined with others. -/
theorem eraseDups_eraseDups_append {α : Type} [BEq α] [LawfulBEq α] (first second : List α) :
    (first.eraseDups ++ second).eraseDups = (first ++ second).eraseDups := by
  rw [List.eraseDups_append, List.eraseDups_append, eraseDups_eq_self (nodup_eraseDups first)]
  congr 2
  apply List.filter_congr
  intro item _
  simp

namespace Parcel

/-- What merging compares. -/
def fileKey (p : Parcel) : String × String :=
  (p.label.sha256, p.label.name)

theorem sameFile_iff {p q : Parcel} : p.sameFile q = true ↔ p.fileKey = q.fileKey := by
  simp [sameFile, fileKey]

@[simp] theorem memberGroups_withMembers (p : Parcel) (groups : List String) :
    (p.withMembers groups).memberGroups = groups.eraseDups := by
  unfold memberGroups withMembers
  cases found : groups.eraseDups with
  | nil => simp
  | cons group others => simp

theorem withMembers_withMembers (p : Parcel) (first second : List String) :
    (p.withMembers first).withMembers second = p.withMembers second := rfl

/-- Only the distinct groups count. -/
theorem withMembers_eraseDups_append (p : Parcel) (first second : List String) :
    p.withMembers (first.eraseDups ++ second) = p.withMembers (first ++ second) := by
  unfold withMembers
  rw [eraseDups_eraseDups_append]

/-! ## Merging one more parcel -/

theorem mergeInto_eq_append {p : Parcel} {done : List Parcel}
    (fresh : ∀ q ∈ done, q.fileKey ≠ p.fileKey) :
    mergeInto p done = done ++ [p.withMembers p.memberGroups] := by
  induction done with
  | nil => rfl
  | cons q rest ih =>
    have other : ¬ q.sameFile p = true := fun same =>
      fresh q List.mem_cons_self (sameFile_iff.mp same)
    rw [mergeInto, if_neg other, ih fun r mem => fresh r (List.mem_cons_of_mem _ mem)]
    rfl

theorem mergeInto_eq_map {p : Parcel} {done : List Parcel}
    (distinct : (done.map fileKey).Nodup) (known : ∃ q ∈ done, q.fileKey = p.fileKey) :
    mergeInto p done = done.map fun q =>
      if q.fileKey = p.fileKey then q.withMembers (q.memberGroups ++ p.memberGroups) else q := by
  induction done with
  | nil => exact absurd known (by simp)
  | cons q rest ih =>
    rw [List.map_cons, List.nodup_cons] at distinct
    by_cases same : q.fileKey = p.fileKey
    · -- no later parcel has the key, so the rest stays as it is
      have others : ∀ r ∈ rest, (if r.fileKey = p.fileKey then
          r.withMembers (r.memberGroups ++ p.memberGroups) else r) = id r := by
        intro r mem
        have differs : r.fileKey ≠ p.fileKey := fun equal =>
          distinct.1 (List.mem_map.mpr ⟨r, mem, equal.trans same.symm⟩)
        rw [if_neg differs, id]
      rw [mergeInto, if_pos (sameFile_iff.mpr same), List.map_cons, if_pos same,
        List.map_congr_left others, List.map_id]
    · have later : ∃ r ∈ rest, r.fileKey = p.fileKey := by
        rcases known with ⟨r, mem, equal⟩
        rcases List.mem_cons.mp mem with rfl | mem
        · exact absurd equal same
        · exact ⟨r, mem, equal⟩
      have other : ¬ q.sameFile p = true := fun equal => same (sameFile_iff.mp equal)
      rw [mergeInto, if_neg other, ih distinct.2 later, List.map_cons, if_neg same]

/-! ## Merging them all -/

/-- The groups of all parcels that are the same file as a parcel. -/
def groupsOf (parcels : List Parcel) (p : Parcel) : List String :=
  (parcels.filter fun q => q.fileKey = p.fileKey).flatMap memberGroups

theorem mem_groupsOf {parcels : List Parcel} {p : Parcel} {group : String} :
    group ∈ groupsOf parcels p ↔
      ∃ q ∈ parcels, q.fileKey = p.fileKey ∧ group ∈ q.memberGroups := by
  simp [groupsOf, and_assoc]

theorem groupsOf_append_singleton (parcels : List Parcel) (last p : Parcel) :
    groupsOf (parcels ++ [last]) p =
      groupsOf parcels p ++ if last.fileKey = p.fileKey then last.memberGroups else [] := by
  unfold groupsOf
  rw [List.filter_append, List.flatMap_append]
  congr 1
  split <;> simp [*]

/-- Of the parcels that are the same file, one is first. -/
theorem exists_first_of_mem {parcels : List Parcel} {p : Parcel} (mem : p ∈ parcels) :
    ∃ first ∈ distinctBy fileKey parcels, first.fileKey = p.fileKey :=
  exists_mem_distinctBy mem

theorem nodup_fileKey_distinctBy (parcels : List Parcel) :
    ((distinctBy fileKey parcels).map fileKey).Nodup :=
  List.pairwise_map.mpr (pairwise_distinctBy fileKey parcels)

theorem map_fileKey_withMembers (parcels : List Parcel) (groups : Parcel → List String) :
    (parcels.map fun p => p.withMembers (groups p)).map fileKey = parcels.map fileKey := by
  rw [List.map_map]
  rfl

/-- Merging keeps the first parcel of each file and gives it the groups of all of them. -/
theorem merge_eq (parcels : List Parcel) :
    merge parcels =
      (distinctBy fileKey parcels).map fun p => p.withMembers (groupsOf parcels p) := by
  induction parcels using List.reverseRecOn with
  | nil => rfl
  | append_singleton parcels last ih =>
    have step : merge (parcels ++ [last]) = mergeInto last (merge parcels) := by
      rw [merge_append]
      rfl
    rw [step, ih, distinctBy_append_singleton]
    split
    · rename_i known
      rcases known with ⟨p, mem, same⟩
      rcases exists_first_of_mem mem with ⟨first, kept, equal⟩
      rw [mergeInto_eq_map (by rw [map_fileKey_withMembers]; exact nodup_fileKey_distinctBy _)
        ⟨_, List.mem_map_of_mem kept, equal.trans same⟩, List.append_nil, List.map_map]
      apply List.map_congr_left
      intro q _
      rw [Function.comp_apply, groupsOf_append_singleton]
      by_cases here : (q.withMembers (groupsOf parcels q)).fileKey = last.fileKey
      · have there : last.fileKey = q.fileKey := here.symm
        rw [if_pos here, if_pos there, withMembers_withMembers, memberGroups_withMembers,
          withMembers_eraseDups_append]
      · have there : last.fileKey ≠ q.fileKey := fun same => here same.symm
        rw [if_neg here, if_neg there, List.append_nil]
    · rename_i fresh
      have unknown : ∀ q ∈ parcels, q.fileKey ≠ last.fileKey := fun q mem same =>
        fresh ⟨q, mem, same⟩
      have alone : groupsOf parcels last = [] := by
        apply List.flatMap_eq_nil_iff.mpr
        intro q mem
        rcases List.mem_filter.mp mem with ⟨held, same⟩
        exact absurd (of_decide_eq_true same) (unknown q held)
      rw [mergeInto_eq_append, List.map_append, List.map_singleton, groupsOf_append_singleton,
        if_pos rfl, alone, List.nil_append]
      · congr 1
        apply List.map_congr_left
        intro q mem
        have differs := unknown q (mem_of_mem_distinctBy mem)
        rw [groupsOf_append_singleton, if_neg (Ne.symm differs), List.append_nil]
      · intro q mem
        rcases List.mem_map.mp mem with ⟨r, kept, rfl⟩
        exact unknown r (mem_of_mem_distinctBy kept)

/-! ## What follows for members -/

/-- No file is listed twice. -/
theorem nodup_fileKey_merge (parcels : List Parcel) : ((merge parcels).map fileKey).Nodup := by
  rw [merge_eq, map_fileKey_withMembers]
  exact nodup_fileKey_distinctBy _

/-- A merged parcel is one that was merged, with the groups of all that are the same file. -/
theorem exists_eq_withMembers_of_mem_merge {parcels : List Parcel} {p : Parcel}
    (mem : p ∈ merge parcels) : ∃ q ∈ parcels, p = q.withMembers (groupsOf parcels q) := by
  rw [merge_eq] at mem
  rcases List.mem_map.mp mem with ⟨q, kept, rfl⟩
  exact ⟨q, mem_of_mem_distinctBy kept, rfl⟩

/-- No group is listed twice. -/
theorem nodup_memberGroups_of_mem_merge {parcels : List Parcel} {p : Parcel}
    (mem : p ∈ merge parcels) : p.memberGroups.Nodup := by
  rcases exists_eq_withMembers_of_mem_merge mem with ⟨q, _, rfl⟩
  rw [memberGroups_withMembers]
  exact nodup_eraseDups _

theorem memberGroups_subset_groupsOf {parcels : List Parcel} {p : Parcel} (mem : p ∈ parcels) :
    p.memberGroups ⊆ groupsOf parcels p :=
  fun _ belongs => mem_groupsOf.mpr ⟨p, mem, rfl, belongs⟩

/-- A merged parcel has the label of one that was merged, and its groups. -/
theorem exists_of_mem_merge {parcels : List Parcel} {p : Parcel} (mem : p ∈ merge parcels) :
    ∃ q ∈ parcels, p.label = q.label ∧ q.memberGroups ⊆ p.memberGroups := by
  rcases exists_eq_withMembers_of_mem_merge mem with ⟨q, held, rfl⟩
  refine ⟨q, held, rfl, ?_⟩
  intro group belongs
  rw [memberGroups_withMembers, List.mem_eraseDups]
  exact memberGroups_subset_groupsOf held belongs

/-- A file belongs to a group after merging exactly when some parcel of the file did
before. -/
theorem exists_mem_merge_iff {parcels : List Parcel} {key : String × String} {group : String} :
    (∃ p ∈ merge parcels, p.fileKey = key ∧ group ∈ p.memberGroups) ↔
      ∃ p ∈ parcels, p.fileKey = key ∧ group ∈ p.memberGroups := by
  rw [merge_eq]
  constructor
  · rintro ⟨p, mem, same, belongs⟩
    rcases List.mem_map.mp mem with ⟨q, _, rfl⟩
    rw [memberGroups_withMembers, List.mem_eraseDups, mem_groupsOf] at belongs
    rcases belongs with ⟨r, held, equal, inGroup⟩
    exact ⟨r, held, equal.trans same, inGroup⟩
  · rintro ⟨p, held, same, belongs⟩
    rcases exists_first_of_mem held with ⟨first, kept, equal⟩
    refine ⟨_, List.mem_map_of_mem kept, equal.trans same, ?_⟩
    rw [memberGroups_withMembers, List.mem_eraseDups, mem_groupsOf]
    exact ⟨p, held, equal.symm, belongs⟩

/-- The same with the digest and the name of the file apart. -/
theorem exists_file_mem_merge_iff {parcels : List Parcel} {name digest group : String} :
    (∃ p ∈ merge parcels,
        p.label.name = name ∧ p.label.sha256 = digest ∧ group ∈ p.memberGroups) ↔
      ∃ p ∈ parcels, p.label.name = name ∧ p.label.sha256 = digest ∧ group ∈ p.memberGroups := by
  have merged : (∃ p ∈ merge parcels, p.fileKey = (digest, name) ∧ group ∈ p.memberGroups) ↔
      ∃ p ∈ parcels, p.fileKey = (digest, name) ∧ group ∈ p.memberGroups :=
    exists_mem_merge_iff
  simpa only [fileKey, Prod.mk.injEq, and_assoc, and_left_comm] using merged

end Parcel
end Consignment
