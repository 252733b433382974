import Consignment.Proofs.Expansion.Contents
import Consignment.Proofs.Expansion.Membership

namespace Consignment

/-!
# The groups of an invoice and the parcels that name them

An expanded invoice declares a group for each entry, and its parcels name no other groups.
The module of an entry requires the entry's group and belongs to none.  Every other parcel
belongs to some of the groups and requires none, so that one step leads to it from the
module of an entry.

The conditions of foreign parcels never get into the invoice, but merging puts conditions
together anew.  `OnlyMemberOf` is the shape that all parcels behind the modules have, and
merging keeps it.

Content of other packages is marked as not staged.  Behind the modules the mark tells
dependencies from matched files: the names of the two kinds are different, so that a parcel
with the name and the content of a dependency is one.
-/

namespace Parcel

/-- A parcel that belongs to at least one of the named groups and to no others, and that
requires none. -/
def OnlyMemberOf (names : List String) (p : Parcel) : Prop :=
  ∃ groups, p.conditions = some ⟨some groups, none⟩ ∧ groups ≠ [] ∧ groups ⊆ names

theorem OnlyMemberOf.memberGroups_subset {names : List String} {p : Parcel}
    (only : p.OnlyMemberOf names) : p.memberGroups ⊆ names := by
  rcases only with ⟨groups, conditions, _, known⟩
  simpa [memberGroups, conditions] using known

theorem OnlyMemberOf.requiredGroups_eq_nil {names : List String} {p : Parcel}
    (only : p.OnlyMemberOf names) : p.requiredGroups = [] := by
  rcases only with ⟨groups, conditions, _, _⟩
  simp [requiredGroups, conditions]

theorem OnlyMemberOf.exists_memberGroup {names : List String} {p : Parcel}
    (only : p.OnlyMemberOf names) : ∃ group, group ∈ p.memberGroups := by
  rcases only with ⟨groups, conditions, some, _⟩
  rcases List.exists_mem_of_ne_nil groups some with ⟨group, mem⟩
  exact ⟨group, by simpa [memberGroups, conditions] using mem⟩

theorem onlyMemberOf_memberIn {names : List String} {role : Role} (label : Label)
    (named : role.groupName ∈ names) : (memberIn label role.groupName).OnlyMemberOf names := by
  refine ⟨[role.groupName], ?_, List.cons_ne_nil _ _, ?_⟩
  · simp [memberIn, role.isEmpty_groupName]
  · simpa using named

theorem eraseDups_ne_nil {groups : List String} (some : groups ≠ []) : groups.eraseDups ≠ [] := by
  rcases List.exists_mem_of_ne_nil groups some with ⟨group, mem⟩
  exact List.ne_nil_of_mem (List.mem_eraseDups.mpr mem)

theorem conditions_withMembers_of_ne_nil {p : Parcel} {groups : List String} (some : groups ≠ []) :
    (p.withMembers groups).conditions =
      .some ⟨.some groups.eraseDups, p.conditions.bind Membership.requires⟩ := by
  have kept : groups.eraseDups.isEmpty = false :=
    List.isEmpty_eq_false_iff.mpr (eraseDups_ne_nil some)
  simp [withMembers, kept]

/-- Merging adds memberships of other parcels and no requirement. -/
theorem OnlyMemberOf.of_mem_merge {names : List String} {parcels : List Parcel}
    (each : ∀ q ∈ parcels, q.OnlyMemberOf names) {p : Parcel} (mem : p ∈ merge parcels) :
    p.OnlyMemberOf names := by
  rcases exists_eq_withMembers_of_mem_merge mem with ⟨q, held, rfl⟩
  rcases (each q held).exists_memberGroup with ⟨group, belongs⟩
  have some : groupsOf parcels q ≠ [] :=
    List.ne_nil_of_mem (memberGroups_subset_groupsOf held belongs)
  have free : q.conditions.bind Membership.requires = none := by
    rcases each q held with ⟨groups, conditions, _, _⟩
    rw [conditions]
    rfl
  refine ⟨(groupsOf parcels q).eraseDups, ?_, eraseDups_ne_nil some, ?_⟩
  · rw [conditions_withMembers_of_ne_nil some, free]
  · intro other listed
    rcases mem_groupsOf.mp (List.mem_eraseDups.mp listed) with ⟨r, inParcels, _, belongs⟩
    exact (each r inParcels).memberGroups_subset belongs

end Parcel

namespace ExpansionContext

variable {c : ExpansionContext}

theorem isReference_of_primaryParcel {role : Role} {p : Parcel}
    (had : c.primaryParcel role = .ok p) : p.isReference = true ↔ ∃ ref, role.external? = some ref := by
  rcases primaryParcel_eq_ok.mp had with ⟨label, labelled, rfl⟩
  have own := annotations_of_primaryLabel labelled
  cases role <;>
    simp [Parcel.isReference, Label.hasAnnotation, Label.annotation?, own, Role.annotations,
      Role.external?, doNotStageKey, handlerIdKey]

theorem conditions_of_primaryParcel {role : Role} {p : Parcel}
    (had : c.primaryParcel role = .ok p) : p.conditions = some ⟨none, some [role.groupName]⟩ := by
  rcases primaryParcel_eq_ok.mp had with ⟨label, _, rfl⟩
  simp [Parcel.requiring, role.isEmpty_groupName]

/-- What ties the parcels of an invoice to its groups, to the entries and to other packages. -/
structure Integrity (c : ExpansionContext) (manifest : Manifest) (inv : Invoice) : Prop where
  /-- One group for each entry. -/
  groups : inv.groups = (manifest.matching c.values).map (·.role.groupName)
  /-- One primary parcel for each entry, which requires the entry's group. -/
  primary : ∀ (i : Nat) (e : Entry), (manifest.matching c.values)[i]? = some e →
    ∃ p, inv.parcels[i]? = some p ∧ c.primaryParcel e.role = .ok p ∧
      p.conditions = some ⟨none, some [e.role.groupName]⟩ ∧
      (p.isReference = true ↔ ∃ ref, e.role.external? = some ref)
  /-- Every other parcel belongs to groups, each declared and required by an entry's module. -/
  others : ∀ p ∈ inv.parcels.drop (manifest.matching c.values).length,
    ∃ groups, p.conditions = some ⟨some groups, none⟩ ∧ groups ≠ [] ∧
      ∀ group ∈ groups, group ∈ inv.groups ∧
        ∃ q ∈ inv.parcels.take (manifest.matching c.values).length, group ∈ q.requiredGroups
  /-- No parcel names a group that is not declared. -/
  declared : ∀ p ∈ inv.parcels, ∀ group,
    group ∈ p.memberGroups ∨ group ∈ p.requiredGroups → group ∈ inv.groups
  /-- Whoever takes the modules of the entries with what they require takes every parcel. -/
  reached : ∀ p ∈ inv.parcels.drop (manifest.matching c.values).length,
    ∃ q ∈ inv.parcels.take (manifest.matching c.values).length,
      ∃ group, inv.DependsOn q group ∧ group ∈ p.memberGroups
  /-- Behind the modules, what is not staged is what comes from another package. -/
  references : ∀ p ∈ inv.parcels.drop (manifest.matching c.values).length,
    p.isReference = true ↔ ∃ e ∈ manifest.matching c.values, ∃ q, c.DependsOnParcel e.role q ∧
      q.label.name = p.label.name ∧ q.label.sha256 = p.label.sha256

namespace Parts

variable {manifest : Manifest} (parts : c.Parts manifest)

theorem groupName_mem_groups {e : Entry} (kept : e ∈ manifest.matching c.values) :
    e.role.groupName ∈ parts.invoice.groups :=
  List.mem_map_of_mem kept

theorem onlyMemberOf_of_mem {p : Parcel} (mem : p ∈ parts.external ++ parts.matchedParcels) :
    p.OnlyMemberOf parts.invoice.groups := by
  rcases List.mem_append.mp mem with dependency | file
  · refine Parcel.OnlyMemberOf.of_mem_merge ?_ dependency
    intro q held
    rcases parts.mem_dependencies.mp held with ⟨e, kept, r, _, rfl⟩
    exact Parcel.onlyMemberOf_memberIn _ (parts.groupName_mem_groups kept)
  · refine Parcel.OnlyMemberOf.of_mem_merge ?_ file
    intro q held
    rcases parts.mem_files.mp held with ⟨e, kept, pattern, _, path, _, had⟩
    rcases fileParcel_eq_ok.mp had with ⟨label, _, rfl⟩
    exact Parcel.onlyMemberOf_memberIn _ (parts.groupName_mem_groups kept)

theorem exists_primary_requiring {group : String} (declared : group ∈ parts.invoice.groups) :
    ∃ q ∈ parts.primary, group ∈ q.requiredGroups := by
  rcases List.mem_map.mp declared with ⟨e, kept, rfl⟩
  rcases Outcome.exists_mem_of_forall₂ parts.primary_had kept with ⟨q, held, had⟩
  exact ⟨q, held, by simp [Parcel.requiredGroups, conditions_of_primaryParcel had]⟩

theorem isReference_of_mem_external {p : Parcel} (mem : p ∈ parts.external) :
    p.isReference = true := by
  rcases parts.exists_of_mem_external mem with ⟨_, _, q, _, marked, _⟩
  exact Parcel.isReference_markedDoNotStage marked

theorem annotations_of_mem_matchedParcels {p : Parcel} (mem : p ∈ parts.matchedParcels) :
    p.label.annotations = none := by
  rcases parts.exists_of_mem_matchedParcels mem with ⟨_, _, _, _, _, _, labelled, _⟩
  rcases localLabel_eq_ok.mp labelled with ⟨_, _, _, _, label⟩
  rw [label]

theorem isReference_of_mem_matchedParcels {p : Parcel} (mem : p ∈ parts.matchedParcels) :
    p.isReference = false := by
  simp [Parcel.isReference, Label.hasAnnotation, Label.annotation?,
    parts.annotations_of_mem_matchedParcels mem]

/-- What an entry depends on is a member of its group. -/
theorem exists_member_of_dependsOnParcel {e : Entry} (kept : e ∈ manifest.matching c.values)
    {q : Parcel} (depends : c.DependsOnParcel e.role q) :
    ∃ p ∈ parts.invoice.members e.role.groupName, p.isReference = true ∧
      p.label.name = q.label.name ∧ p.label.sha256 = q.label.sha256 := by
  rcases (parts.dependency_member_iff q.label.name q.label.sha256 e.role.groupName).mpr
    ⟨e, kept, rfl, q, depends, rfl, rfl⟩ with ⟨p, held, named, content, belongs⟩
  have inInvoice : p ∈ parts.invoice.parcels := by
    rw [parts.parcels_eq]
    exact List.mem_append_right _ (List.mem_append_left _ held)
  exact ⟨p, Invoice.mem_members.mpr ⟨inInvoice, belongs⟩,
    parts.isReference_of_mem_external held, named, content⟩

/-- The names of dependencies are none of matched files, so that name and content tell a
dependency. -/
theorem isReference_iff {p : Parcel} (mem : p ∈ parts.external ++ parts.matchedParcels) :
    p.isReference = true ↔ ∃ e ∈ manifest.matching c.values, ∃ q, c.DependsOnParcel e.role q ∧
      q.label.name = p.label.name ∧ q.label.sha256 = p.label.sha256 := by
  rcases List.mem_append.mp mem with dependency | file
  · have marked := parts.isReference_of_mem_external dependency
    rcases parts.exists_of_mem_external dependency with ⟨e, kept, q, depends, label, _⟩
    have foreign : q.label.name = p.label.name ∧ q.label.sha256 = p.label.sha256 := by
      rw [label]
      exact ⟨rfl, rfl⟩
    exact ⟨fun _ => ⟨e, kept, q, depends, foreign⟩, fun _ => marked⟩
  · have own := parts.isReference_of_mem_matchedParcels file
    constructor
    · intro marked
      rw [own] at marked
      exact absurd marked Bool.false_ne_true
    · rintro ⟨e, kept, q, depends, named, content⟩
      rcases (parts.dependency_member_iff _ _ _).mpr ⟨e, kept, rfl, q, depends, named, content⟩ with
        ⟨other, dependency, same, _⟩
      exact absurd same (parts.name_ne_of_mem dependency file)

theorem declared_of_mem {p : Parcel} (mem : p ∈ parts.invoice.parcels) {group : String}
    (named : group ∈ p.memberGroups ∨ group ∈ p.requiredGroups) : group ∈ parts.invoice.groups := by
  rw [parts.parcels_eq] at mem
  rcases List.mem_append.mp mem with primary | other
  · rcases Outcome.mem_of_forall₂ parts.primary_had primary with ⟨e, kept, had⟩
    have own : group = e.role.groupName := by
      simpa [Parcel.memberGroups, Parcel.requiredGroups, conditions_of_primaryParcel had] using named
    exact own ▸ parts.groupName_mem_groups kept
  · have only := parts.onlyMemberOf_of_mem other
    rcases named with belongs | required
    · exact only.memberGroups_subset belongs
    · rw [only.requiredGroups_eq_nil] at required
      exact absurd required List.not_mem_nil

end Parts

/-- In every expanded invoice, parcels and groups fit together. -/
theorem integrity_of_expand {manifest : Manifest} {inv : Invoice}
    (expanded : (c.expand manifest).outcome = .ok inv) : c.Integrity manifest inv := by
  rcases expand_eq_ok.mp expanded with ⟨parts, rfl⟩
  refine ⟨rfl, ?primary, ?others, ?declared, ?reached, ?references⟩
  case primary =>
    intro i e entry
    rcases parts.exists_primary entry with ⟨p, here, had⟩
    exact ⟨p, here, had, conditions_of_primaryParcel had, isReference_of_primaryParcel had⟩
  case others =>
    intro p behind
    rw [parts.drop_primary] at behind
    rcases parts.onlyMemberOf_of_mem behind with ⟨groups, conditions, some, known⟩
    refine ⟨groups, conditions, some, ?_⟩
    intro group listed
    rw [parts.take_primary]
    exact ⟨known listed, parts.exists_primary_requiring (known listed)⟩
  case declared => exact fun p mem group named => parts.declared_of_mem mem named
  case reached =>
    intro p behind
    rw [parts.drop_primary] at behind
    rw [parts.take_primary]
    have only := parts.onlyMemberOf_of_mem behind
    rcases only.exists_memberGroup with ⟨group, belongs⟩
    -- one step is enough: a group that is declared is required by a module
    rcases parts.exists_primary_requiring (only.memberGroups_subset belongs) with ⟨q, held, required⟩
    exact ⟨q, held, group, .required required, belongs⟩
  case references =>
    intro p behind
    rw [parts.drop_primary] at behind
    exact parts.isReference_iff behind

theorem integrity_of_expand_weather :
    ∃ inv, (weatherContext.expand weather).outcome = .ok inv ∧
      weatherContext.Integrity weather inv := by
  have done : (weatherContext.expand weather).outcome.toBool = true := by decide +kernel
  rcases Outcome.exists_of_toBool done with ⟨inv, expanded⟩
  exact ⟨inv, expanded, integrity_of_expand expanded⟩

end ExpansionContext
end Consignment
