import Consignment.Proofs.Expansion.Merge
import Consignment.Proofs.Expansion.Parts

namespace Consignment

/-!
# Memberships in an expanded invoice

Behind the primary parcels stand the dependencies and the matched files.  A file of a
given content belongs to a group there for one of two reasons: the entry of the group
imports a handler whose closure has the file, or a pattern of the entry gives it.

The two kinds are merged apart, so that a membership could be lost or invented in either
merging, and the same file could come from both.  Merging keeps memberships, and the
comparison of names keeps the kinds apart.
-/

namespace ExpansionContext

variable {c : ExpansionContext}

/-- A pattern gives a file of a name and a content. -/
def PatternGivesFile (c : ExpansionContext) (pattern name digest : String) : Prop :=
  ∃ path bytes, c.PatternGives pattern path ∧ c.nameOf path = .ok name ∧
    c.disk.read path = .ok bytes ∧ Digest.ofBytes bytes = digest

namespace Parts

variable {manifest : Manifest} (parts : c.Parts manifest)

theorem length_primary : parts.primary.length = (manifest.matching c.values).length :=
  parts.primary_had.length_eq.symm

theorem memberGroups_of_mem_primary {p : Parcel} (mem : p ∈ parts.primary) :
    p.memberGroups = [] := by
  rcases Outcome.mem_of_forall₂ parts.primary_had mem with ⟨e, _, had⟩
  rcases primaryParcel_eq_ok.mp had with ⟨label, _, rfl⟩
  exact Parcel.memberGroups_requiring label e.role.groupName

/-- Dependencies and matched files have different names. -/
theorem name_ne_of_mem {p q : Parcel} (dependency : p ∈ parts.external)
    (file : q ∈ parts.matchedParcels) : p.label.name ≠ q.label.name := by
  intro same
  have clashing : p.label.name ∈ clashingNames parts.external parts.matchedParcels :=
    mem_clashingNames.mpr ⟨⟨p, dependency, rfl⟩, q, file, same.symm⟩
  rw [external, matchedParcels, parts.clash_free] at clashing
  exact absurd clashing List.not_mem_nil

theorem parcels_eq :
    parts.invoice.parcels = parts.primary ++ (parts.external ++ parts.matchedParcels) :=
  List.append_assoc _ _ _

theorem take_primary :
    parts.invoice.parcels.take (manifest.matching c.values).length = parts.primary := by
  rw [parts.parcels_eq, ← parts.length_primary, List.take_left]

/-- What stands behind the primary parcels. -/
theorem drop_primary :
    parts.invoice.parcels.drop (manifest.matching c.values).length =
      parts.external ++ parts.matchedParcels := by
  rw [parts.parcels_eq, ← parts.length_primary, List.drop_left]

/-- No primary parcel is a member of a group. -/
theorem mem_of_mem_members {group : String} {p : Parcel}
    (member : p ∈ parts.invoice.members group) : p ∈ parts.external ++ parts.matchedParcels := by
  rcases Invoice.mem_members.mp member with ⟨held, belongs⟩
  rw [parts.parcels_eq] at held
  rcases List.mem_append.mp held with primary | other
  · rw [parts.memberGroups_of_mem_primary primary] at belongs
    exact absurd belongs List.not_mem_nil
  · exact other

/-- The primary parcels stand in the order of the entries. -/
theorem exists_primary {i : Nat} {e : Entry} (entry : (manifest.matching c.values)[i]? = some e) :
    ∃ p, parts.invoice.parcels[i]? = some p ∧ c.primaryParcel e.role = .ok p := by
  rcases Outcome.exists_getElem?_of_forall₂ parts.primary_had entry with ⟨p, here, had⟩
  refine ⟨p, ?_, had⟩
  rw [parts.parcels_eq, List.getElem?_append_left (List.getElem?_eq_some_iff.mp here).1]
  exact here

/-- A file is in a group among the dependencies because the entry of the group imports it. -/
theorem dependency_member_iff (name digest group : String) :
    (∃ p ∈ parts.external,
        p.label.name = name ∧ p.label.sha256 = digest ∧ group ∈ p.memberGroups) ↔
      ∃ e ∈ manifest.matching c.values, e.role.groupName = group ∧
        ∃ q, c.DependsOnParcel e.role q ∧ q.label.name = name ∧ q.label.sha256 = digest := by
  rw [external, Parcel.exists_file_mem_merge_iff]
  constructor
  · rintro ⟨p, mem, named, content, belongs⟩
    rcases parts.mem_dependencies.mp mem with ⟨e, kept, q, depends, rfl⟩
    rw [Parcel.memberGroups_memberIn, List.mem_singleton] at belongs
    exact ⟨e, kept, belongs.symm, q, depends, named, content⟩
  · rintro ⟨e, kept, rfl, q, depends, named, content⟩
    refine ⟨_, parts.mem_dependencies.mpr ⟨e, kept, q, depends, rfl⟩, named, content, ?_⟩
    rw [Parcel.memberGroups_memberIn]
    exact List.mem_singleton_self _

/-- A file is in a group among the matched files because a pattern of the entry of the group
gives it. -/
theorem file_member_iff (name digest group : String) :
    (∃ p ∈ parts.matchedParcels,
        p.label.name = name ∧ p.label.sha256 = digest ∧ group ∈ p.memberGroups) ↔
      ∃ e ∈ manifest.matching c.values, e.role.groupName = group ∧
        ∃ pattern ∈ e.files.getD [], c.PatternGivesFile pattern name digest := by
  rw [matchedParcels, Parcel.exists_file_mem_merge_iff]
  constructor
  · rintro ⟨p, mem, named, content, belongs⟩
    rcases parts.mem_files.mp mem with ⟨e, kept, pattern, asked, path, gives, had⟩
    rcases fileParcel_eq_ok.mp had with ⟨label, labelled, rfl⟩
    rcases localLabel_eq_ok.mp labelled with ⟨bytes, _, read, relative, rfl⟩
    rw [Parcel.memberGroups_memberIn, List.mem_singleton] at belongs
    subst named
    exact ⟨e, kept, belongs.symm, pattern, asked, path, bytes, gives, relative, read, content⟩
  · rintro ⟨e, kept, rfl, pattern, asked, path, bytes, gives, relative, read, content⟩
    have had : c.fileParcel e.role path = .ok _ := fileParcel_eq_ok.mpr
      ⟨_, localLabel_eq_ok.mpr ⟨bytes, name, read, relative, rfl⟩, rfl⟩
    refine ⟨_, parts.mem_files.mpr ⟨e, kept, pattern, asked, path, gives, had⟩, rfl, content, ?_⟩
    rw [Parcel.memberGroups_memberIn]
    exact List.mem_singleton_self _

/-- A file is in a group behind the primary parcels because the entry of the group imports
it or because a pattern of the entry gives it. -/
theorem member_iff (name digest group : String) :
    (∃ p ∈ parts.external ++ parts.matchedParcels,
        p.label.name = name ∧ p.label.sha256 = digest ∧ group ∈ p.memberGroups) ↔
      (∃ e ∈ manifest.matching c.values, e.role.groupName = group ∧
        ∃ q, c.DependsOnParcel e.role q ∧ q.label.name = name ∧ q.label.sha256 = digest) ∨
      (∃ e ∈ manifest.matching c.values, e.role.groupName = group ∧
        ∃ pattern ∈ e.files.getD [], c.PatternGivesFile pattern name digest) := by
  simp only [List.mem_append, or_and_right, exists_or]
  exact or_congr (parts.dependency_member_iff name digest group)
    (parts.file_member_iff name digest group)

/-- No file stands twice behind the primary parcels. -/
theorem nodup_fileKey :
    ((parts.external ++ parts.matchedParcels).map Parcel.fileKey).Nodup := by
  rw [List.map_append, List.nodup_append]
  refine ⟨Parcel.nodup_fileKey_merge _, Parcel.nodup_fileKey_merge _, ?_⟩
  intro key dependency other file same
  rcases List.mem_map.mp dependency with ⟨p, held, rfl⟩
  rcases List.mem_map.mp file with ⟨q, matched, rfl⟩
  exact parts.name_ne_of_mem held matched (congrArg Prod.snd same)

theorem nodup_memberGroups {p : Parcel} (mem : p ∈ parts.invoice.parcels) :
    p.memberGroups.Nodup := by
  rcases List.mem_append.mp mem with front | file
  · rcases List.mem_append.mp front with primary | dependency
    · rw [parts.memberGroups_of_mem_primary primary]
      exact List.nodup_nil
    · exact Parcel.nodup_memberGroups_of_mem_merge dependency
  · exact Parcel.nodup_memberGroups_of_mem_merge file

end Parts

/-- Memberships behind the primary parcels are exactly those that imports and patterns
give; a file stands there once, and no parcel lists a group twice. -/
theorem memberships_of_expand {manifest : Manifest} {inv : Invoice}
    (expanded : (c.expand manifest).outcome = .ok inv) :
    (∀ name digest group,
      (∃ p ∈ inv.parcels.drop (manifest.matching c.values).length,
          p.label.name = name ∧ p.label.sha256 = digest ∧ group ∈ p.memberGroups) ↔
        (∃ e ∈ manifest.matching c.values, e.role.groupName = group ∧
          ∃ q, c.DependsOnParcel e.role q ∧ q.label.name = name ∧ q.label.sha256 = digest) ∨
        (∃ e ∈ manifest.matching c.values, e.role.groupName = group ∧
          ∃ pattern ∈ e.files.getD [], c.PatternGivesFile pattern name digest)) ∧
    ((inv.parcels.drop (manifest.matching c.values).length).map
      fun p => (p.label.sha256, p.label.name)).Nodup ∧
    ∀ p ∈ inv.parcels, p.memberGroups.Nodup := by
  rcases expand_eq_ok.mp expanded with ⟨parts, rfl⟩
  rw [parts.drop_primary]
  exact ⟨parts.member_iff, parts.nodup_fileKey, fun p mem => parts.nodup_memberGroups mem⟩

/-- A package with one handler and a style sheet that it requires. -/
def styles : Invoice where
  id := ⟨"styles", "1"⟩
  parcels := [
    ⟨⟨"static", "s", "", 0, none, some [(handlerIdKey, "all")]⟩, some ⟨none, some ["a"]⟩⟩,
    ⟨⟨"style.css", "x", "", 1, none, none⟩, some ⟨some ["a"], none⟩⟩]

/-- Two entries whose patterns match the same module, one of which imports the handler. -/
def weather : Manifest where
  packageName := "weather"
  packageVersion := "1"
  entries := [⟨.handler "m" "/", some ["*"], .always⟩,
    ⟨.imported ⟨styles.id, "all"⟩ "/s", some ["m", "*"], .always⟩]

/-- The module on a disk, and the package that is imported. -/
def weatherContext : ExpansionContext where
  base := ⟨.root, ["app"]⟩
  disk := { nodes := [(["app"], .directory), (["app", "m"], .file ⟨#[1, 2]⟩)] }
  versioning := .production
  stamp := ⟨⟨⟨2024, 1, 2⟩, 3, 4, 5, 6, none⟩, none⟩
  external := [(styles.id, styles)]

theorem memberships_of_expand_weather :
    ∃ inv, (weatherContext.expand weather).outcome = .ok inv ∧
      ∃ p ∈ inv.parcels.drop 2, p.label.name = "style.css" ∧ p.label.sha256 = "x" ∧
        "import:styles/1:all-at-/s-files" ∈ p.memberGroups := by
  have done : (weatherContext.expand weather).outcome.toBool = true := by decide +kernel
  rcases Outcome.exists_of_toBool done with ⟨inv, expanded⟩
  refine ⟨inv, expanded, ((memberships_of_expand expanded).1 _ _ _).mpr (Or.inl ?_)⟩
  exact ⟨_, List.mem_cons_of_mem _ List.mem_cons_self, rfl, _,
    ⟨⟨styles.id, "all"⟩, rfl, styles, _, _, rfl, rfl, rfl, List.mem_cons_self⟩, rfl, rfl⟩

end ExpansionContext
end Consignment
