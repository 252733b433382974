import Consignment.Proofs.Expansion.Integrity

namespace Consignment

/-!
# What can be imported from an expanded invoice

The id under which a parcel can be imported is an annotation of its label.  The module of an
export gets it, and a matched file has no annotations.  A dependency keeps the annotations
that it has in the package it comes from: if it is a handler there, it can be imported from
the new invoice too, without being exported and without anything that it required.

Primary parcels come first, so an export is always found before such a dependency, and the
first export of an id is the one that is found.
-/

def Role.exportId? : Role → Option String
  | .exported _ exportId => some exportId
  | _ => none

namespace Parcel

theorem handlerId?_markedDoNotStage {p q : Parcel} (marked : p.label = q.label.markedDoNotStage) :
    p.handlerId? = q.handlerId? := by
  have other : handlerIdKey ≠ doNotStageKey := by decide
  have kept := TextMap.lookup_put_of_ne other "true" (q.label.annotations.getD [])
  simpa [handlerId?, Label.annotation?, marked, Label.markedDoNotStage] using kept

/-- Among merged parcels, the one to be imported is looked for among the first of each
file. -/
theorem find?_merge (parcels : List Parcel) (handlerId : String) :
    (merge parcels).find? (·.handlerId? == some handlerId) =
      ((distinctBy fileKey parcels).find? (·.handlerId? == some handlerId)).map
        fun p => p.withMembers (groupsOf parcels p) := by
  rw [merge_eq, List.find?_map]
  rfl

end Parcel

namespace ExpansionContext

variable {c : ExpansionContext}

theorem handlerId?_of_primaryParcel {role : Role} {p : Parcel}
    (had : c.primaryParcel role = .ok p) : p.handlerId? = role.exportId? := by
  rcases primaryParcel_eq_ok.mp had with ⟨label, labelled, rfl⟩
  have own := annotations_of_primaryLabel labelled
  cases role <;> simp [Parcel.handlerId?, Label.annotation?, own, Role.annotations, Role.exportId?,
    handlerIdKey, doNotStageKey]

/-- The dependencies of the entries that take part, entry by entry. -/
def importedDependencies (c : ExpansionContext) (manifest : Manifest) : List Parcel :=
  (manifest.matching c.values).flatMap fun e =>
    ((c.dependencyParcels e.role).outcome.toOption).getD []

namespace Parts

variable {manifest : Manifest} (parts : c.Parts manifest)

theorem flatten_dependencies : parts.dependencies.flatten = c.importedDependencies manifest := by
  have read {entries : List Entry} {found : List (List Parcel)}
      (each : List.Forall₂ (fun e ps => (c.dependencyParcels e.role).outcome = .ok ps) entries found) :
      found.flatten = entries.flatMap fun e =>
        ((c.dependencyParcels e.role).outcome.toOption).getD [] := by
    induction each with
    | nil => rfl
    | cons first _ ih =>
      rw [List.flatten_cons, List.flatMap_cons, ih, first]
      rfl
  exact read parts.dependencies_had

/-- The module of an export, or else a dependency. -/
theorem handler?_eq (handlerId : String) :
    parts.invoice.handler? handlerId =
      (parts.primary.find? (·.handlerId? == some handlerId)).or
        (parts.external.find? (·.handlerId? == some handlerId)) := by
  have plain : parts.matchedParcels.find? (·.handlerId? == some handlerId) = none := by
    rw [List.find?_eq_none]
    intro p file
    simp [Parcel.handlerId?, Label.annotation?, parts.annotations_of_mem_matchedParcels file]
  rw [Invoice.handler?, parts.parcels_eq, List.find?_append, List.find?_append, plain, Option.or_none]

theorem rel_find?_primary (handlerId : String) :
    Option.Rel (fun e p => c.primaryParcel e.role = .ok p)
      ((manifest.matching c.values).find? (·.role.exportId? == some handlerId))
      (parts.primary.find? (·.handlerId? == some handlerId)) := by
  apply Outcome.rel_find?_of_forall₂ parts.primary_had
  intro e p had
  rw [handlerId?_of_primaryParcel had]

/-- Under the id of an export the module of the first such export is found. -/
theorem exists_handler?_of_export {handlerId : String} {e : Entry}
    (first : (manifest.matching c.values).find? (·.role.exportId? == some handlerId) = some e) :
    ∃ p, c.primaryParcel e.role = .ok p ∧ parts.invoice.handler? handlerId = some p := by
  have exports := parts.rel_find?_primary handlerId
  rw [first] at exports
  rw [parts.handler?_eq]
  cases found : parts.primary.find? (·.handlerId? == some handlerId) with
  | none =>
    rw [found] at exports
    cases exports
  | some p =>
    rw [found] at exports
    cases exports with
    | some had => exact ⟨p, had, rfl⟩

/-- Under any other id a dependency may be found. -/
theorem handler?_of_unexported {handlerId : String}
    (unexported : ∀ e ∈ manifest.matching c.values, e.role.exportId? ≠ some handlerId) :
    parts.invoice.handler? handlerId =
      parts.external.find? (·.handlerId? == some handlerId) := by
  have exports := parts.rel_find?_primary handlerId
  have none : (manifest.matching c.values).find? (·.role.exportId? == some handlerId) = none := by
    rw [List.find?_eq_none]
    intro e kept
    simpa using unexported e kept
  rw [none] at exports
  rw [parts.handler?_eq]
  cases found : parts.primary.find? (·.handlerId? == some handlerId) with
  | some p =>
    rw [found] at exports
    cases exports
  | none => exact Option.none_or

theorem find?_external_eq_none_iff (handlerId : String) :
    parts.external.find? (·.handlerId? == some handlerId) = none ↔
      ∀ q ∈ distinctBy Parcel.fileKey (c.importedDependencies manifest),
        q.handlerId? ≠ some handlerId := by
  rw [external, Parcel.find?_merge, parts.flatten_dependencies, Option.map_eq_none_iff,
    List.find?_eq_none]
  simp

end Parts

/-- Under the id of an export the module of the first such export is found.  Under any other
id nothing is found exactly if no dependency, first of its content and name, has the id in
the package it comes from; what is found otherwise is such a dependency, without what it
required. -/
theorem handler?_of_expand {manifest : Manifest} {inv : Invoice}
    (expanded : (c.expand manifest).outcome = .ok inv) (handlerId : String) :
    (∀ e, (manifest.matching c.values).find? (·.role.exportId? == some handlerId) = some e →
      ∃ p, c.primaryParcel e.role = .ok p ∧ inv.handler? handlerId = some p) ∧
    ((∀ e ∈ manifest.matching c.values, e.role.exportId? ≠ some handlerId) →
      (inv.handler? handlerId = none ↔
        ∀ q ∈ distinctBy Parcel.fileKey (c.importedDependencies manifest),
          q.handlerId? ≠ some handlerId) ∧
      ∀ p, inv.handler? handlerId = some p →
        p.isReference = true ∧ p.requiredGroups = [] ∧
          ∃ e ∈ manifest.matching c.values, ∃ q, c.DependsOnParcel e.role q ∧
            q.handlerId? = some handlerId ∧ p.label = q.label.markedDoNotStage) := by
  rcases expand_eq_ok.mp expanded with ⟨parts, rfl⟩
  refine ⟨fun e first => parts.exists_handler?_of_export first, ?_⟩
  intro unexported
  rw [parts.handler?_of_unexported unexported]
  refine ⟨parts.find?_external_eq_none_iff handlerId, ?_⟩
  intro p found
  have mem : p ∈ parts.external := List.mem_of_find?_eq_some found
  have carried : p.handlerId? = some handlerId := by simpa using List.find?_some found
  have only := parts.onlyMemberOf_of_mem (List.mem_append_left _ mem)
  rcases parts.exists_of_mem_external mem with ⟨e, kept, q, depends, label, _⟩
  have same := Parcel.handlerId?_markedDoNotStage label
  exact ⟨parts.isReference_of_mem_external mem, only.requiredGroups_eq_nil,
    e, kept, q, depends, same.symm.trans carried, label⟩

/-- A package with two handlers, one of which is a dependency of the other and has a
dependency of its own. -/
def themes : Invoice where
  id := ⟨"themes", "1"⟩
  parcels := [
    ⟨⟨"static", "s", "", 1, none, some [(handlerIdKey, "static")]⟩, some ⟨none, some ["assets"]⟩⟩,
    ⟨⟨"theme", "t", "", 1, none, some [(handlerIdKey, "theme")]⟩,
      some ⟨some ["assets"], some ["fonts"]⟩⟩,
    ⟨⟨"font", "f", "", 1, none, none⟩, some ⟨some ["fonts"], none⟩⟩]

/-- A package that imports the one handler and exports a module of its own. -/
def portal : Manifest where
  packageName := "portal"
  packageVersion := "1"
  entries := [⟨.imported ⟨themes.id, "static"⟩ "/s", none, .always⟩,
    ⟨.exported "m" "page", none, .always⟩]

/-- The module on a disk, and the package that is imported. -/
def portalContext : ExpansionContext where
  base := ⟨.root, ["app"]⟩
  disk := { nodes := [(["app"], .directory), (["app", "m"], .file ⟨#[1, 2]⟩)] }
  versioning := .production
  stamp := ⟨⟨⟨2024, 1, 2⟩, 3, 4, 5, 6, none⟩, none⟩
  external := [(themes.id, themes)]

theorem handler?_of_expand_portal :
    ∃ inv, (portalContext.expand portal).outcome = .ok inv ∧
      (∃ p, portalContext.primaryParcel (.exported "m" "page") = .ok p ∧
        inv.handler? "page" = some p) ∧
      inv.handler? "font" = none := by
  have done : (portalContext.expand portal).outcome.toBool = true := by decide +kernel
  rcases Outcome.exists_of_toBool done with ⟨inv, expanded⟩
  refine ⟨inv, expanded, (handler?_of_expand expanded "page").1 ⟨_, none, .always⟩ (by decide), ?_⟩
  have unexported : ∀ e ∈ portal.matching portalContext.values, e.role.exportId? ≠ some "font" := by
    decide
  apply ((handler?_of_expand expanded "font").2 unexported).1.mpr
  decide +kernel

/-- The handler that nobody exports is found in the invoice all the same, and without the
font that it requires in its own package. -/
theorem handler?_portal_theme :
    (∀ e ∈ portal.matching [], e.role.exportId? ≠ some "theme") ∧
      ∃ inv, (portalContext.expand portal).outcome = .ok inv ∧
        ∃ p, inv.handler? "theme" = some p ∧ p.requiredGroups = [] := by
  have done : ((portalContext.expand portal).outcome.map fun inv =>
      (inv.handler? "theme").any (·.requiredGroups.isEmpty)).toOption = some true := by
    decide +kernel
  rcases Outcome.exists_of_toOption done with ⟨inv, expanded, found⟩
  refine ⟨by decide, inv, expanded, ?_⟩
  rcases (Option.any_eq_true _ _).mp found with ⟨p, here, bare⟩
  exact ⟨p, here, List.isEmpty_iff.mp bare⟩

end ExpansionContext
end Consignment
