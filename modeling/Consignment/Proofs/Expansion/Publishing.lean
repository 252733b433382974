import Consignment.Proofs.Expansion.Exports
import Consignment.Proofs.Expansion.Groups

namespace Consignment

/-!
# A package that is published and then imported

An export is imported by another package: first the exporting package is expanded, then the
importing one, which finds the first invoice among the foreign ones.  The module comes over
as it is.  Its dependencies are the members of the export's group, because in an expanded
invoice they require nothing further.

Of several members with the same content one comes over.  An invoice keeps a file for each
name, while a closure keeps one for each content, so that a file is imported under the name
of the first member of the group that has its content.
-/

namespace Invoice

/-- Of the members with a content, the first is the one that is kept. -/
theorem exists_find?_of_mem_members {inv : Invoice} {group : String} {p : Parcel}
    (member : p ∈ inv.members group) :
    ∃ first ∈ distinctBy (·.label.sha256) (inv.members group),
      (inv.members group).find? (fun q => q.label.sha256 = p.label.sha256) = some first := by
  have kept : ∃ first ∈ distinctBy (·.label.sha256) (inv.members group),
      first.label.sha256 = p.label.sha256 := exists_mem_distinctBy member
  rcases kept with ⟨first, mem, same⟩
  have found := find?_of_mem_distinctBy mem
  rw [same] at found
  exact ⟨first, mem, found⟩

end Invoice

theorem Role.exportId?_eq_some {role : Role} {handlerId : String}
    (exports : role.exportId? = some handlerId) : ∃ modulePath, role = .exported modulePath handlerId := by
  cases role with
  | handler modulePath route => exact absurd exports (by simp [Role.exportId?])
  | imported ref route => exact absurd exports (by simp [Role.exportId?])
  | exported modulePath exportId =>
    cases exports
    exact ⟨modulePath, rfl⟩

namespace ExpansionContext

variable {c : ExpansionContext}

/-- An imported module has the content that the handler has in its package. -/
theorem label_of_imported {ref : ExternalRef} {route : String} {p handler : Parcel}
    {invoice : Invoice} (had : c.primaryParcel (.imported ref route) = .ok p)
    (stored : c.external.lookup ref.package = some invoice)
    (offered : invoice.handler? ref.handlerId = some handler) :
    p.label = { handler.label with
      feature := some (servingFeature (some route) false)
      annotations := some [(doNotStageKey, "true")] } := by
  rcases primaryParcel_eq_ok.mp had with ⟨label, labelled, rfl⟩
  rcases Outcome.map_eq_ok.mp labelled with ⟨⟨source, found⟩, sourced, rfl⟩
  rcases externalSource_eq_ok.mp sourced with ⟨same, there⟩
  cases Option.some.inj (stored.symm.trans same)
  cases Option.some.inj (offered.symm.trans there)
  rfl

theorem content_of_exported {modulePath handlerId : String} {p : Parcel}
    (had : c.primaryParcel (.exported modulePath handlerId) = .ok p) :
    ∃ bytes, c.disk.read (c.base.join modulePath) = .ok bytes ∧
      c.nameOf (c.base.join modulePath) = .ok p.label.name ∧
      p.label.sha256 = Digest.ofBytes bytes ∧ p.label.size = bytes.size ∧
      p.label.mediaType = MediaType.ofPath (c.base.join modulePath) := by
  rcases primaryParcel_eq_ok.mp had with ⟨label, labelled, rfl⟩
  rcases localLabel_eq_ok.mp labelled with ⟨bytes, name, read, named, rfl⟩
  refine ⟨bytes, read, ?_⟩
  simp only [Parcel.label_requiring, named, and_self]

namespace Parts

variable {manifest : Manifest} (parts : c.Parts manifest)

/-- The dependencies of an export's module are the members of its group, one for each
content. -/
theorem closure_of_export {handlerId : String} {x : Entry}
    (first : (manifest.matching c.values).find? (·.role.exportId? == some handlerId) = some x)
    {p : Parcel} (found : parts.invoice.handler? handlerId = some p) :
    (parts.invoice.closure p).outcome =
      .ok (distinctBy (·.label.sha256) (parts.invoice.members x.role.groupName)) := by
  rcases parts.exists_handler?_of_export first with ⟨q, had, same⟩
  cases Option.some.inj (found.symm.trans same)
  have required : p.requiredGroups = [x.role.groupName] := by
    simp [Parcel.requiredGroups, conditions_of_primaryParcel had]
  have leaves : ∀ q ∈ parts.invoice.members x.role.groupName, q.requiredGroups = [] := by
    intro q member
    exact (parts.onlyMemberOf_of_mem (parts.mem_of_mem_members member)).requiredGroups_eq_nil
  rw [Invoice.outcome_closure, if_pos (Invoice.offers_of_handler? found), Invoice.dependencies,
    Invoice.dependencyGroups_eq_singleton required leaves, List.flatMap_singleton]

/-- Whoever imports the export depends on them. -/
theorem dependsOnParcel_of_export {here : ExpansionContext} {handlerId route : String} {x : Entry}
    (first : (manifest.matching c.values).find? (·.role.exportId? == some handlerId) = some x)
    (stored : here.external.lookup parts.invoice.id = some parts.invoice) {p : Parcel}
    (listed : p ∈ distinctBy (·.label.sha256) (parts.invoice.members x.role.groupName)) :
    here.DependsOnParcel (.imported ⟨parts.invoice.id, handlerId⟩ route) p := by
  rcases parts.exists_handler?_of_export first with ⟨handler, _, offered⟩
  have closed := parts.closure_of_export first offered
  exact ⟨_, rfl, parts.invoice, handler, _, stored, offered, closed, listed⟩

end Parts

/-- An imported module comes from the package that exports it, with the content, the name and
the media type that it has there.  So does every file of the export: its content comes under
the name of the first member of the export's group that has it, which is its own name unless
another member has the same content under another name. -/
theorem files_of_import {there here : ExpansionContext} {library site : Manifest}
    {published inv : Invoice} {handlerId route : String} {x e : Entry} {i : Nat}
    (exported : (there.expand library).outcome = .ok published)
    (first : (library.matching there.values).find? (·.role.exportId? == some handlerId) = some x)
    (stored : here.external.lookup published.id = some published)
    (entry : (site.matching here.values)[i]? = some e)
    (refers : e.role = .imported ⟨published.id, handlerId⟩ route)
    (expanded : (here.expand site).outcome = .ok inv) :
    (∃ p modulePath bytes, inv.parcels[i]? = some p ∧ x.role = .exported modulePath handlerId ∧
      there.disk.read (there.base.join modulePath) = .ok bytes ∧
      there.nameOf (there.base.join modulePath) = .ok p.label.name ∧
      p.label.sha256 = Digest.ofBytes bytes ∧ p.label.size = bytes.size ∧
      p.label.mediaType = MediaType.ofPath (there.base.join modulePath)) ∧
    ∀ pattern ∈ x.files.getD [], ∀ name digest, there.PatternGivesFile pattern name digest →
      ∃ kept, (published.members x.role.groupName).find? (·.label.sha256 = digest) = some kept ∧
        (∃ q ∈ inv.members e.role.groupName, q.isReference = true ∧
          q.label.sha256 = digest ∧ q.label.name = kept.label.name) ∧
        ((∀ p ∈ published.members x.role.groupName,
            p.label.sha256 = digest → p.label.name = name) → kept.label.name = name) := by
  rcases expand_eq_ok.mp exported with ⟨source, rfl⟩
  rcases expand_eq_ok.mp expanded with ⟨parts, rfl⟩
  constructor
  · rcases source.exists_handler?_of_export first with ⟨handler, had, offered⟩
    rcases parts.exists_primary entry with ⟨p, placed, imported⟩
    rw [refers] at imported
    have label := label_of_imported imported stored offered
    have exports : x.role.exportId? = some handlerId := by simpa using List.find?_some first
    rcases Role.exportId?_eq_some exports with ⟨modulePath, role⟩
    rw [role] at had
    rcases content_of_exported had with ⟨bytes, read, content⟩
    refine ⟨p, modulePath, bytes, placed, role, read, ?_⟩
    rw [label]
    exact content
  · intro pattern asked name digest given
    have takesPart : x ∈ library.matching there.values := List.mem_of_find?_eq_some first
    have file := (source.groupHasFile_iff x.role.groupName name digest).mpr
      ⟨x, takesPart, rfl, pattern, asked, given⟩
    rcases file with ⟨p, member, _, rfl, rfl⟩
    -- the file itself need not come over, but the first member with its content does
    rcases Invoice.exists_find?_of_mem_members member with ⟨kept, listed, found⟩
    have content : kept.label.sha256 = p.label.sha256 := by simpa using List.find?_some found
    have depends : here.DependsOnParcel e.role kept := by
      rw [refers]
      exact source.dependsOnParcel_of_export first stored listed
    rcases parts.exists_member_of_dependsOnParcel (List.mem_of_getElem? entry) depends with
      ⟨q, belongs, marked, named, same⟩
    refine ⟨kept, found, ⟨q, belongs, marked, same.trans content, named⟩, ?_⟩
    intro alone
    exact alone kept (List.mem_of_find?_eq_some found) content

/-- An export with three files, two of which have the same content. -/
def library : Manifest where
  packageName := "library"
  packageVersion := "1"
  entries := [⟨.exported "m" "lib", some ["a", "b", "c"], .always⟩]

/-- The module and the files on a disk. -/
def libraryContext : ExpansionContext where
  base := ⟨.root, ["app"]⟩
  disk := { nodes := [(["app"], .directory), (["app", "m"], .file ⟨#[1]⟩),
    (["app", "a"], .file ⟨#[2]⟩), (["app", "b"], .file ⟨#[2]⟩), (["app", "c"], .file ⟨#[3]⟩)] }
  versioning := .production
  stamp := ⟨⟨⟨2024, 1, 2⟩, 3, 4, 5, 6, none⟩, none⟩

/-- A package that imports the export. -/
def site (id : PackageId) : Manifest where
  packageName := "site"
  packageVersion := "1"
  entries := [⟨.imported ⟨id, "lib"⟩ "/l", none, .always⟩]

/-- Nothing of its own, and the package that is imported. -/
def siteContext (published : Invoice) : ExpansionContext where
  base := ⟨.root, ["app"]⟩
  disk := { nodes := [(["app"], .directory)] }
  versioning := .production
  stamp := ⟨⟨⟨2024, 1, 2⟩, 3, 4, 5, 6, none⟩, none⟩
  external := [(published.id, published)]

def publishedAndImported : Except Failure (Invoice × Invoice) := do
  let published ← (libraryContext.expand library).outcome
  let inv ← ((siteContext published).expand (site published.id)).outcome
  return (published, inv)

theorem publishedAndImported_eq_ok {published inv : Invoice} :
    publishedAndImported = .ok (published, inv) ↔
      (libraryContext.expand library).outcome = .ok published ∧
        ((siteContext published).expand (site published.id)).outcome = .ok inv := by
  simp [publishedAndImported]

theorem files_of_import_library :
    ∃ published inv, publishedAndImported = .ok (published, inv) ∧
      (∃ p, inv.parcels[0]? = some p ∧ libraryContext.nameOf ⟨.root, ["app", "m"]⟩ = .ok p.label.name) ∧
      ∃ q ∈ inv.members (Role.imported ⟨published.id, "lib"⟩ "/l").groupName,
        q.isReference = true ∧ q.label.sha256 = Digest.ofBytes ⟨#[3]⟩ ∧ q.label.name = "c" := by
  have done : (publishedAndImported.map fun invoices =>
      (invoices.1.members "m-lib-files").all fun p =>
        p.label.sha256 != Digest.ofBytes ⟨#[3]⟩ || p.label.name == "c").toOption = some true := by
    decide +kernel
  rcases Outcome.exists_of_toOption done with ⟨⟨published, inv⟩, both, single⟩
  rcases publishedAndImported_eq_ok.mp both with ⟨exported, expanded⟩
  have stored : (siteContext published).external.lookup published.id = some published :=
    List.lookup_cons_self
  have alone : ∀ p ∈ published.members "m-lib-files",
      p.label.sha256 = Digest.ofBytes ⟨#[3]⟩ → p.label.name = "c" := by
    intro p member content
    have named := List.all_eq_true.mp single p member
    simpa [content] using named
  have given : libraryContext.PatternGivesFile "c" "c" (Digest.ofBytes ⟨#[3]⟩) :=
    ⟨_, _, ⟨["c"], rfl, ⟨"c", List.mem_cons_self, rfl⟩, rfl⟩, rfl, rfl, rfl⟩
  have files := files_of_import (i := 0) exported rfl stored rfl rfl expanded
  rcases files with ⟨⟨p, path, bytes, placed, role, _, named, _⟩, kept⟩
  cases role
  rcases kept "c" (by simp) "c" _ given with ⟨first, _, ⟨q, member, marked, content, same⟩, own⟩
  exact ⟨published, inv, both, ⟨p, placed, named⟩, q, member, marked, content, same.trans (own alone)⟩

/-- Of two files with the same content the second does not come over under its own name. -/
theorem absent_of_import_library :
    ∃ published inv, publishedAndImported = .ok (published, inv) ∧
      (∃ x, (library.matching []).find? (·.role.exportId? == some "lib") = some x ∧
        ∃ pattern ∈ x.files.getD [], ∃ digest, libraryContext.PatternGivesFile pattern "b" digest) ∧
      ∀ p ∈ inv.parcels, p.label.name ≠ "b" := by
  have done : (publishedAndImported.map fun invoices =>
      invoices.2.parcels.all (·.label.name != "b")).toOption = some true := by
    decide +kernel
  rcases Outcome.exists_of_toOption done with ⟨⟨published, inv⟩, both, absent⟩
  have given : libraryContext.PatternGivesFile "b" "b" (Digest.ofBytes ⟨#[2]⟩) :=
    ⟨_, _, ⟨["b"], rfl, ⟨"b", List.mem_cons_self, rfl⟩, rfl⟩, rfl, rfl, rfl⟩
  exact ⟨published, inv, both, ⟨_, rfl, "b", by decide, _, given⟩, by simpa using absent⟩

end ExpansionContext
end Consignment
