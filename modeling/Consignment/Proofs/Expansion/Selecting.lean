import Consignment.Proofs.Expansion.Failing

namespace Consignment

/-!
# What an expansion depends on

Of a manifest an expansion sees the declared package and the entries that take part, and of
these the roles and the patterns.  Of the files it sees what paths lead to and what patterns
match, and of other packages the invoices that the entries refer to.  Two expansions that
agree on all this have the same outcome, the failure included.

Nothing is assumed of how the entries were selected.  The conditions, the values, the entries
that were left out and the foreign invoices that no entry refers to are therefore free.
-/

/-- An entry without its condition. -/
def Entry.unconditional (e : Entry) : Entry :=
  { e with condition := .always }

/-- Two manifests declare the same package, whatever their entries are. -/
structure Manifest.SamePackage (m n : Manifest) : Prop where
  name : m.packageName = n.packageName
  version : m.packageVersion = n.packageVersion
  description : m.description = n.description
  authors : m.authors = n.authors
  annotations : m.annotations = n.annotations

theorem Manifest.SamePackage.refl (m : Manifest) : m.SamePackage m :=
  ⟨rfl, rfl, rfl, rfl, rfl⟩

/-- References are part of what an entry contributes. -/
theorem Manifest.externalRefs_unconditional (entries : List Entry) :
    externalRefs (entries.map Entry.unconditional) = externalRefs entries :=
  List.filterMap_map

namespace ExpansionContext

variable {c d : ExpansionContext} {m n : Manifest}

/-- Two contexts see the same files from the same base. -/
structure SameFiles (c d : ExpansionContext) : Prop where
  base : c.base = d.base
  read : ∀ path, c.disk.read path = d.disk.read path
  matched : ∀ pattern, (c.matchedFiles pattern).outcome = (d.matchedFiles pattern).outcome

namespace SameFiles

theorem localLabel (same : SameFiles c d) : c.localLabel = d.localLabel := by
  funext role path feature annotations
  simp only [ExpansionContext.localLabel, nameOf, same.base, same.read]

theorem fileParcel (same : SameFiles c d) : c.fileParcel = d.fileParcel := by
  funext role path
  rw [ExpansionContext.fileParcel, ExpansionContext.fileParcel, same.localLabel]

theorem givenPaths (same : SameFiles c d) : c.givenPaths = d.givenPaths := by
  funext e
  simp only [ExpansionContext.givenPaths, entryFiles, Report.outcome_bind, Report.outcome_forAll,
    same.matched]

theorem of_sameDisk (base : c.base = d.base) (disk : c.disk = d.disk) : SameFiles c d where
  base := base
  read := by
    intro path
    rw [disk]
  matched := by
    intro pattern
    simp only [matchedFiles, base, disk]

end SameFiles

/-- Only the invoice of the package that is referred to matters. -/
theorem externalSource_congr {role : Role} {ref : ExternalRef}
    (stored : c.external.lookup ref.package = d.external.lookup ref.package) :
    c.externalSource role ref = d.externalSource role ref := by
  simp only [externalSource, stored]

theorem primaryParcel_congr {role : Role} (files : SameFiles c d)
    (stored : ∀ ref, role.external? = some ref →
      c.external.lookup ref.package = d.external.lookup ref.package) :
    c.primaryParcel role = d.primaryParcel role := by
  cases role with
  | handler modulePath route => simp only [primaryParcel, files.localLabel, files.base]
  | imported ref route => simp only [primaryParcel, externalSource_congr (stored ref rfl)]
  | exported modulePath exportId => simp only [primaryParcel, files.localLabel, files.base]

theorem dependencyParcels_congr {role : Role}
    (stored : ∀ ref, role.external? = some ref →
      c.external.lookup ref.package = d.external.lookup ref.package) :
    c.dependencyParcels role = d.dependencyParcels role := by
  unfold dependencyParcels
  cases external : role.external? with
  | none => rfl
  | some ref => simp only [externalSource_congr (stored ref external)]

/-- Work that does not look at conditions is the same for entries without them. -/
theorem mapM_unconditional {β : Type} {first second : Entry → Except Failure β}
    {entries others : List Entry}
    (entriesSame : entries.map Entry.unconditional = others.map Entry.unconditional)
    (blind : ∀ e, first e = first e.unconditional)
    (alike : ∀ e ∈ others, first e = second e) : entries.mapM first = others.mapM second := by
  have through (es : List Entry) : es.mapM first = (es.map Entry.unconditional).mapM first := by
    rw [List.mapM_map]
    exact Outcome.mapM_congr fun e _ => blind e
  rw [through entries, entriesSame, ← through others]
  exact Outcome.mapM_congr alike

theorem groupNames_unconditional (entries : List Entry) :
    entries.map (·.role.groupName) =
      (entries.map Entry.unconditional).map (·.role.groupName) := by
  rw [List.map_map]
  rfl

/-- Two expansions with the same package, the same entries up to conditions, the same files and
the same invoices of the packages referred to have the same outcome. -/
theorem outcome_expand_congr (files : SameFiles c d) (versioning : c.versioning = d.versioning)
    (stamp : c.stamp = d.stamp) (package : m.SamePackage n)
    (entries : (m.matching c.values).map Entry.unconditional =
      (n.matching d.values).map Entry.unconditional)
    (external : ∀ ref ∈ Manifest.externalRefs (n.matching d.values),
      c.external.lookup ref.package = d.external.lookup ref.package) :
    (c.expand m).outcome = (d.expand n).outcome := by
  have stored : ∀ e ∈ n.matching d.values, ∀ ref, e.role.external? = some ref →
      c.external.lookup ref.package = d.external.lookup ref.package := by
    intro e kept ref refers
    exact external ref (List.mem_filterMap.mpr ⟨e, kept, refers⟩)
  have modules : c.modules m = d.modules n :=
    mapM_unconditional entries (fun _ => rfl) fun e kept =>
      primaryParcel_congr files (stored e kept)
  have closures : c.closures m = d.closures n :=
    mapM_unconditional entries (fun _ => rfl) fun e kept =>
      congrArg Report.outcome (dependencyParcels_congr (stored e kept))
  have patterns : c.patterns m = d.patterns n :=
    mapM_unconditional entries (fun _ => rfl) fun e _ => congrFun files.givenPaths e
  have assembled : c.invoiceFrom m = d.invoiceFrom n := by
    funext primary dependencies found
    simp only [invoiceFrom, versioning, stamp, package.name, package.version, package.description,
      package.authors, package.annotations, groupNames_unconditional (m.matching c.values),
      groupNames_unconditional (n.matching d.values), entries]
  simp only [outcome_expand_eq_stages, modules, closures, patterns, assembled, files.fileParcel]

end ExpansionContext
end Consignment
