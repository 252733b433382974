import Consignment.Packaging
import Consignment.Proofs.Packaging.Prefetching

namespace Consignment

/-!
# A build, step by step

A build gets the foreign invoices that its entries refer to and expands its manifest with
them.  Only the first of the two asks other servers for anything, and it does so only if an
entry refers to another package.
-/

/-! ## Work that asks for nothing -/

open Report (Quiet)

theorem Invoice.quiet_closure (inv : Invoice) (start : Parcel) : (inv.closure start).Quiet := by
  unfold closure
  split
  · exact .bind (.notes _) fun _ => .pure _
  · exact .fail _

namespace ExpansionContext

variable (c : ExpansionContext)

theorem quiet_dependencyParcels (role : Role) : (c.dependencyParcels role).Quiet := by
  unfold dependencyParcels
  split
  · exact .pure _
  · apply Quiet.bind (.ofOutcome _)
    rintro ⟨invoice, handler⟩
    apply Quiet.bind (.mapFailure (invoice.quiet_closure handler) _)
    exact fun _ => .bind (.note _) fun _ => .pure _

theorem quiet_matchedFiles (pattern : String) : (c.matchedFiles pattern).Quiet := by
  apply Quiet.bind (.ofOutcome _)
  intro found
  apply Quiet.bind (.ofOutcome _)
  intro files
  exact .ite (.bind (.note _) fun _ => .pure _) (.pure _)

theorem quiet_entryFiles (e : Entry) : (c.entryFiles e).Quiet :=
  .bind (.forAll c.quiet_matchedFiles) fun _ => .pure _

/-- An expansion works with what it is given. -/
theorem quiet_expand (manifest : Manifest) : (c.expand manifest).Quiet := by
  unfold expand
  apply Quiet.bind (.bind (.notes _) fun _ => .pure _)
  intro entries
  apply Quiet.noting
  apply Quiet.bind (Pool.quiet_gather fun _ => .ofOutcome _)
  intro primary
  apply Quiet.bind (.forAll fun e : Entry => c.quiet_dependencyParcels e.role)
  intro dependencies
  apply Quiet.bind (.forAll fun e : Entry => .bind (c.quiet_entryFiles e) fun _ => .pure _)
  intro matched
  apply Quiet.bind (Pool.quiet_gather fun _ => .ofOutcome _)
  intro found
  have finished (notice : Notice) (inv : Invoice) : (do Report.note notice; return inv).Quiet :=
    .bind (.note notice) fun _ => .pure inv
  exact .ite (.bind (.fail _) fun _ => finished _ _) (finished _ _)

end ExpansionContext

/-- The references to other packages among the entries that take part. -/
def Manifest.references (manifest : Manifest) (values : Values) : List ExternalRef :=
  externalRefs (manifest.matching values)

namespace Manifest

variable {manifest : Manifest} {values : Values}

theorem mem_references {ref : ExternalRef} :
    ref ∈ manifest.references values ↔
      ∃ e ∈ manifest.matching values, e.role.external? = some ref :=
  List.mem_filterMap

theorem references_eq_nil :
    manifest.references values = [] ↔ ∀ e ∈ manifest.matching values, e.role.external? = none :=
  List.filterMap_eq_nil_iff

theorem references_ne_nil :
    manifest.references values ≠ [] ↔
      ∃ e ∈ manifest.matching values, ∃ ref, e.role.external? = some ref := by
  rw [Ne, references_eq_nil]
  simp [Option.eq_none_iff_forall_ne_some]

theorem mem_packages_references {id : PackageId} :
    id ∈ ExternalRef.packages (manifest.references values) ↔
      ∃ e ∈ manifest.matching values, ∃ ref, e.role.external? = some ref ∧ ref.package = id := by
  simp only [ExternalRef.mem_packages, mem_references]
  constructor
  · rintro ⟨ref, ⟨e, kept, refers⟩, same⟩
    exact ⟨e, kept, ref, refers, same⟩
  · rintro ⟨e, kept, ref, refers, same⟩
    exact ⟨ref, ⟨e, kept, refers⟩, same⟩

end Manifest

namespace Surroundings

variable (s : Surroundings)

theorem quiet_loadManifest (source : String) : (s.loadManifest source).Quiet := by
  apply Quiet.bind (.ofOutcome _)
  intro path
  refine .bind ?_ fun _ => .pure _
  unfold Manifest.load Manifest.ofText
  split
  · split
    · exact .bind (.ofOutcome _) fun _ => .bind (.note _) fun _ => .pure _
    · exact .fail _
    · exact .fail _
  · split
    · exact .fail _
    · exact .fail _

/-! ## The steps of a build -/

variable {s} {supply : Supply} {pool : Pool} {order : Order} {manifest : Manifest} {path : Path}

/-- A build without references has no foreign invoices and does not need a supply. -/
theorem externalInvoices_nil : externalInvoices supply pool order [] = pure [] := rfl

theorem externalInvoices_of_ne_nil {refs : List ExternalRef} (refer : refs ≠ []) :
    externalInvoices supply pool order refs = (do
      match ← supply order with
      | none => Report.fail (.config .noSource)
      | some fetch => prefetch fetch pool refs) := by
  have asked : ¬refs.isEmpty = true := fun none => refer (List.isEmpty_iff.mp none)
  unfold externalInvoices
  exact if_neg asked

theorem outcome_packageManifest : (s.packageManifest supply pool order manifest path).outcome = (do
      let external ←
        (externalInvoices supply pool order (manifest.references order.values)).outcome
      let invoice ← ((s.contextFor pool order path external).expand manifest).outcome
      .ok ⟨invoice, path⟩) := by
  simp only [packageManifest, ExpansionContext.select, Report.outcome_bind, Report.outcome_ite,
    Report.outcome_note, Report.outcome_notes, Report.outcome_pure, Outcome.ok_bind, ite_self,
    Manifest.references]

theorem requests_packageManifest :
    (s.packageManifest supply pool order manifest path).requests =
      (externalInvoices supply pool order (manifest.references order.values)).requests := by
  have expanded (external : List (PackageId × Invoice)) : (do
      let invoice ← (s.contextFor pool order path external).expand manifest
      return (⟨invoice, path⟩ : Packaged)).Quiet :=
    .bind (ExpansionContext.quiet_expand _ _) fun _ => .pure _
  unfold packageManifest
  dsimp only
  rw [Report.requests_noting, Report.requests_bind_of_ok rfl,
    Report.requests_bind_of_quiet expanded]
  rfl

/-- Without the foreign invoices there is no package. -/
theorem outcome_packageManifest_of_error {failure : Failure}
    (unprovided : (externalInvoices supply pool order (manifest.references order.values)).outcome =
      .error failure) :
    (s.packageManifest supply pool order manifest path).outcome = .error failure := by
  rw [outcome_packageManifest, unprovided, Outcome.error_bind]

/-- Once the manifest is loaded, the rest of the build is the packaging of it. -/
theorem outcome_buildWith (loaded : (s.loadManifest order.source).outcome = .ok (manifest, path)) :
    (s.buildWith supply pool order).outcome =
      (s.packageManifest supply pool order manifest path).outcome := by
  simp only [buildWith, Report.outcome_bind, loaded, Outcome.ok_bind]

theorem requests_buildWith (loaded : (s.loadManifest order.source).outcome = .ok (manifest, path)) :
    (s.buildWith supply pool order).requests =
      (s.packageManifest supply pool order manifest path).requests := by
  rw [buildWith, Report.requests_bind_of_ok loaded, s.quiet_loadManifest, List.nil_append]

/-- Without references the supply is not used. -/
theorem buildWith_congr (loaded : (s.loadManifest order.source).outcome = .ok (manifest, path))
    (none : manifest.references order.values = []) (other : Supply) :
    s.buildWith other pool order = s.buildWith supply pool order := by
  have unused : s.packageManifest other pool order manifest path =
      s.packageManifest supply pool order manifest path := by
    unfold Manifest.references at none
    simp only [packageManifest, ExpansionContext.select, bind_assoc, pure_bind, none,
      externalInvoices_nil]
  simp only [buildWith, bind, loaded, unused]

end Surroundings
end Consignment
