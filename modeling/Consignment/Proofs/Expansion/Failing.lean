import Consignment.Proofs.Dependency.Reachability
import Consignment.Proofs.Expansion.Parts

namespace Consignment

/-!
# What ends an expansion

An expansion does four kinds of work for its entries, one kind after the other: it gets the
modules, the dependencies, the paths that the patterns match, and the matched files.  At last
it compares names.  The first kind of work that fails for any entry ends the expansion, with
the failure of the first entry or file for which it fails; no later work counts.

`expand_eq_error` says so for all failures at once.  What kinds of failure there are is said
piece by piece: a failure of local work says nothing of other packages, and the dependencies
of a handler can be had as soon as the handler is found.
-/

/-- A failure of the files of the package itself. -/
def Failure.IsLocal : Failure → Prop
  | .files _ | .escaped _ => True
  | _ => False

namespace ExpansionContext

open Outcome (FirstFault)

variable {c : ExpansionContext} {manifest : Manifest} {failure : Failure}

/-! ## One kind of work after the other -/

def modules (c : ExpansionContext) (manifest : Manifest) : Except Failure (List Parcel) :=
  (manifest.matching c.values).mapM fun e => c.primaryParcel e.role

def closures (c : ExpansionContext) (manifest : Manifest) : Except Failure (List (List Parcel)) :=
  (manifest.matching c.values).mapM fun e => (c.dependencyParcels e.role).outcome

def givenPaths (c : ExpansionContext) (e : Entry) : Except Failure (List (Role × Path)) := do
  let paths ← (c.entryFiles e).outcome
  .ok (paths.map fun path => (e.role, path))

/-- The paths that the patterns of these entries match. -/
def patterns (c : ExpansionContext) (manifest : Manifest) :
    Except Failure (List (List (Role × Path))) :=
  (manifest.matching c.values).mapM c.givenPaths

/-- The failure that ends an expansion, by the kind of work that has it: the work of the kinds
before is done, and so is the same work for the entries or files before. -/
inductive EndsWith (c : ExpansionContext) (manifest : Manifest) (failure : Failure) : Prop
  | module
    (first : FirstFault (fun e => c.primaryParcel e.role) (manifest.matching c.values) failure)
  | closure {primary : List Parcel} (modules : c.modules manifest = .ok primary)
    (first : FirstFault (fun e => (c.dependencyParcels e.role).outcome)
      (manifest.matching c.values) failure)
  | pattern {primary : List Parcel} {dependencies : List (List Parcel)}
    (modules : c.modules manifest = .ok primary) (closures : c.closures manifest = .ok dependencies)
    (first : FirstFault c.givenPaths (manifest.matching c.values) failure)
  | file {primary : List Parcel} {dependencies : List (List Parcel)}
      {matched : List (List (Role × Path))}
    (modules : c.modules manifest = .ok primary) (closures : c.closures manifest = .ok dependencies)
    (patterns : c.patterns manifest = .ok matched)
    (first : FirstFault (fun m => c.fileParcel m.1 m.2) matched.flatten failure)
  | clash {primary : List Parcel} {dependencies : List (List Parcel)}
      {matched : List (List (Role × Path))} {files : List Parcel}
    (modules : c.modules manifest = .ok primary) (closures : c.closures manifest = .ok dependencies)
    (patterns : c.patterns manifest = .ok matched)
    (read : matched.flatten.mapM (fun m => c.fileParcel m.1 m.2) = .ok files)
    (clashing : clashingNames (Parcel.merge dependencies.flatten) (Parcel.merge files) ≠ [])
    (names : failure = .nameClash
      (clashingNames (Parcel.merge dependencies.flatten) (Parcel.merge files)))

/-- The outcome of an expansion by kinds of work. -/
theorem outcome_expand_eq_stages (c : ExpansionContext) (manifest : Manifest) :
    (c.expand manifest).outcome = (do
      let primary ← c.modules manifest
      let dependencies ← c.closures manifest
      let matched ← c.patterns manifest
      let files ← matched.flatten.mapM fun m => c.fileParcel m.1 m.2
      if clashingNames (Parcel.merge dependencies.flatten) (Parcel.merge files) = [] then
        .ok (c.invoiceFrom manifest primary dependencies.flatten files)
      else .error (.nameClash
        (clashingNames (Parcel.merge dependencies.flatten) (Parcel.merge files)))) :=
  outcome_expand c manifest

/-- An expansion fails with the first failure of the first kind of work that fails. -/
theorem expand_eq_error :
    (c.expand manifest).outcome = .error failure ↔ c.EndsWith manifest failure := by
  have moduleFails : c.modules manifest = .error failure ↔
      FirstFault (fun e => c.primaryParcel e.role) (manifest.matching c.values) failure :=
    Outcome.mapM_eq_error
  have closureFails : c.closures manifest = .error failure ↔
      FirstFault (fun e => (c.dependencyParcels e.role).outcome) (manifest.matching c.values)
        failure :=
    Outcome.mapM_eq_error
  have patternFails : c.patterns manifest = .error failure ↔
      FirstFault c.givenPaths (manifest.matching c.values) failure :=
    Outcome.mapM_eq_error
  rw [outcome_expand_eq_stages]
  simp only [Outcome.bind_eq_error, moduleFails, closureFails, patternFails, Outcome.mapM_eq_error]
  constructor
  · rintro (first | ⟨primary, modules, first | ⟨dependencies, closures, first |
      ⟨matched, patterns, first | ⟨files, read, compared⟩⟩⟩⟩)
    · exact .module first
    · exact .closure modules first
    · exact .pattern modules closures first
    · exact .file modules closures patterns first
    · split at compared
      · exact absurd compared (by simp)
      · rename_i clashing
        exact .clash modules closures patterns read clashing (Except.error.inj compared).symm
  · intro ends
    cases ends with
    | module first => exact Or.inl first
    | closure modules first => exact Or.inr ⟨_, modules, Or.inl first⟩
    | pattern modules closures first =>
      exact Or.inr ⟨_, modules, Or.inr ⟨_, closures, Or.inl first⟩⟩
    | file modules closures patterns first =>
      exact Or.inr ⟨_, modules, Or.inr ⟨_, closures, Or.inr ⟨_, patterns, Or.inl first⟩⟩⟩
    | clash modules closures patterns read clashing names =>
      refine Or.inr ⟨_, modules, Or.inr ⟨_, closures, Or.inr ⟨_, patterns, Or.inr ⟨_, read, ?_⟩⟩⟩⟩
      rw [if_neg clashing, names]

/-! ## Failures of each kind of work -/

theorem isLocal_of_localLabel {role : Role} {path : Path} {feature : FeatureMap}
    {annotations : Option TextMap}
    (failed : c.localLabel role path feature annotations = .error failure) : failure.IsLocal := by
  unfold localLabel at failed
  split at failed
  · cases failed
    trivial
  · cases failed
    trivial
  · rcases Outcome.bind_eq_error.mp failed with unnamed | ⟨name, _, finished⟩
    · unfold nameOf at unnamed
      split at unnamed
      · exact absurd unnamed (by simp)
      · cases unnamed
        trivial
    · exact absurd finished (by simp [pure, Except.pure])

theorem isLocal_of_fileParcel {role : Role} {path : Path}
    (failed : c.fileParcel role path = .error failure) : failure.IsLocal := by
  rcases Outcome.bind_eq_error.mp failed with unlabelled | ⟨label, _, finished⟩
  · exact isLocal_of_localLabel unlabelled
  · exact absurd finished (by simp [pure, Except.pure])

/-- A module cannot be had because of a local file, or because of the package that it comes
from. -/
theorem cases_of_primaryParcel {role : Role} (failed : c.primaryParcel role = .error failure) :
    failure.IsLocal ∨
      ∃ ref, role.external? = some ref ∧ c.externalSource role ref = .error failure := by
  cases role with
  | handler modulePath route =>
    rcases Outcome.bind_eq_error.mp failed with unlabelled | ⟨label, _, finished⟩
    · exact Or.inl (isLocal_of_localLabel unlabelled)
    · exact absurd finished (by simp [pure, Except.pure])
  | imported ref route =>
    rcases Outcome.bind_eq_error.mp failed with unsourced | ⟨source, _, finished⟩
    · exact Or.inr ⟨ref, rfl, unsourced⟩
    · exact absurd finished (by simp [pure, Except.pure])
  | exported modulePath exportId =>
    rcases Outcome.bind_eq_error.mp failed with unlabelled | ⟨label, _, finished⟩
    · exact Or.inl (isLocal_of_localLabel unlabelled)
    · exact absurd finished (by simp [pure, Except.pure])

/-- A handler cannot be had because its package is not there or has no such handler. -/
theorem externalSource_eq_error {role : Role} {ref : ExternalRef} :
    c.externalSource role ref = .error failure ↔
      (c.external.lookup ref.package = none ∧
        failure = .invoiceMissing role.describe ref.package) ∨
      ∃ invoice, c.external.lookup ref.package = some invoice ∧
        invoice.handler? ref.handlerId = none ∧
        failure = .handlerMissing (some ref.text) invoice.id ref.handlerId invoice.handlerIds := by
  unfold externalSource Invoice.handler
  cases c.external.lookup ref.package with
  | none => simp [eq_comm]
  | some invoice => cases found : invoice.handler? ref.handlerId <;> simp [found, eq_comm]

/-- Dependencies cannot be had only if the handler cannot. -/
theorem cases_of_dependencyParcels {role : Role}
    (failed : (c.dependencyParcels role).outcome = .error failure) :
    ∃ ref, role.external? = some ref ∧ c.externalSource role ref = .error failure := by
  unfold dependencyParcels at failed
  cases external : role.external? with
  | none =>
    rw [external] at failed
    exact absurd failed (by simp)
  | some ref =>
    rw [external] at failed
    simp only [Report.outcome_bind, Report.outcome_ofOutcome, Report.outcome_note,
      Report.outcome_pure, Report.outcome_mapFailure, Outcome.ok_bind] at failed
    rcases Outcome.bind_eq_error.mp failed with unsourced | ⟨⟨invoice, handler⟩, sourced, unclosed⟩
    · exact ⟨ref, rfl, unsourced⟩
    · have found := (externalSource_eq_ok.mp sourced).2
      rw [Invoice.outcome_closure, if_pos (Invoice.offers_of_handler? found)] at unclosed
      exact absurd unclosed (by simp [Except.mapError, bind, Except.bind])

theorem isLocal_of_matchedFiles {pattern : String}
    (failed : (c.matchedFiles pattern).outcome = .error failure) : failure.IsLocal := by
  have escapes {α : Type} {outcome : Except Fault α}
      (failing : outcome.mapError Failure.escaped = .error failure) : failure.IsLocal := by
    cases outcome with
    | error fault =>
      cases failing
      trivial
    | ok found => exact absurd failing (by simp [Except.mapError])
  unfold matchedFiles at failed
  simp only [Report.outcome_bind, Report.outcome_ofOutcome] at failed
  rcases Outcome.bind_eq_error.mp failed with unmatched | ⟨found, _, rest⟩
  · exact escapes unmatched
  · rcases Outcome.bind_eq_error.mp rest with unasked | ⟨kept, _, noted⟩
    · exact escapes unasked
    · split at noted <;> exact absurd noted (by simp)

theorem isLocal_of_givenPaths {e : Entry} (failed : c.givenPaths e = .error failure) :
    failure.IsLocal := by
  rcases Outcome.bind_eq_error.mp failed with unmatched | ⟨paths, _, finished⟩
  · unfold entryFiles at unmatched
    simp only [Report.outcome_bind, Report.outcome_forAll, Report.outcome_pure] at unmatched
    rcases Outcome.bind_eq_error.mp unmatched with failing | ⟨found, _, finished⟩
    · rcases (Outcome.mapM_eq_error.mp failing).exists_mem with ⟨pattern, _, refused⟩
      exact isLocal_of_matchedFiles refused
    · exact absurd finished (by simp)
  · exact absurd finished (by simp)

/-- An expansion fails because of local files, because names clash, or because the handler of
an entry cannot be had. -/
theorem cases_of_expand (failed : (c.expand manifest).outcome = .error failure) :
    failure.IsLocal ∨ (∃ names, failure = .nameClash names) ∨
      ∃ e ∈ manifest.matching c.values, ∃ ref, e.role.external? = some ref ∧
        c.externalSource e.role ref = .error failure := by
  cases expand_eq_error.mp failed with
  | module first =>
    rcases first.exists_mem with ⟨e, kept, failing⟩
    rcases cases_of_primaryParcel failing with localWork | ⟨ref, refers, unsourced⟩
    · exact Or.inl localWork
    · exact Or.inr (Or.inr ⟨e, kept, ref, refers, unsourced⟩)
  | closure modules first =>
    rcases first.exists_mem with ⟨e, kept, failing⟩
    rcases cases_of_dependencyParcels failing with ⟨ref, refers, unsourced⟩
    exact Or.inr (Or.inr ⟨e, kept, ref, refers, unsourced⟩)
  | pattern modules closures first =>
    rcases first.exists_mem with ⟨e, _, failing⟩
    exact Or.inl (isLocal_of_givenPaths failing)
  | file modules closures patterns first =>
    rcases first.exists_mem with ⟨m, _, failing⟩
    exact Or.inl (isLocal_of_fileParcel failing)
  | clash modules closures patterns read clashing names => exact Or.inr (Or.inl ⟨_, names⟩)

end ExpansionContext
end Consignment
