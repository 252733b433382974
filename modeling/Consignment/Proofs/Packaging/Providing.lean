import Consignment.Proofs.Expansion.Failing
import Consignment.Proofs.Packaging.Building

namespace Consignment

/-!
# What a build asks for

The entries that take part in a build are selected twice: to see which packages they refer
to, and again to expand them.  The two selections agree.  Every invoice that an expansion
looks up has been asked for, and no other has; a handler that is found in one has
dependencies.

A source is any function that gives a report on a package.  What it asks other servers for
meanwhile is left open, and so the requests of a build tell which packages the source was
asked for, and in which order.
-/

open Outcome (FirstFault)
open ExternalRef (packages)

/-- The packages that a source is asked for, in order, if a pool is to get the invoices of
some packages. -/
structure Calls (pool : Pool) (fetch : PackageId → Report Invoice) (ids calls : List PackageId) :
    Prop where
  several : 1 < pool.workers → calls.Perm ids
  /-- A single worker asks in order. -/
  all : pool.workers ≤ 1 → (∀ id ∈ ids, ∃ invoice, (fetch id).outcome = .ok invoice) → calls = ids
  /-- A single worker does not ask beyond the first package that cannot be had. -/
  upTo : pool.workers ≤ 1 → ∀ before id after failure, ids = before ++ id :: after →
    (∀ earlier ∈ before, ∃ invoice, (fetch earlier).outcome = .ok invoice) →
    (fetch id).outcome = .error failure → calls = before ++ [id]

theorem calls_handled {pool : Pool} (scheduled : pool.Scheduled)
    (fetch : PackageId → Report Invoice) (ids : List PackageId) :
    Calls pool fetch ids (pool.handled .invoices fetch ids) where
  several := fun several => Pool.handled_perm scheduled several .invoices fetch ids
  all := by
    intro single had
    rw [Pool.handled, if_pos (Or.inl single)]
    exact Report.attempted_eq_self had
  upTo := by
    rintro single before id after failure rfl had failing
    rw [Pool.handled, if_pos (Or.inl single), Report.attempted_append had,
      Report.attempted_of_failing failing]

namespace Surroundings

variable {s : Surroundings} {supply : Supply} {pool : Pool} {order : Order} {manifest : Manifest}
  {path : Path} {source : Option (PackageId → Report Invoice)} {failure : Failure}

/-- The ways in which the packaging of a manifest can fail. -/
inductive FailsBy (order : Order) (manifest : Manifest)
    (source : Option (PackageId → Report Invoice)) (failure : Failure) : Prop
  | noSource (refers : manifest.references order.values ≠ []) (none : source = none)
    (same : failure = .config .noSource)
  | fetching {fetch : PackageId → Report Invoice} (given : source = some fetch)
    (first : FirstFault (fun ref => (fetch ref.package).outcome)
      (manifest.references order.values) failure)
  | files (own : failure.IsLocal)
  | clash {names : List String} (same : failure = .nameClash names)
  | handler {importing : Option String} {id : PackageId} {handlerId : String}
    {available : List String} (same : failure = .handlerMissing importing id handlerId available)

/-- An expansion does not miss the invoice of a package if it has those of the packages that
the selected entries refer to. -/
theorem failsBy_of_expand {c : ExpansionContext} (values : c.values = order.values)
    (complete : ∀ ref ∈ manifest.references order.values, c.external.lookup ref.package ≠ none)
    (failed : (c.expand manifest).outcome = .error failure) :
    FailsBy order manifest source failure := by
  rcases ExpansionContext.cases_of_expand failed with
    own | ⟨names, same⟩ | ⟨e, kept, ref, refers, unsourced⟩
  · exact .files own
  · exact .clash same
  · rw [values] at kept
    have stored := complete ref (Manifest.mem_references.mpr ⟨e, kept, refers⟩)
    rcases ExpansionContext.externalSource_eq_error.mp unsourced with
      ⟨missing, _⟩ | ⟨invoice, _, _, same⟩
    · exact absurd missing stored
    · exact .handler same

theorem failsBy_of_externalInvoices (supplied : (supply order).outcome = .ok source)
    (failed : (externalInvoices supply pool order (manifest.references order.values)).outcome =
      .error failure) : FailsBy order manifest source failure := by
  by_cases refers : manifest.references order.values = []
  · rw [refers, externalInvoices_nil] at failed
    exact absurd failed (by simp)
  · rw [externalInvoices_of_ne_nil refers, Report.outcome_bind, supplied, Outcome.ok_bind] at failed
    cases source with
    | none => exact .noSource refers rfl (Except.error.inj failed).symm
    | some fetch => exact .fetching rfl (prefetch_eq_error.mp failed)

/-- Foreign invoices that were got are those of all packages referred to. -/
theorem lookup_ne_none_of_externalInvoices {refs : List ExternalRef}
    {table : List (PackageId × Invoice)} (supplied : (supply order).outcome = .ok source)
    (provided : (externalInvoices supply pool order refs).outcome = .ok table) {ref : ExternalRef}
    (mem : ref ∈ refs) : table.lookup ref.package ≠ none := by
  rw [externalInvoices_of_ne_nil (List.ne_nil_of_mem mem), Report.outcome_bind, supplied,
    Outcome.ok_bind] at provided
  cases source with
  | none => exact absurd provided (by simp)
  | some fetch =>
    rcases lookup_of_prefetch provided mem with ⟨invoice, stored, _⟩
    simp [stored]

theorem failsBy_of_packageManifest (supplied : (supply order).outcome = .ok source)
    (failed : (s.packageManifest supply pool order manifest path).outcome = .error failure) :
    FailsBy order manifest source failure := by
  rw [outcome_packageManifest] at failed
  rcases Outcome.bind_eq_error.mp failed with unprovided | ⟨table, provided, rest⟩
  · exact failsBy_of_externalInvoices supplied unprovided
  · rcases Outcome.bind_eq_error.mp rest with unexpanded | ⟨_, _, finished⟩
    · refine failsBy_of_expand rfl (fun ref mem => ?_) unexpanded
      exact lookup_ne_none_of_externalInvoices supplied provided mem
    · exact absurd finished (by simp)

section Fetching

variable (refuses : ∀ fetch, source = some fetch → ∀ id failure,
  (fetch id).outcome = .error failure → ∃ cause, failure = .fetch cause)
include refuses

theorem isFetch_of_firstFault {fetch : PackageId → Report Invoice} (given : source = some fetch)
    {refs : List ExternalRef}
    (first : FirstFault (fun ref => (fetch ref.package).outcome) refs failure) :
    ∃ cause, failure = .fetch cause := by
  rcases first.exists_mem with ⟨ref, _, failing⟩
  exact refuses fetch given _ _ failing

theorem FailsBy.complete (fails : FailsBy order manifest source failure) :
    (∀ entry id, failure ≠ .invoiceMissing entry id) ∧
      ∀ importing id parcel, failure ≠ .notHandler importing id parcel := by
  cases fails with
  | noSource refers none same => simp [same]
  | fetching given first =>
    rcases isFetch_of_firstFault refuses given first with ⟨cause, same⟩
    simp [same]
  | files own =>
    constructor
    · rintro entry id rfl
      exact own
    · rintro importing id parcel rfl
      exact own
  | clash same => simp [same]
  | handler same => simp [same]

theorem failsBy_noSource (fails : FailsBy order manifest source (.config .noSource)) :
    manifest.references order.values ≠ [] ∧ source = none := by
  cases fails with
  | noSource refers none same => exact ⟨refers, none⟩
  | fetching given first =>
    rcases isFetch_of_firstFault refuses given first with ⟨cause, same⟩
    exact absurd same (by simp)
  | files own => exact own.elim
  | clash same => exact absurd same (by simp)
  | handler same => exact absurd same (by simp)

end Fetching

theorem failsBy_fetch {cause : FetchFault} (fails : FailsBy order manifest source (.fetch cause)) :
    ∃ fetch, source = some fetch ∧ FirstFault (fun ref => (fetch ref.package).outcome)
      (manifest.references order.values) (.fetch cause) := by
  cases fails with
  | noSource refers none same => exact absurd same (by simp)
  | fetching given first => exact ⟨_, given, first⟩
  | files own => exact own.elim
  | clash same => exact absurd same (by simp)
  | handler same => exact absurd same (by simp)

/-- How a build uses a supply that gives a source, or none. -/
structure Provides (s : Surroundings) (supply : Supply) (pool : Pool) (order : Order)
    (manifest : Manifest) (source : Option (PackageId → Report Invoice)) : Prop where
  /-- No foreign invoice is missed, and no dependencies are sought of what is no handler. -/
  complete : ∀ failure, (s.buildWith supply pool order).outcome = .error failure →
    (∀ entry id, failure ≠ .invoiceMissing entry id) ∧
      ∀ importing id parcel, failure ≠ .notHandler importing id parcel
  /-- The packages are those that an entry which takes part refers to, each once. -/
  distinct : (packages (manifest.references order.values)).Nodup
  referred : ∀ id, id ∈ packages (manifest.references order.values) ↔
    ∃ e ∈ manifest.matching order.values, ∃ ref, e.role.external? = some ref ∧ ref.package = id
  /-- What is asked for is what it takes to have a source, and then these packages. -/
  asked : ∀ fetch, source = some fetch →
    (∃ e ∈ manifest.matching order.values, ∃ ref, e.role.external? = some ref) →
    ∃ calls, Calls pool fetch (packages (manifest.references order.values)) calls ∧
      (s.buildWith supply pool order).requests =
        (supply order).requests ++ calls.flatMap fun id => (fetch id).requests
  /-- If no entry refers to a package, nothing is asked for, and any supply would do. -/
  unasked : (∀ e ∈ manifest.matching order.values, e.role.external? = none) →
    (s.buildWith supply pool order).requests = [] ∧
      ∀ other, s.buildWith other pool order = s.buildWith supply pool order
  /-- A failure of the source is that of the first reference whose package cannot be had. -/
  refused : ∀ cause, (s.buildWith supply pool order).outcome = .error (.fetch cause) ↔
    ∃ fetch, source = some fetch ∧ FirstFault (fun ref => (fetch ref.package).outcome)
      (manifest.references order.values) (.fetch cause)
  noSource : (s.buildWith supply pool order).outcome = .error (.config .noSource) ↔
    (∃ e ∈ manifest.matching order.values, ∃ ref, e.role.external? = some ref) ∧ source = none

/-- A build asks for the packages that its entries refer to and for no others, and has all
that it looks up. -/
theorem provides_of_loaded (loaded : (s.loadManifest order.source).outcome = .ok (manifest, path))
    (supplied : (supply order).outcome = .ok source)
    (refuses : ∀ fetch, source = some fetch → ∀ id failure, (fetch id).outcome = .error failure →
      ∃ cause, failure = .fetch cause)
    (scheduled : pool.Scheduled) : s.Provides supply pool order manifest source := by
  have fails {failure : Failure}
      (failed : (s.buildWith supply pool order).outcome = .error failure) :
      FailsBy order manifest source failure := by
    rw [outcome_buildWith loaded] at failed
    exact failsBy_of_packageManifest supplied failed
  refine ⟨fun _ failed => (fails failed).complete refuses, ExternalRef.nodup_packages _,
    fun _ => Manifest.mem_packages_references, ?asked, ?unasked, ?refused, ?noSource⟩
  case asked =>
    rintro fetch rfl refers
    refine ⟨_, calls_handled scheduled fetch _, ?_⟩
    rw [requests_buildWith loaded, requests_packageManifest,
      externalInvoices_of_ne_nil (Manifest.references_ne_nil.mpr refers),
      Report.requests_bind_of_ok supplied]
    exact congrArg _ (requests_prefetch fetch pool _)
  case unasked =>
    intro unreferring
    have none := Manifest.references_eq_nil.mpr unreferring
    refine ⟨?_, buildWith_congr loaded none⟩
    rw [requests_buildWith loaded, requests_packageManifest, none, externalInvoices_nil,
      Report.requests_pure]
  case refused =>
    refine fun cause => ⟨fun failed => failsBy_fetch (fails failed), ?_⟩
    rintro ⟨fetch, rfl, first⟩
    rcases first.exists_mem with ⟨ref, mem, _⟩
    rw [outcome_buildWith loaded]
    apply outcome_packageManifest_of_error
    rw [externalInvoices_of_ne_nil (List.ne_nil_of_mem mem), Report.outcome_bind, supplied]
    exact prefetch_eq_error.mpr first
  case noSource =>
    rw [← Manifest.references_ne_nil]
    refine ⟨fun failed => failsBy_noSource refuses (fails failed), ?_⟩
    rintro ⟨refers, rfl⟩
    rw [outcome_buildWith loaded]
    apply outcome_packageManifest_of_error
    rw [externalInvoices_of_ne_nil refers, Report.outcome_bind, supplied]
    rfl

def market : Surroundings where
  disk :=
    { nodes := [
        (["app"], .directory),
        (["app", "wagipack.yml"], .file <| String.toUTF8 <|
          "package: \x7bname: m, version: v\x7d\n" ++
          "handler:\n" ++
          "- \x7broute: a, external: \x7bpackage_id: x/v, handler_id: h\x7d\x7d\n" ++
          "- \x7broute: b, external: \x7bpackage_id: y/v, handler_id: h\x7d\x7d\n" ++
          "- \x7broute: c, external: \x7bpackage_id: z/v, handler_id: h\x7d, " ++
          "condition: $k==''\x7d\n")] }
  network := fun _ => .unreachable ""
  stamp := ⟨⟨⟨2024, 1, 2⟩, 3, 4, 5, 6, none⟩, none⟩

def marketManifest : Manifest where
  packageName := "m"
  packageVersion := "v"
  entries := [⟨.imported ⟨⟨"x", "v"⟩, "h"⟩ "a", none, .always⟩,
    ⟨.imported ⟨⟨"y", "v"⟩, "h"⟩ "b", none, .always⟩,
    ⟨.imported ⟨⟨"z", "v"⟩, "h"⟩ "c", none, .equal (.reference "k") (.literal "")⟩]

def marketOrder : Order where
  source := "/app"

/-- A source that asks a server for each package and has none. -/
def soldOut (id : PackageId) : Report Invoice := do
  Report.ask ⟨id.text, .null⟩
  Report.fail (.fetch (.malformed id))

def marketSupply : Supply := fun _ =>
  pure (some soldOut)

/-- Two workers ask for two packages. -/
theorem provides_of_loaded_market :
    ∃ path, (market.loadManifest marketOrder.source).outcome = .ok (marketManifest, path) ∧
      market.Provides marketSupply { workers := 2 } marketOrder marketManifest (some soldOut) ∧
      (market.buildWith marketSupply { workers := 2 } marketOrder).requests.map (·.url) =
        ["x/v", "y/v"] := by
  have found : ((market.loadManifest marketOrder.source).outcome.map
      fun loaded => decide (loaded.1 = marketManifest)).toOption = some true := by decide +kernel
  rcases Outcome.exists_of_toOption found with ⟨⟨manifest, path⟩, loaded, same⟩
  cases of_decide_eq_true same
  have refuses : ∀ fetch, some soldOut = some fetch → ∀ id failure,
      (fetch id).outcome = .error failure → ∃ cause, failure = .fetch cause := by
    intro fetch same id failure failing
    cases Option.some.inj same
    exact ⟨_, (Except.error.inj failing).symm⟩
  refine ⟨path, loaded, provides_of_loaded loaded rfl refuses (Pool.scheduled_inOrder 2), ?_⟩
  rw [requests_buildWith loaded, requests_packageManifest]
  decide +kernel

end Surroundings
end Consignment
