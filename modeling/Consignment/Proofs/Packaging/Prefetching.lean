import Consignment.Proofs.Dependency.Walk
import Consignment.Proofs.Outcome
import Consignment.Proofs.Requests
import Consignment.Source

namespace Consignment

/-!
# Asking for the invoices of other packages

The packages that entries refer to are asked for before anything is expanded.  The table that
comes of it has an invoice for every reference, and for no other package.  Without a table the
failure is that of the first package, in the order of the first references, that cannot be
had, for any number of workers and any order in which the answers come.
-/

open Outcome (FirstFault)

namespace ExternalRef

theorem mem_packages {refs : List ExternalRef} {id : PackageId} :
    id ∈ packages refs ↔ ∃ ref ∈ refs, ref.package = id := by
  rw [packages, List.mem_eraseDups, List.mem_map]

theorem nodup_packages (refs : List ExternalRef) : (packages refs).Nodup :=
  nodup_eraseDups _

end ExternalRef

section Prefetching

open ExternalRef (packages)

variable (fetch : PackageId → Report Invoice) (pool : Pool) (refs : List ExternalRef)

theorem outcome_prefetch :
    (prefetch fetch pool refs).outcome = (do
      let invoices ← (packages refs).mapM fun id => (fetch id).outcome
      .ok ((packages refs).zip invoices)) := by
  unfold prefetch
  simp only [Report.outcome_ite, Report.outcome_bind, Report.outcome_note, Report.outcome_pure,
    Outcome.ok_bind, Pool.outcome_gather, List.mapM_map]
  split
  · rename_i none
    rw [List.isEmpty_iff.mp none]
    rfl
  · rfl

/-- The pool asks for each package when it comes to it. -/
theorem requests_prefetch :
    (prefetch fetch pool refs).requests =
      (pool.handled .invoices fetch (packages refs)).flatMap fun id => (fetch id).requests := by
  unfold prefetch
  rcases asked : packages refs with _ | ⟨first, rest⟩
  · have serial : pool.workers ≤ 1 ∨ ([] : List PackageId).length ≤ 1 := Or.inr (Nat.zero_le 1)
    rw [Pool.handled, if_pos serial]
    rfl
  · rw [← Pool.requests_gather]
    simp only [List.isEmpty_cons, Bool.false_eq_true, if_false]
    rw [Report.requests_bind_of_ok (Report.outcome_note _), Report.requests_note, List.nil_append,
      Report.requests_bind_of_quiet fun _ => .pure _]

variable {fetch pool refs}

/-- The failure is that of the first reference whose package cannot be had. -/
theorem prefetch_eq_error {failure : Failure} :
    (prefetch fetch pool refs).outcome = .error failure ↔
      FirstFault (fun ref => (fetch ref.package).outcome) refs failure := by
  have onePerPackage : FirstFault (fun id => (fetch id).outcome) (packages refs) failure ↔
      FirstFault (fun ref => (fetch ref.package).outcome) refs failure := by
    rw [packages, Outcome.firstFault_eraseDups, ← Outcome.mapM_eq_error, List.mapM_map,
      Outcome.mapM_eq_error]
    rfl
  rw [outcome_prefetch, Outcome.bind_eq_error, Outcome.mapM_eq_error, onePerPackage]
  simp

theorem lookup_zip {ids : List PackageId} {invoices : List Invoice}
    (fetched : List.Forall₂ (fun id invoice => (fetch id).outcome = .ok invoice) ids invoices)
    {id : PackageId} (mem : id ∈ ids) :
    ∃ invoice, (ids.zip invoices).lookup id = some invoice ∧ (fetch id).outcome = .ok invoice := by
  induction fetched with
  | nil => exact absurd mem List.not_mem_nil
  | @cons first invoice ids invoices here _ ih =>
    rw [List.zip_cons_cons, List.lookup_cons]
    cases same : id == first with
    | true => exact ⟨invoice, rfl, beq_iff_eq.mp same ▸ here⟩
    | false =>
      rcases List.mem_cons.mp mem with equal | later
      · exact absurd equal (beq_eq_false_iff_ne.mp same)
      · exact ih later

/-- A table pairs the packages, each once, with what was fetched for them. -/
theorem prefetch_eq_ok {table : List (PackageId × Invoice)} :
    (prefetch fetch pool refs).outcome = .ok table ↔
      ∃ invoices, List.Forall₂ (fun id invoice => (fetch id).outcome = .ok invoice)
        (packages refs) invoices ∧ (packages refs).zip invoices = table := by
  simp only [outcome_prefetch, Outcome.bind_eq_ok, Outcome.mapM_eq_ok, Except.ok.injEq]

/-- Every package that is referred to is in the table. -/
theorem lookup_of_prefetch {table : List (PackageId × Invoice)}
    (fetched : (prefetch fetch pool refs).outcome = .ok table) {ref : ExternalRef}
    (mem : ref ∈ refs) :
    ∃ invoice, table.lookup ref.package = some invoice ∧
      (fetch ref.package).outcome = .ok invoice := by
  rcases prefetch_eq_ok.mp fetched with ⟨invoices, had, rfl⟩
  exact lookup_zip had (ExternalRef.mem_packages.mpr ⟨ref, mem, rfl⟩)

/-- The keys of the table are the packages that are referred to. -/
theorem keys_of_prefetch {table : List (PackageId × Invoice)}
    (fetched : (prefetch fetch pool refs).outcome = .ok table) :
    table.map Prod.fst = packages refs := by
  rcases prefetch_eq_ok.mp fetched with ⟨invoices, had, rfl⟩
  exact List.map_fst_zip (Nat.le_of_eq had.length_eq)

end Prefetching
end Consignment
