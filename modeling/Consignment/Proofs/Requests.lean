import Consignment.Proofs.Schedule
import Mathlib.Data.List.Basic

namespace Consignment

/-!
# What work asks for

Work in sequence asks for what its pieces ask for, up to the piece that fails.  Work for every
item in order therefore comes to the items up to the first on which it fails.  A pool that has
several workers comes to every item, in the order in which the pieces finish.

Most work asks for nothing.  `Quiet` says so, and every way of putting work together keeps it.
-/

namespace Report

variable {α β : Type}

theorem requests_bind_of_ok {r : Report α} {next : α → Report β} {a : α}
    (done : r.outcome = .ok a) : (r >>= next).requests = r.requests ++ (next a).requests := by
  simp only [bind, done]

theorem requests_bind_of_error {r : Report α} {next : α → Report β} {failure : Failure}
    (failed : r.outcome = .error failure) : (r >>= next).requests = r.requests := by
  simp only [bind, failed]

theorem requests_pure (a : α) : (pure a : Report α).requests = [] := rfl

theorem requests_note (notice : Notice) : (note notice).requests = [] := rfl

def Quiet (r : Report α) : Prop :=
  r.requests = []

/-- Work that is followed by nothing but quiet work. -/
theorem requests_bind_of_quiet {r : Report α} {next : α → Report β} (rest : ∀ a, (next a).Quiet) :
    (r >>= next).requests = r.requests := by
  cases done : r.outcome with
  | error failure => rw [requests_bind_of_error done]
  | ok a => rw [requests_bind_of_ok done, rest, List.append_nil]

/-- Something may be noted first. -/
theorem requests_noting {p : Prop} [Decidable p] {notice : Notice} {rest : Report α} :
    (if p then note notice >>= fun _ => rest else rest).requests = rest.requests := by
  split
  · rw [requests_bind_of_ok (outcome_note notice), requests_note, List.nil_append]
  · rfl

namespace Quiet

theorem pure (a : α) : (Pure.pure a : Report α).Quiet := rfl

theorem ofOutcome (outcome : Except Failure α) : (Report.ofOutcome outcome).Quiet := rfl

theorem fail (failure : Failure) : (Report.fail failure : Report α).Quiet := rfl

theorem note (notice : Notice) : (Report.note notice).Quiet := rfl

theorem notes (notices : List Notice) : (Report.notes notices).Quiet := rfl

theorem mapFailure {r : Report α} (quiet : r.Quiet) (f : Failure → Failure) :
    (r.mapFailure f).Quiet :=
  quiet

theorem bind {r : Report α} {next : α → Report β} (quiet : r.Quiet)
    (rest : ∀ a, (next a).Quiet) : (r >>= next).Quiet :=
  (requests_bind_of_quiet rest).trans quiet

theorem ite {p : Prop} [Decidable p] {first second : Report α} (yes : first.Quiet)
    (no : second.Quiet) : (if p then first else second).Quiet := by
  split
  · exact yes
  · exact no

theorem noting {p : Prop} [Decidable p] {notice : Notice} {rest : Report α} (quiet : rest.Quiet) :
    (if p then Report.note notice >>= fun _ => rest else rest).Quiet :=
  requests_noting.trans quiet

end Quiet

/-- The items that work in order comes to: all up to the first on which it fails. -/
def attempted (work : α → Report β) : List α → List α
  | [] => []
  | item :: rest =>
    match (work item).outcome with
    | .error _ => [item]
    | .ok _ => item :: attempted work rest

theorem requests_forAll (items : List α) (work : α → Report β) :
    (forAll items work).requests =
      (attempted work items).flatMap fun item => (work item).requests := by
  induction items with
  | nil => rfl
  | cons item rest ih =>
    rw [forAll, attempted]
    cases done : (work item).outcome with
    | error failure =>
      rw [requests_bind_of_error done, List.flatMap_singleton]
    | ok result =>
      rw [requests_bind_of_ok done, requests_bind_of_quiet fun _ => .pure _, List.flatMap_cons, ih]

theorem Quiet.forAll {items : List α} {work : α → Report β} (quiet : ∀ item, (work item).Quiet) :
    (forAll items work).Quiet := by
  rw [Quiet, requests_forAll, List.flatMap_eq_nil_iff]
  exact fun item _ => quiet item

theorem attempted_append {work : α → Report β} {before rest : List α}
    (done : ∀ item ∈ before, ∃ result, (work item).outcome = .ok result) :
    attempted work (before ++ rest) = before ++ attempted work rest := by
  induction before with
  | nil => rfl
  | cons item before ih =>
    rcases done item List.mem_cons_self with ⟨result, here⟩
    rw [List.cons_append, attempted, here, List.cons_append]
    simp only
    rw [ih fun other mem => done other (List.mem_cons_of_mem _ mem)]

theorem attempted_eq_self {work : α → Report β} {items : List α}
    (done : ∀ item ∈ items, ∃ result, (work item).outcome = .ok result) :
    attempted work items = items := by
  have all : attempted work (items ++ []) = items ++ [] := attempted_append done
  rwa [List.append_nil] at all

theorem attempted_of_failing {work : α → Report β} {item : α} {failure : Failure}
    (failing : (work item).outcome = .error failure) (rest : List α) :
    attempted work (item :: rest) = [item] := by
  rw [attempted, failing]

end Report

namespace Pool

variable {α β : Type}

/-- The items of pooled work in the order in which the pool comes to them. -/
def handled (pool : Pool) (batch : Batch) (work : α → Report β) (items : List α) : List α :=
  if pool.workers ≤ 1 ∨ items.length ≤ 1 then Report.attempted work items
  else (pool.finishing batch items.length).filterMap fun i => items[i]?

theorem requests_gather (pool : Pool) (batch : Batch) (work : α → Report β) (items : List α) :
    (pool.gather batch (items.map work)).requests =
      (pool.handled batch work items).flatMap fun item => (work item).requests := by
  have inOrder : Report.forAll (items.map work) id = Report.forAll items work := by
    induction items with
    | nil => rfl
    | cons item rest ih => rw [List.map_cons, Report.forAll, Report.forAll, ih, id]
  have asFinished (positions : List Nat) :
      (positions.filterMap fun i => ((items.map work)[i]?).map fun task => (i, task)).flatMap
          (·.2.requests) =
        (positions.filterMap fun i => items[i]?).flatMap fun item => (work item).requests := by
    induction positions with
    | nil => rfl
    | cons i rest ih =>
      rw [List.filterMap_cons, List.filterMap_cons, List.getElem?_map]
      cases items[i]? with
      | none => exact ih
      | some item =>
        simp only [Option.map_some, List.flatMap_cons]
        rw [ih]
  unfold gather handled finished
  rw [List.length_map]
  split
  · rw [inOrder, Report.requests_forAll]
  · exact asFinished _

/-- Pooled work asks for nothing if no piece of it does. -/
theorem quiet_gather {pool : Pool} {batch : Batch} {work : α → Report β} {items : List α}
    (quiet : ∀ item, (work item).Quiet) : (pool.gather batch (items.map work)).Quiet := by
  rw [Report.Quiet, requests_gather, List.flatMap_eq_nil_iff]
  exact fun item _ => quiet item

theorem filterMap_getElem?_range (items : List α) :
    ((List.range items.length).filterMap fun i => items[i]?) = items := by
  induction items with
  | nil => rfl
  | cons item rest ih =>
    have first : (item :: rest)[0]? = some item := rfl
    rw [List.length_cons, List.range_succ_eq_map, List.filterMap_cons, first, List.filterMap_map]
    exact congrArg (item :: ·) ih

/-- With several workers the pool comes to every item once, whether or not it fails. -/
theorem handled_perm {pool : Pool} (scheduled : pool.Scheduled) (several : 1 < pool.workers)
    (batch : Batch) (work : α → Report β) (items : List α) :
    (pool.handled batch work items).Perm items := by
  unfold handled
  split
  · rename_i serial
    have few : items.length ≤ 1 := serial.resolve_left (Nat.not_le.mpr several)
    match items with
    | [] => exact List.Perm.refl _
    | [item] =>
      rw [Report.attempted]
      cases (work item).outcome <;> exact List.Perm.refl _
    | _ :: _ :: _ => simp at few
  · have all := (scheduled.perm several batch items.length).filterMap fun i => items[i]?
    rwa [filterMap_getElem?_range] at all

end Pool
end Consignment
