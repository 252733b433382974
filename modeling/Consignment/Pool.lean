import Consignment.Report

namespace Consignment

/-!
# Pools of workers

Pieces of work that do not depend on each other can be given to several workers.  The
pieces then finish in some order of their own, and the results are put back into the
order in which the work was given out.  A single worker takes the pieces in order and
stops at the first failure; several workers finish all pieces, and the failure of the
first piece that failed, in the order given, is the one that counts.

The results are therefore the same for any number of workers and any order of
finishing, which is what `outcome_gather` says.
-/

inductive Batch where
  /-- The invoices of other packages. -/
  | invoices
  /-- The modules of the entries. -/
  | modules
  /-- The files that patterns match. -/
  | files

structure Pool where
  workers : Nat := 1
  /-- The positions of so many pieces of a batch in the order in which they finish. -/
  finishing : Batch → Nat → List Nat := fun _ => List.range

namespace Pool

variable {α : Type}

/-- The pieces with their positions, in the order in which they finish. -/
def finished (pool : Pool) (batch : Batch) (tasks : List (Report α)) : List (Nat × Report α) :=
  (pool.finishing batch tasks.length).filterMap fun i => (tasks[i]?).map fun task => (i, task)

/-- The piece at a position as it finished, or as it was given if it is still open. -/
def resultAt (pool : Pool) (batch : Batch) (tasks : List (Report α)) (task : Report α) (i : Nat) :
    Report α :=
  ((pool.finished batch tasks).lookup i).getD task

/-- Do all the work and collect the results in the order given. -/
def gather (pool : Pool) (batch : Batch) (tasks : List (Report α)) : Report (List α) :=
  if pool.workers ≤ 1 ∨ tasks.length ≤ 1 then Report.forAll tasks id
  else
    { notices := (pool.finished batch tasks).flatMap (·.2.notices)
      requests := (pool.finished batch tasks).flatMap (·.2.requests)
      outcome := tasks.zipIdx.mapM fun entry =>
        (pool.resultAt batch tasks entry.1 entry.2).outcome }

private theorem getElem?_of_lookup {tasks : List (Report α)} {positions : List Nat} {i : Nat}
    {task : Report α}
    (found : (positions.filterMap fun i => (tasks[i]?).map fun task => (i, task)).lookup i
      = some task) : tasks[i]? = some task := by
  induction positions with
  | nil => simp at found
  | cons j rest ih =>
    cases held : tasks[j]? with
    | none =>
      rw [List.filterMap_cons_none (by simp [held])] at found
      exact ih found
    | some other =>
      rw [List.filterMap_cons_some (b := (j, other)) (by simp [held])] at found
      by_cases same : i = j
      · subst same
        simp at found
        rw [held, found]
      · have differs : (i == j) = false := by simpa using same
        simp only [List.lookup_cons, differs] at found
        exact ih found

theorem resultAt_eq (pool : Pool) (batch : Batch) {tasks : List (Report α)} {task : Report α} {i : Nat}
    (given : tasks[i]? = some task) : pool.resultAt batch tasks task i = task := by
  unfold resultAt
  cases found : (pool.finished batch tasks).lookup i with
  | none => rfl
  | some other =>
    have held := getElem?_of_lookup found
    rw [given] at held
    simp only [Option.some.injEq] at held
    simp [held]

private theorem mapM_zipIdx (pool : Pool) (batch : Batch) (tasks part : List (Report α))
    (offset : Nat) (given : ∀ i task, part[i]? = some task → tasks[offset + i]? = some task) :
    ((part.zipIdx offset).mapM fun entry => (pool.resultAt batch tasks entry.1 entry.2).outcome)
      = part.mapM Report.outcome := by
  induction part generalizing offset with
  | nil => rfl
  | cons task rest ih =>
    have here := pool.resultAt_eq batch (given 0 task rfl)
    have later := ih (offset + 1) fun i other mem => by
      have := given (i + 1) other (by simpa using mem)
      rwa [Nat.add_assoc, Nat.add_comm 1 i]
    simp only [Nat.add_zero] at here
    simp only [List.zipIdx_cons, List.mapM_cons, here, later]

/-- The results do not depend on the number of workers nor on the order in which the
pieces finish. -/
theorem outcome_gather (pool : Pool) (batch : Batch) (tasks : List (Report α)) :
    (pool.gather batch tasks).outcome = tasks.mapM Report.outcome := by
  unfold gather
  split
  · rw [Report.outcome_forAll]
    rfl
  · exact mapM_zipIdx pool batch tasks tasks 0 fun i task held => by simpa using held

end Pool
end Consignment
