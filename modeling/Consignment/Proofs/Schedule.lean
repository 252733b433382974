import Consignment.Pool
import Mathlib.Data.List.Basic

namespace Consignment
namespace Pool

/-!
# Workers that share a batch

The pieces of a batch wait in the order in which they are given.  A worker that is free takes
the next one, and of the pieces that are worked at any one can be the next to finish.  Nothing
is assumed of how long a piece takes, and a piece that fails finishes like any other.

At every moment each piece is in one place: it waits, it is worked at, or it has finished.
When none waits and none is worked at, all have finished, and each once.
-/

/-- Where the pieces of a batch are, by their positions. -/
structure Progress where
  waiting : List Nat
  running : List Nat
  /-- In the order of finishing. -/
  finished : List Nat

def Progress.pieces (p : Progress) : List Nat :=
  p.waiting ++ (p.running ++ p.finished)

/-- One event among so many workers. -/
inductive Step (workers : Nat) : Progress → Progress → Prop
  | start {next : Nat} {waiting running finished : List Nat} (free : running.length < workers) :
    Step workers ⟨next :: waiting, running, finished⟩ ⟨waiting, next :: running, finished⟩
  | finish {i : Nat} {waiting before after finished : List Nat} :
    Step workers ⟨waiting, before ++ i :: after, finished⟩
      ⟨waiting, before ++ after, finished ++ [i]⟩

/-- Where the pieces of a batch of some size can come to be. -/
inductive Reached (workers size : Nat) : Progress → Prop
  | given : Reached workers size ⟨List.range size, [], []⟩
  | step {p q : Progress} (before : Reached workers size p) (event : Step workers p q) :
    Reached workers size q

variable {workers size : Nat} {p q : Progress}

/-- An event moves one piece. -/
theorem Step.perm (event : Step workers p q) : p.pieces.Perm q.pieces := by
  cases event with
  | start free => exact List.perm_middle.symm
  | @finish i waiting before after finished =>
    apply List.Perm.append_left
    rw [List.append_assoc, List.append_assoc, List.cons_append]
    apply List.Perm.append_left
    rw [← List.append_assoc]
    exact (List.perm_append_singleton i (after ++ finished)).symm

theorem Reached.perm (reached : Reached workers size p) : p.pieces.Perm (List.range size) := by
  induction reached with
  | given => exact .of_eq (List.append_nil _)
  | step _ event ih => exact event.perm.symm.trans ih

/-- The orders of finishing are such as the pool's workers can come to.  A pool without a second
worker takes the pieces as they are given, and does not look at these orders. -/
def Scheduled (pool : Pool) : Prop :=
  1 < pool.workers → ∀ batch size, Reached pool.workers size ⟨[], [], pool.finishing batch size⟩

/-- Several workers finish every piece of a batch, and each once. -/
theorem Scheduled.perm {pool : Pool} (scheduled : pool.Scheduled) (several : 1 < pool.workers)
    (batch : Batch) (size : Nat) : (pool.finishing batch size).Perm (List.range size) :=
  (scheduled several batch size).perm

/-- Any number of workers can finish the pieces in the order given. -/
theorem scheduled_inOrder (workers : Nat) : ({ workers } : Pool).Scheduled := by
  intro several batch size
  have some : 0 < workers := Nat.lt_of_succ_lt several
  have finishAll (waiting : List Nat) : ∀ finished, Reached workers size ⟨waiting, [], finished⟩ →
      Reached workers size ⟨[], [], finished ++ waiting⟩ := by
    induction waiting with
    | nil =>
      intro finished reached
      rwa [List.append_nil]
    | cons next rest ih =>
      intro finished reached
      have started := reached.step (.start some)
      have done := started.step (@Step.finish workers next rest [] [] finished)
      have remaining := ih _ done
      rwa [List.append_assoc] at remaining
  exact finishAll _ [] .given

end Pool
end Consignment
