import Consignment.Proofs.Expansion.Selecting
import Consignment.Proofs.Glob.Relisting
import Consignment.Proofs.Packaging.Prefetching

namespace Consignment

/-!
# The same build on another machine

Two machines can list the same directories in different orders, have different numbers of
workers, and finish the pieces of a batch in different orders.  Nothing of this is seen in
the outcome of a build, which is that of one worker who takes the pieces in the order given.

What a pattern matches is sorted before anything is done with it, and so the batches are the
same on both machines.  The results of a batch are collected by position, and so are its
failures.  Every order of finishing is allowed, those that no workers could come to included.
-/

def Pool.single : Pool :=
  { workers := 1 }

namespace ExpansionContext

open Outcome (FirstFault)

def on (c : ExpansionContext) (d : Disk) (pool : Pool) : ExpansionContext :=
  { c with disk := d, pool }

variable {c : ExpansionContext} {d : Disk}

theorem matchedFiles_on (orderly : c.disk.Orderly) (relisted : c.disk.Relisted d) (pool : Pool)
    (pattern : String) :
    (c.matchedFiles pattern).outcome = ((c.on d pool).matchedFiles pattern).outcome := by
  have alike := Glob.alike_matching orderly relisted c.base pattern
  have isFile : c.disk.isFile = d.isFile := funext (relisted.isFile orderly)
  simp only [matchedFiles, on, Report.outcome_bind, Report.outcome_ofOutcome, isFile]
  generalize Glob.matching c.disk c.base pattern = first at alike ⊢
  generalize Glob.matching d c.base pattern = second at alike ⊢
  cases alike with
  | found perm => simp only [Except.mapError, Outcome.ok_bind, Text.sorted_eq_of_perm perm]
  | refused => rfl

theorem sameFiles_on (orderly : c.disk.Orderly) (relisted : c.disk.Relisted d) (pool : Pool) :
    SameFiles c (c.on d pool) where
  base := rfl
  read := relisted.read orderly
  matched := matchedFiles_on orderly relisted pool

theorem outcome_expand_on (orderly : c.disk.Orderly) (relisted : c.disk.Relisted d) (pool : Pool)
    (manifest : Manifest) :
    ((c.on d pool).expand manifest).outcome = (c.expand manifest).outcome :=
  (outcome_expand_congr (sameFiles_on orderly relisted pool) rfl rfl (.refl manifest) rfl
    fun _ _ => rfl).symm

/-- What a build gives when its directories are listed as on another disk and its batches are
done by another pool. -/
structure Reproduces (c : ExpansionContext) (d : Disk) (pool : Pool) (manifest : Manifest)
    (fetch : PackageId → Report Invoice) (refs : List ExternalRef) : Prop where
  /-- The invoice or the failure of one worker. -/
  expansion :
    ((c.on d pool).expand manifest).outcome = ((c.on c.disk .single).expand manifest).outcome
  /-- The failure of the first entry or file in order for which a kind of work fails. -/
  firstFailure : ∀ failure,
    ((c.on d pool).expand manifest).outcome = .error failure ↔ c.EndsWith manifest failure
  /-- The foreign invoices that one worker gets, or the failure. -/
  table : (prefetch fetch pool refs).outcome = (prefetch fetch .single refs).outcome
  /-- The failure of the first reference whose package cannot be had. -/
  firstRefusal : ∀ failure, (prefetch fetch pool refs).outcome = .error failure ↔
    FirstFault (fun ref => (fetch ref.package).outcome) refs failure

/-- Neither the order in which a disk is listed, nor the number of workers, nor the order in
which pieces finish is seen in what a build gives. -/
theorem reproduces_of_relisted (orderly : c.disk.Orderly) (relisted : c.disk.Relisted d)
    (pool : Pool) (manifest : Manifest) (fetch : PackageId → Report Invoice)
    (refs : List ExternalRef) : c.Reproduces d pool manifest fetch refs where
  expansion := by
    have same : c.disk.Relisted c.disk := ⟨.refl _, rfl⟩
    rw [outcome_expand_on orderly relisted pool, outcome_expand_on orderly same]
  firstFailure := by
    intro failure
    rw [outcome_expand_on orderly relisted pool]
    exact expand_eq_error
  table := by rw [outcome_prefetch, outcome_prefetch]
  firstRefusal := fun _ => prefetch_eq_error

/-- Three files in one directory, not in the order of their names. -/
def shelf : ExpansionContext where
  base := ⟨.root, ["app"]⟩
  disk :=
    { nodes := [(["app"], .directory), (["app", "m"], .file ⟨#[1, 2]⟩),
        (["app", "b"], .file ⟨#[3]⟩), (["app", "a"], .file ⟨#[4]⟩)] }
  versioning := .production
  stamp := ⟨⟨⟨2024, 1, 2⟩, 3, 4, 5, 6, none⟩, none⟩

def shelved : Manifest where
  packageName := "shelf"
  packageVersion := "1"
  entries := [⟨.handler "m" "/", some ["*"], .always⟩, ⟨.exported "a" "first", none, .always⟩]

/-- The shelf is listed from its other end, by workers who finish the last piece first. -/
theorem reproduces_of_relisted_shelf :
    let d := { shelf.disk with nodes := shelf.disk.nodes.reverse }
    let pool : Pool := { workers := 4, finishing := fun _ size => (List.range size).reverse }
    let fetch := fun id => Report.fail (.fetch (.malformed id))
    let refs := [⟨⟨"x", "1"⟩, "h"⟩, ⟨⟨"y", "1"⟩, "h"⟩]
    (Glob.matching shelf.disk shelf.base "*").toOption = some ["m", "b", "a"] ∧
      (Glob.matching d shelf.base "*").toOption = some ["a", "b", "m"] ∧
      shelf.Reproduces d pool shelved fetch refs ∧
      (prefetch fetch pool refs).outcome = .error (.fetch (.malformed ⟨"x", "1"⟩)) := by
  have orderly : shelf.disk.Orderly := ⟨by decide, by decide⟩
  have relisted : shelf.disk.Relisted { shelf.disk with nodes := shelf.disk.nodes.reverse } :=
    ⟨(List.reverse_perm _).symm, rfl⟩
  intro d pool fetch refs
  have reproduces := reproduces_of_relisted orderly relisted pool shelved fetch refs
  have first : Outcome.FirstFault (fun ref => (fetch ref.package).outcome) refs
      (.fetch (.malformed ⟨"x", "1"⟩)) := ⟨[], _, _, rfl, by simp, rfl⟩
  exact ⟨by decide +kernel, by decide +kernel, reproduces, (reproduces.firstRefusal _).mpr first⟩

end ExpansionContext
end Consignment
