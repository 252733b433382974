import Consignment.Failure
import Consignment.Notice

namespace Consignment

/-!
# Work that reports

A `Report` is the result of a piece of work: what it noted, what it asked other servers
for, and its outcome, which is a result or the failure that ended it.  Work in sequence
notes and asks in sequence, and the first failure ends it.

Notices and the list of requests never influence an outcome.  `outcome` is therefore
compatible with every way of putting work together, and the lemmas here say so; a
statement about results needs nothing else about reports.
-/

/-- A document that was asked for, and how long an answer was waited for. -/
structure Request where
  url : String
  timeout : Value

structure Report (α : Type) where
  notices : List Notice := []
  requests : List Request := []
  outcome : Except Failure α

namespace Report

variable {α β : Type}

def ofOutcome (outcome : Except Failure α) : Report α :=
  { outcome }

def fail (failure : Failure) : Report α :=
  { outcome := .error failure }

def note (notice : Notice) : Report Unit :=
  { notices := [notice], outcome := .ok () }

def notes (notices : List Notice) : Report Unit :=
  { notices, outcome := .ok () }

def ask (request : Request) : Report Unit :=
  { requests := [request], outcome := .ok () }

instance : Monad Report where
  pure a := { outcome := .ok a }
  bind r f :=
    match r.outcome with
    | .error failure => { r with outcome := .error failure }
    | .ok a =>
      { notices := r.notices ++ (f a).notices
        requests := r.requests ++ (f a).requests
        outcome := (f a).outcome }

@[simp] theorem outcome_pure (a : α) : (pure a : Report α).outcome = .ok a := rfl

@[simp] theorem outcome_ofOutcome (outcome : Except Failure α) :
    (ofOutcome outcome).outcome = outcome := rfl

@[simp] theorem outcome_fail (failure : Failure) :
    (fail failure : Report α).outcome = .error failure := rfl

@[simp] theorem outcome_note (notice : Notice) : (note notice).outcome = .ok () := rfl

@[simp] theorem outcome_ask (request : Request) : (ask request).outcome = .ok () := rfl

@[simp] theorem outcome_notes (notices : List Notice) : (notes notices).outcome = .ok () := rfl

/-- The outcome of work in sequence is the outcomes in sequence. -/
@[simp] theorem outcome_bind (r : Report α) (f : α → Report β) :
    (r >>= f).outcome = r.outcome >>= fun a => (f a).outcome := by
  obtain ⟨notices, requests, outcome⟩ := r
  cases outcome <;> rfl

instance : LawfulMonad Report :=
  LawfulMonad.mk' Report
    (fun r => by
      obtain ⟨notices, requests, outcome⟩ := r
      cases outcome <;> simp [Functor.map])
    (fun a f => by simp [bind, pure])
    (fun r f g => by
      obtain ⟨notices, requests, outcome⟩ := r
      cases outcome with
      | error failure => rfl
      | ok a =>
        simp only [bind]
        cases (f a).outcome <;> simp)

/-- Give a failure another meaning. -/
def mapFailure (f : Failure → Failure) (r : Report α) : Report α :=
  { r with outcome := r.outcome.mapError f }

def forAll (items : List α) (work : α → Report β) : Report (List β) :=
  match items with
  | [] => pure []
  | item :: rest => do
    let first ← work item
    let others ← forAll rest work
    return first :: others

/-- The results for every item in order, or the failure of the first that fails. -/
theorem outcome_forAll (items : List α) (work : α → Report β) :
    (forAll items work).outcome = items.mapM fun item => (work item).outcome := by
  induction items with
  | nil => rfl
  | cons item rest ih =>
    simp only [forAll, outcome_bind, outcome_pure, ih, List.mapM_cons]
    rfl

end Report
end Consignment
