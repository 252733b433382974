import Consignment.Proofs.Outcome

namespace Consignment
namespace Outcome

/-!
# How work can end

A statement about work that can fail has two halves: what is true of its result, and which
faults it can end with.  `Ends` says both at once, so that the result of one piece of work
can be an assumption about the next.  There is one rule for each way of putting work
together; with these the end of a function follows its text.
-/

variable {α β ε ε' : Type}

/-- Work that gives only results of one kind and fails only with faults of another. -/
def Ends (result : α → Prop) (failure : ε → Prop) : Except ε α → Prop
  | .ok a => result a
  | .error fault => failure fault

variable {Q : α → Prop} {R : β → Prop} {P : ε → Prop}

@[simp, grind =] theorem ends_ok (a : α) : Ends Q P (.ok a) ↔ Q a := Iff.rfl

@[simp, grind =] theorem ends_pure (a : α) : Ends Q P (pure a) ↔ Q a := Iff.rfl

@[simp, grind =] theorem ends_error (fault : ε) : Ends Q P (.error fault) ↔ P fault := Iff.rfl

@[simp, grind =] theorem ends_throw (fault : ε) : Ends Q P (throw fault) ↔ P fault := Iff.rfl

/-- Work of which nothing need be known. -/
theorem ends_any (outcome : Except ε α) : Ends (fun _ => True) (fun _ => True) outcome := by
  cases outcome <;> trivial

/-- Work in sequence, where what is known of the first result is known to the rest. -/
theorem Ends.bind {outcome : Except ε α} {next : α → Except ε β} (first : Ends Q P outcome)
    (rest : ∀ a, Q a → Ends R P (next a)) : Ends R P (outcome >>= next) := by
  cases outcome with
  | error fault => exact first
  | ok a => exact rest a first

/-- Work in sequence, where nothing need be known of the first result. -/
@[grind ←]
theorem Ends.bind_any {outcome : Except ε α} {next : α → Except ε β}
    (first : Ends (fun _ => True) P outcome) (rest : ∀ a, Ends R P (next a)) :
    Ends R P (outcome >>= next) :=
  first.bind fun a _ => rest a

theorem Ends.ite {p : Prop} [Decidable p] {first second : Except ε α} (yes : Ends Q P first)
    (no : Ends Q P second) : Ends Q P (if p then first else second) := by
  split
  · exact yes
  · exact no

/-- Either piece of work, and the same work after both. -/
theorem Ends.choice {p : Prop} [Decidable p] {first second : Except ε α}
    {next : α → Except ε β} (yes : Ends Q P first) (no : Ends Q P second)
    (rest : ∀ a, Q a → Ends R P (next a)) :
    Ends R P (if p then first >>= next else second >>= next) :=
  .ite (yes.bind rest) (no.bind rest)

theorem Ends.mono {Q' : α → Prop} {P' : ε → Prop} {outcome : Except ε α} (ends : Ends Q P outcome)
    (result : ∀ a, Q a → Q' a) (failure : ∀ fault, P fault → P' fault) : Ends Q' P' outcome := by
  cases outcome with
  | error fault => exact failure fault ends
  | ok a => exact result a ends

theorem ends_map {f : α → β} {outcome : Except ε α} :
    Ends R P (outcome.map f) ↔ Ends (fun a => R (f a)) P outcome := by
  cases outcome <;> rfl

theorem ends_mapError {P' : ε' → Prop} {f : ε → ε'} {outcome : Except ε α} :
    Ends Q P' (outcome.mapError f) ↔ Ends Q (fun fault => P' (f fault)) outcome := by
  cases outcome <;> rfl

@[grind ←]
theorem Ends.map_any {f : α → β} {outcome : Except ε α} (ends : Ends (fun _ => True) P outcome) :
    Ends (fun _ => True) P (outcome.map f) :=
  ends_map.mpr ends

/-- Work whose faults all get a meaning of one kind. -/
@[grind ←]
theorem Ends.mapError_any {P' : ε' → Prop} {f : ε → ε'} {outcome : Except ε α}
    (meaning : ∀ fault, P' (f fault)) : Ends (fun _ => True) P' (outcome.mapError f) := by
  cases outcome with
  | error fault => exact meaning fault
  | ok a => trivial

theorem mapError_eq_error {f : ε → ε'} {outcome : Except ε α} {fault : ε'} :
    outcome.mapError f = .error fault ↔ ∃ cause, outcome = .error cause ∧ f cause = fault := by
  cases outcome <;> simp [Except.mapError]

/-- Work for every item of a list. -/
theorem ends_mapM {work : α → Except ε β} {items : List α}
    (each : ∀ item ∈ items, Ends R P (work item)) :
    Ends (fun results => ∀ result ∈ results, R result) P (items.mapM work) := by
  induction items with
  | nil => exact fun result mem => absurd mem List.not_mem_nil
  | cons item rest ih =>
    rw [List.mapM_cons]
    refine (each item List.mem_cons_self).bind fun first here => ?_
    refine (ih fun other mem => each other (List.mem_cons_of_mem _ mem)).bind fun others later => ?_
    intro result mem
    rcases List.mem_cons.mp mem with rfl | mem
    · exact here
    · exact later result mem

/-- What work gives is the result of that work. -/
theorem Ends.known {outcome : Except ε α} (ends : Ends Q P outcome) :
    Ends (fun a => outcome = .ok a ∧ Q a) P outcome := by
  cases outcome with
  | error fault => exact ends
  | ok a => exact ⟨rfl, ends⟩

theorem Ends.mapM_any {work : α → Except ε β} {items : List α}
    (each : ∀ item ∈ items, Ends (fun _ => True) P (work item)) :
    Ends (fun _ => True) P (items.mapM work) :=
  (ends_mapM each).mono (fun _ _ => trivial) fun _ => id

theorem Ends.of_error {outcome : Except ε α} {fault : ε} (ends : Ends Q P outcome)
    (failed : outcome = .error fault) : P fault := by
  rwa [failed] at ends

theorem Ends.of_ok {outcome : Except ε α} {a : α} (ends : Ends Q P outcome)
    (done : outcome = .ok a) : Q a := by
  rwa [done] at ends

end Outcome

open Outcome

/-- Work keeps a contract but for some faults of the layers below.  Its results are right, and
whatever it fails with is a proper failure or a fault that is let pass.  Which faults are let
pass is known exactly, except that an integer too long to be written out is let pass only if
there is one. -/
structure Contract {α : Type} (result : α → Prop) (proper : Failure → Prop) (gap : Fault → Prop)
    (long : Prop) (outcome : Except Failure α) : Prop where
  result : ∀ a, outcome = .ok a → result a
  failure : ∀ failure, outcome = .error failure →
    proper failure ∨ ∃ fault, failure = .escaped fault
  gap : ∀ fault, fault ≠ .longInteger → (outcome = .error (.escaped fault) ↔ gap fault)
  long : outcome = .error (.escaped .longInteger) → long

/-- A contract is kept by work that ends as it says and lets every fault of the gap pass. -/
theorem Contract.of_ends {α : Type} {result : α → Prop} {proper : Failure → Prop}
    {gap : Fault → Prop} {long : Prop} {outcome : Except Failure α}
    (ends : Ends result (fun failure => proper failure ∨ ∃ fault, failure = .escaped fault ∧
      (gap fault ∨ fault = .longInteger ∧ long)) outcome)
    (passes : ∀ fault, gap fault → outcome = .error (.escaped fault))
    (improper : ∀ fault, ¬ proper (.escaped fault)) (short : ¬ gap .longInteger) :
    Contract result proper gap long outcome where
  result a done := ends.of_ok done
  failure failure failed := by
    rcases ends.of_error failed with kept | ⟨fault, rfl, _⟩
    · exact .inl kept
    · exact .inr ⟨fault, rfl⟩
  gap fault other := by
    refine ⟨fun failed => ?_, passes fault⟩
    rcases ends.of_error failed with kept | ⟨_, same, passed | ⟨isLong, _⟩⟩
    · exact absurd kept (improper fault)
    · cases same
      exact passed
    · cases same
      exact absurd isLong other
  long failed := by
    rcases ends.of_error failed with kept | ⟨_, same, passed | ⟨_, long⟩⟩
    · exact absurd kept (improper _)
    · cases same
      exact absurd passed short
    · exact long

/-- Work keeps a contract but for some faults of the layers below, all of which are known exactly. -/
structure ExactContract {α : Type} (result : α → Prop) (proper : Failure → Prop)
    (gap : Fault → Prop) (outcome : Except Failure α) : Prop where
  result : ∀ a, outcome = .ok a → result a
  failure : ∀ failure, outcome = .error failure →
    proper failure ∨ ∃ fault, failure = .escaped fault
  gap : ∀ fault, outcome = .error (.escaped fault) ↔ gap fault

namespace ExactContract

variable {α β : Type} {result : α → Prop} {proper : Failure → Prop} {gap : Fault → Prop}
  {outcome : Except Failure α}

/-- Such a contract is kept by work that ends as it says and lets every fault of the gap pass. -/
theorem of_ends
    (ends : Ends result (fun failure => proper failure ∨ ∃ fault, failure = .escaped fault ∧
      gap fault) outcome)
    (passes : ∀ fault, gap fault → outcome = .error (.escaped fault))
    (improper : ∀ fault, ¬ proper (.escaped fault)) : ExactContract result proper gap outcome where
  result a done := ends.of_ok done
  failure failure failed := by
    rcases ends.of_error failed with kept | ⟨fault, rfl, _⟩
    · exact .inl kept
    · exact .inr ⟨fault, rfl⟩
  gap fault := by
    refine ⟨fun failed => ?_, passes fault⟩
    rcases ends.of_error failed with kept | ⟨_, same, passed⟩
    · exact absurd kept (improper fault)
    · cases same
      exact passed

/-- Work in sequence lets pass what the first piece does, and what the second does with its
result. -/
theorem bind {next : α → Except Failure β} {result : α → β → Prop} {gaps : α → Fault → Prop}
    (first : ExactContract (fun _ => True) proper gap outcome)
    (rest : ∀ a, outcome = .ok a → ExactContract (result a) proper (gaps a) (next a)) :
    ExactContract (fun b => ∃ a, outcome = .ok a ∧ result a b) proper
      (fun fault => gap fault ∨ ∃ a, outcome = .ok a ∧ gaps a fault) (outcome >>= next) where
  result b done := by
    rcases bind_eq_ok.mp done with ⟨a, had, done⟩
    exact ⟨a, had, (rest a had).result b done⟩
  failure failure failed := by
    rcases bind_eq_error.mp failed with failed | ⟨a, had, failed⟩
    · exact first.failure failure failed
    · exact (rest a had).failure failure failed
  gap fault := by
    rw [bind_eq_error, first.gap]
    refine or_congr_right (exists_congr fun a => and_congr_right fun had => ?_)
    exact (rest a had).gap fault

end ExactContract

end Consignment
