import Consignment.Pool
import Mathlib.Data.List.Forall2

namespace Consignment

/-!
# Outcomes that are results

What it means for work to succeed, for each way of putting work together.  Work in
sequence succeeds when every piece does, and work for every item of a list succeeds with
the results of the items, in their order.
-/

namespace Outcome

variable {α β ε : Type}

@[simp] theorem bind_eq_ok {outcome : Except ε α} {next : α → Except ε β} {result : β} :
    (outcome >>= next) = .ok result ↔ ∃ a, outcome = .ok a ∧ next a = .ok result := by
  cases outcome with
  | error fault => simp [bind, Except.bind]
  | ok a => simp [bind, Except.bind]

theorem bind_eq_error {outcome : Except ε α} {next : α → Except ε β} {fault : ε} :
    (outcome >>= next) = .error fault ↔
      outcome = .error fault ∨ ∃ a, outcome = .ok a ∧ next a = .error fault := by
  cases outcome with
  | error other => simp [bind, Except.bind]
  | ok a => simp [bind, Except.bind]

@[simp] theorem ok_bind (a : α) (next : α → Except ε β) : (Except.ok a >>= next) = next a := rfl

@[simp] theorem error_bind (fault : ε) (next : α → Except ε β) :
    (Except.error fault >>= next) = .error fault := rfl

@[simp] theorem pure_eq_ok {a result : α} : (pure a : Except ε α) = .ok result ↔ a = result := by
  simp [pure, Except.pure]

@[simp] theorem map_eq_ok {f : α → β} {outcome : Except ε α} {result : β} :
    outcome.map f = .ok result ↔ ∃ a, outcome = .ok a ∧ f a = result := by
  cases outcome <;> simp [Except.map]

@[simp] theorem fmap_eq_ok {f : α → β} {outcome : Except ε α} {result : β} :
    f <$> outcome = .ok result ↔ ∃ a, outcome = .ok a ∧ f a = result :=
  map_eq_ok

@[simp] theorem fmap_eq_error {f : α → β} {outcome : Except ε α} {fault : ε} :
    f <$> outcome = .error fault ↔ outcome = .error fault := by
  cases outcome <;> simp

/-- Giving a fault another meaning makes no result of it. -/
@[simp] theorem mapError_eq_ok {ε' : Type} {f : ε → ε'} {outcome : Except ε α} {result : α} :
    outcome.mapError f = .ok result ↔ outcome = .ok result := by
  cases outcome <;> simp [Except.mapError]

@[simp] theorem mapError_ok {ε' : Type} (f : ε → ε') (a : α) :
    (Except.ok a : Except ε α).mapError f = .ok a := rfl

theorem exists_of_toBool {outcome : Except ε α} (succeeds : outcome.toBool = true) :
    ∃ result, outcome = .ok result := by
  cases outcome with
  | error fault => simp [Except.toBool] at succeeds
  | ok result => exact ⟨result, rfl⟩

theorem exists_error_of_toBool {outcome : Except ε α} (fails : outcome.toBool = false) :
    ∃ fault, outcome = .error fault := by
  cases outcome with
  | error fault => exact ⟨fault, rfl⟩
  | ok result => simp [Except.toBool] at fails

/-- A result of which something is true. -/
theorem exists_of_toOption {test : α → Bool} {outcome : Except ε α}
    (holds : (outcome.map test).toOption = some true) :
    ∃ result, outcome = .ok result ∧ test result = true := by
  cases outcome with
  | error fault => simp [Except.map, Except.toOption] at holds
  | ok result => exact ⟨result, rfl, by simpa [Except.map, Except.toOption] using holds⟩

def failsWith [DecidableEq ε] (outcome : Except ε α) (fault : ε) : Bool :=
  match outcome with
  | .error other => decide (other = fault)
  | .ok _ => false

theorem eq_error_of_failsWith [DecidableEq ε] {outcome : Except ε α} {fault : ε}
    (fails : failsWith outcome fault = true) : outcome = .error fault := by
  cases outcome with
  | error other => rw [of_decide_eq_true fails]
  | ok a => exact absurd fails (by simp [failsWith])

/-- Work for every item succeeds with a list of the items' results. -/
theorem mapM_eq_ok {work : α → Except ε β} {items : List α} {results : List β} :
    items.mapM work = .ok results ↔
      List.Forall₂ (fun item result => work item = .ok result) items results := by
  induction items generalizing results with
  | nil =>
    rw [List.mapM_nil, pure_eq_ok, List.forall₂_nil_left_iff]
    exact eq_comm
  | cons item rest ih =>
    simp only [List.mapM_cons, bind_eq_ok, pure_eq_ok, ih, List.forall₂_cons_left_iff]
    constructor
    · rintro ⟨first, done, others, doneAll, rfl⟩
      exact ⟨first, others, done, doneAll, rfl⟩
    · rintro ⟨first, others, done, doneAll, rfl⟩
      exact ⟨first, done, others, doneAll, rfl⟩

/-- The first item on which work fails, and its fault. -/
def FirstFault (work : α → Except ε β) (items : List α) (fault : ε) : Prop :=
  ∃ before item after, items = before ++ item :: after ∧
    (∀ earlier ∈ before, ∃ result, work earlier = .ok result) ∧ work item = .error fault

@[simp] theorem not_firstFault_nil {work : α → Except ε β} {fault : ε} :
    ¬ FirstFault work [] fault := by
  rintro ⟨before, item, after, divided, -⟩
  simp at divided

theorem firstFault_cons {work : α → Except ε β} {item : α} {rest : List α} {fault : ε} :
    FirstFault work (item :: rest) fault ↔
      work item = .error fault ∨
        (∃ result, work item = .ok result) ∧ FirstFault work rest fault := by
  constructor
  · rintro ⟨before, failed, after, divided, done, failing⟩
    cases before with
    | nil =>
      cases divided
      exact Or.inl failing
    | cons first before =>
      cases divided
      refine Or.inr ⟨done _ List.mem_cons_self, before, failed, after, rfl, ?_, failing⟩
      exact fun earlier mem => done earlier (List.mem_cons_of_mem _ mem)
  · rintro (failing | ⟨done, before, failed, after, rfl, doneBefore, failing⟩)
    · exact ⟨[], item, rest, rfl, by simp, failing⟩
    · refine ⟨item :: before, failed, after, rfl, ?_, failing⟩
      intro earlier mem
      rcases List.mem_cons.mp mem with rfl | later
      · exact done
      · exact doneBefore earlier later

/-- Work for every item fails with the fault of the first item that fails. -/
theorem mapM_eq_error {work : α → Except ε β} {items : List α} {fault : ε} :
    items.mapM work = .error fault ↔ FirstFault work items fault := by
  induction items with
  | nil => simp [pure, Except.pure]
  | cons item rest ih =>
    rw [List.mapM_cons, firstFault_cons, ← ih]
    cases work item with
    | error failing => simp
    | ok result => cases rest.mapM work <;> simp [pure, Except.pure]

theorem FirstFault.exists_mem {work : α → Except ε β} {items : List α} {fault : ε}
    (first : FirstFault work items fault) : ∃ item ∈ items, work item = .error fault := by
  rcases first with ⟨before, item, after, rfl, _, failing⟩
  exact ⟨item, List.mem_append_right _ List.mem_cons_self, failing⟩

/-- The first item of which something is true, where all before it are fine. -/
def First (fine here : α → Prop) (items : List α) : Prop :=
  ∃ before item after, items = before ++ item :: after ∧ (∀ earlier ∈ before, fine earlier) ∧ here item

/-- The first item that fails, where it is known which items fail and which do not. -/
theorem firstFault_iff {work : α → Except ε β} {items : List α} {fault : ε} {fine here : α → Prop}
    (done : ∀ item, (∃ result, work item = .ok result) ↔ fine item)
    (failed : ∀ item, work item = .error fault ↔ here item) :
    FirstFault work items fault ↔ First fine here items := by
  simp only [FirstFault, First, done, failed]

/-- Items that do not fail can be left out. -/
theorem firstFault_filter {work : α → Except ε β} {keep : α → Bool} {items : List α} {fault : ε}
    (done : ∀ item ∈ items, keep item = false → ∃ result, work item = .ok result) :
    FirstFault work (items.filter keep) fault ↔ FirstFault work items fault := by
  induction items with
  | nil => rfl
  | cons item rest ih =>
    have later := ih fun other mem => done other (List.mem_cons_of_mem _ mem)
    cases kept : keep item with
    | true => rw [List.filter_cons_of_pos kept, firstFault_cons, firstFault_cons, later]
    | false =>
      rcases done item List.mem_cons_self kept with ⟨result, here⟩
      rw [List.filter_cons_of_neg (by simp [kept]), firstFault_cons, later]
      simp [here]

/-- An item that fails does so where it first stands. -/
theorem firstFault_eraseDups [BEq α] [LawfulBEq α] {work : α → Except ε β} {items : List α}
    {fault : ε} : FirstFault work items.eraseDups fault ↔ FirstFault work items fault := by
  induction size : items.length using Nat.strongRecOn generalizing items with
  | ind length ih =>
    cases items with
    | nil => rfl
    | cons item rest =>
      have shorter : (rest.filter fun other => !other == item).length < length := by
        have bound := List.length_filter_le (fun other => !other == item) rest
        simp only [List.length_cons] at size
        omega
      rw [List.eraseDups_cons, firstFault_cons, firstFault_cons, ih _ shorter rfl]
      refine or_congr_right (and_congr_right fun done => firstFault_filter ?_)
      intro other _ repeated
      have same : other = item := by simpa using repeated
      exact same ▸ done

/-- Work that has the same outcome for every item has the same outcome for all. -/
theorem mapM_congr {first second : α → Except ε β} {items : List α}
    (alike : ∀ item ∈ items, first item = second item) : items.mapM first = items.mapM second := by
  induction items with
  | nil => rfl
  | cons item rest ih =>
    have here := alike item List.mem_cons_self
    have later := ih fun other mem => alike other (List.mem_cons_of_mem _ mem)
    simp only [List.mapM_cons, here, later]

/-- The results of items are results of members, and every member has one. -/
theorem mem_of_forall₂ {R : α → β → Prop} {items : List α} {results : List β}
    (related : List.Forall₂ R items results) {result : β} (mem : result ∈ results) :
    ∃ item ∈ items, R item result := by
  induction related with
  | nil => exact absurd mem List.not_mem_nil
  | cons first _ ih =>
    rcases List.mem_cons.mp mem with rfl | later
    · exact ⟨_, List.mem_cons_self, first⟩
    · rcases ih later with ⟨item, held, here⟩
      exact ⟨item, List.mem_cons_of_mem _ held, here⟩

theorem exists_mem_of_forall₂ {R : α → β → Prop} {items : List α} {results : List β}
    (related : List.Forall₂ R items results) {item : α} (mem : item ∈ items) :
    ∃ result ∈ results, R item result :=
  mem_of_forall₂ (R := fun result item => R item result) (List.Forall₂.flip related) mem

/-- Work for every item succeeds exactly if it does for each. -/
theorem exists_mapM_eq_ok_iff {work : α → Except ε β} {items : List α} :
    (∃ results, items.mapM work = .ok results) ↔
      ∀ item ∈ items, ∃ result, work item = .ok result := by
  constructor
  · rintro ⟨results, done⟩ item mem
    rcases exists_mem_of_forall₂ (mapM_eq_ok.mp done) mem with ⟨result, _, here⟩
    exact ⟨result, here⟩
  · intro each
    cases outcome : items.mapM work with
    | ok results => exact ⟨results, rfl⟩
    | error fault =>
      rcases (mapM_eq_error.mp outcome).exists_mem with ⟨item, mem, failing⟩
      rcases each item mem with ⟨result, done⟩
      exact absurd (failing.symm.trans done) (by simp)

theorem exists_getElem?_of_forall₂ {R : α → β → Prop} {items : List α} {results : List β}
    (related : List.Forall₂ R items results) {i : Nat} {item : α} (here : items[i]? = some item) :
    ∃ result, results[i]? = some result ∧ R item result := by
  induction related generalizing i with
  | nil => simp at here
  | cons first _ ih =>
    cases i with
    | zero =>
      cases Option.some.inj here
      exact ⟨_, rfl, first⟩
    | succ i => exact ih here

/-- The first item of which something is true has its result first among the results of which
the same is true. -/
theorem rel_find?_of_forall₂ {R : α → β → Prop} {items : List α} {results : List β}
    (related : List.Forall₂ R items results) {p : α → Bool} {q : β → Bool}
    (agree : ∀ item result, R item result → p item = q result) :
    Option.Rel R (items.find? p) (results.find? q) := by
  induction related with
  | nil => exact .none
  | cons first _ ih =>
    have same := agree _ _ first
    cases holds : p _ with
    | true =>
      rw [List.find?_cons_of_pos holds, List.find?_cons_of_pos (same ▸ holds)]
      exact .some first
    | false =>
      rw [List.find?_cons_of_neg (by simp [holds]), List.find?_cons_of_neg (by simp [← same, holds])]
      exact ih

/-- Keeping the items for which a question is answered with yes. -/
theorem filterMapM_eq_ok {ask : α → Except ε Bool} {items kept : List α}
    (done : (items.filterMapM fun item => do
      return if ← ask item then some item else none) = .ok kept) {item : α} :
    item ∈ kept ↔ item ∈ items ∧ ask item = .ok true := by
  induction items generalizing kept with
  | nil =>
    rw [List.filterMapM_nil, pure_eq_ok] at done
    simp [← done]
  | cons first rest ih =>
    simp only [List.filterMapM_cons, bind_eq_ok, pure_eq_ok] at done
    rcases done with ⟨choice, ⟨answer, asked, chosen⟩, others⟩
    cases answer with
    | false =>
      simp only [Bool.false_eq_true, if_false] at chosen
      subst chosen
      rw [ih others, List.mem_cons]
      constructor
      · exact fun found => ⟨Or.inr found.1, found.2⟩
      · rintro ⟨rfl | later, yes⟩
        · rw [asked] at yes
          simp at yes
        · exact ⟨later, yes⟩
    | true =>
      simp only [if_true] at chosen
      subst chosen
      simp only [bind_eq_ok, pure_eq_ok] at others
      rcases others with ⟨more, doneMore, rfl⟩
      simp only [List.mem_cons, ih doneMore]
      constructor
      · rintro (rfl | found)
        · exact ⟨Or.inl rfl, asked⟩
        · exact ⟨Or.inr found.1, found.2⟩
      · rintro ⟨rfl | later, yes⟩
        · exact Or.inl rfl
        · exact Or.inr ⟨later, yes⟩

/-- A question for every item fails with the fault of the first item for which it fails. -/
theorem filterMapM_eq_error {ask : α → Except ε Bool} {items : List α} {fault : ε} :
    (items.filterMapM fun item => do return if ← ask item then some item else none) = .error fault ↔
      FirstFault ask items fault := by
  induction items with
  | nil => simp [pure, Except.pure]
  | cons item rest ih =>
    rw [firstFault_cons, ← ih, List.filterMapM_cons]
    cases asked : ask item with
    | error failing => simp
    | ok answer =>
      cases answer with
      | false => simp
      | true => simp

end Outcome

namespace Report

variable {α β : Type}

@[simp] theorem outcome_ite (p : Prop) [Decidable p] (first second : Report α) :
    (if p then first else second).outcome = if p then first.outcome else second.outcome := by
  split <;> rfl

@[simp] theorem outcome_mapFailure (f : Failure → Failure) (r : Report α) :
    (r.mapFailure f).outcome = r.outcome.mapError f := rfl

@[simp] theorem outcome_fmap (f : α → β) (r : Report α) : (f <$> r).outcome = f <$> r.outcome := by
  rw [← bind_pure_comp, outcome_bind]
  cases r.outcome <;> rfl

end Report
end Consignment
