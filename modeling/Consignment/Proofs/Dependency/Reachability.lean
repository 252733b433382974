import Consignment.Proofs.Dependency.Walk

namespace Consignment

/-!
# Dependencies are what can be reached

A parcel that an invoice offers as a handler depends on the members of every group that
can be reached from it, and on nothing else.  Of several such parcels with the same
content one is listed: the one that is met first when the groups are taken level by level
and the members of a group in the order of the invoice.  Any other parcel is refused.

Nothing is assumed of the groups.  They may require each other or themselves, and a
parcel may require a group twice.
-/

/-! ## The first of several items with the same key -/

theorem distinctBy_sublist {α β : Type} [DecidableEq β] (key : α → β) (items : List α) :
    (distinctBy key items).Sublist items := by
  induction items with
  | nil => exact List.Sublist.slnil
  | cons a rest ih => exact (List.filter_sublist.trans ih).cons_cons a

/-- What is kept is the first item with its key. -/
theorem find?_of_mem_distinctBy {α β : Type} [DecidableEq β] {key : α → β} {items : List α} {a : α}
    (mem : a ∈ distinctBy key items) : items.find? (fun b => key b = key a) = some a := by
  induction items with
  | nil => exact absurd mem List.not_mem_nil
  | cons first rest ih =>
    rcases List.mem_cons.mp mem with rfl | later
    · simp
    · rcases List.mem_filter.mp later with ⟨kept, differs⟩
      have other : ¬ key first = key a := by
        intro same
        simp [same] at differs
      rw [List.find?_cons_of_neg (by simpa using other)]
      exact ih kept

namespace Invoice

/-- The id under which the parcel can be imported is carried by some parcel of the
invoice. -/
def Carries (inv : Invoice) (start : Parcel) : Prop :=
  ∃ handlerId, start.handlerId? = some handlerId ∧ ∃ p ∈ inv.parcels, p.handlerId? = some handlerId

theorem offers_iff {inv : Invoice} {start : Parcel} :
    inv.offers start = true ↔ inv.Carries start := by
  unfold offers Carries
  cases start.handlerId? with
  | none => simp
  | some handlerId => simp [handler?, List.find?_isSome]

/-- A handler that is found under an id has dependencies. -/
theorem offers_of_handler? {inv : Invoice} {handlerId : String} {p : Parcel}
    (found : inv.handler? handlerId = some p) : inv.offers p = true := by
  have carried : p.handlerId? = some handlerId := by simpa using List.find?_some found
  exact offers_iff.mpr ⟨handlerId, carried, p, List.mem_of_find?_eq_some found, carried⟩

theorem mem_dependencies {inv : Invoice} {start p : Parcel} (mem : p ∈ inv.dependencies start) :
    p ∈ inv.parcels ∧ ∃ group, inv.DependsOn start group ∧ group ∈ p.memberGroups := by
  rcases List.mem_flatMap.mp (mem_of_mem_distinctBy mem) with ⟨group, walked, member⟩
  rcases mem_members.mp member with ⟨held, belongs⟩
  exact ⟨held, group, mem_dependencyGroups.mp walked, belongs⟩

theorem exists_mem_dependencies {inv : Invoice} {start p : Parcel} {group : String}
    (held : p ∈ inv.parcels) (belongs : group ∈ p.memberGroups)
    (reached : inv.DependsOn start group) :
    ∃ q ∈ inv.dependencies start, q.label.sha256 = p.label.sha256 := by
  apply exists_mem_distinctBy
  exact List.mem_flatMap.mpr
    ⟨group, mem_dependencyGroups.mpr reached, mem_members.mpr ⟨held, belongs⟩⟩

/-- The parcels as they are met when the groups are taken level by level. -/
def metByLevel (inv : Invoice) (levels : Nat) (start : Parcel) : List Parcel :=
  (inv.levelOrder levels start.requiredGroups start.requiredGroups).flatMap inv.members

theorem dependencies_eq_distinct_metByLevel (inv : Invoice) (start : Parcel) {levels : Nat}
    (deep : inv.requiredNames.length < levels) :
    inv.dependencies start = distinctBy (·.label.sha256) (inv.metByLevel levels start) := by
  rw [dependencies, inv.dependencyGroups_eq_levelOrder start deep]
  rfl

/-- The closure of a parcel: what is listed can be reached, every content that can be
reached is listed once, by the parcel that is met first, and the walk that finds it all
runs to its end.  A parcel whose id is not carried is refused. -/
theorem closure_reaches (inv : Invoice) (start : Parcel) :
    (inv.Carries start →
      ∃ found, (inv.closure start).outcome = .ok found ∧
        (∀ p ∈ found,
          p ∈ inv.parcels ∧ ∃ group, inv.DependsOn start group ∧ group ∈ p.memberGroups) ∧
        (∀ p ∈ inv.parcels, ∀ group ∈ p.memberGroups, inv.DependsOn start group →
          ∃ q ∈ found, q.label.sha256 = p.label.sha256) ∧
        found.Pairwise (fun p q => p.label.sha256 ≠ q.label.sha256) ∧
        (∀ levels, inv.requiredNames.length < levels →
          found.Sublist (inv.metByLevel levels start) ∧
          ∀ p ∈ found, (inv.metByLevel levels start).find?
            (fun q => q.label.sha256 = p.label.sha256) = some p)) ∧
    (∀ fuel, inv.walkFuel start.requiredGroups ≤ fuel →
      inv.walkGroups fuel start.requiredGroups start.requiredGroups =
        inv.dependencyGroups start) ∧
    (¬ inv.Carries start →
      (inv.closure start).outcome = .error (.notHandler none inv.id start.label.name)) := by
  refine ⟨?_, fun fuel enough => inv.walkGroups_eq_dependencyGroups start enough, ?_⟩
  · intro carried
    have offered := offers_iff.mpr carried
    refine ⟨inv.dependencies start, by simp [offered], ?_, ?_, ?_, ?_⟩
    · exact fun p mem => mem_dependencies mem
    · exact fun p held group belongs reached => exists_mem_dependencies held belongs reached
    · exact pairwise_distinctBy _ _
    · intro levels deep
      rw [inv.dependencies_eq_distinct_metByLevel start deep]
      exact ⟨distinctBy_sublist _ _, fun p mem => find?_of_mem_distinctBy mem⟩
  · intro foreign
    have refused : inv.offers start = false := by
      rw [← Bool.not_eq_true, offers_iff]
      exact foreign
    simp [refused]

/-- A handler that names the group it requires twice. -/
def ringHandler : Parcel :=
  ⟨⟨"handler", "h", "", 0, none, some [(handlerIdKey, "all")]⟩, some ⟨none, some ["a", "a"]⟩⟩

/-- Two groups that require each other, whose members have the same content. -/
def ring : Invoice where
  id := ⟨"ring", "1"⟩
  parcels := [ringHandler,
    ⟨⟨"first", "x", "", 1, none, none⟩, some ⟨some ["a"], some ["b"]⟩⟩,
    ⟨⟨"second", "x", "", 1, none, none⟩, some ⟨some ["b"], some ["a"]⟩⟩]

theorem closure_reaches_ring :
    ring.Carries ringHandler ∧
      ∃ found, (ring.closure ringHandler).outcome = .ok found ∧
        ∀ p ∈ ring.parcels, ∀ group ∈ p.memberGroups, ring.DependsOn ringHandler group →
          ∃ q ∈ found, q.label.sha256 = p.label.sha256 := by
  have carried : ring.Carries ringHandler :=
    ⟨"all", by decide, ringHandler, List.mem_cons_self, by decide⟩
  rcases (closure_reaches ring ringHandler).1 carried with ⟨found, done, _, complete, _⟩
  exact ⟨carried, found, done, complete⟩

end Invoice
end Consignment
