import Consignment.Closure
import Mathlib.Data.List.Perm.Basic

namespace Consignment

/-!
# The walk over groups, level by level

The walk takes one group at a time off a frontier and appends the groups that it newly
meets.  The same groups can be listed by levels: what the start requires, then what the
members of that level require and nothing before did, and so on.  The two lists are the
same list, because the frontier never holds more than the rest of one level and the
beginning of the next.

Both come to an end.  What bounds them is the number of names that parcels require and
that have not been met: a step takes one group off the frontier and moves as many names
from that number to the frontier as it appends.  The fuel of the walk is therefore never
what ends it.
-/

theorem nodup_eraseDups {α : Type} [BEq α] [LawfulBEq α] (items : List α) :
    items.eraseDups.Nodup := by
  induction size : items.length using Nat.strongRecOn generalizing items with
  | ind length ih =>
    cases items with
    | nil => exact List.nodup_nil
    | cons item rest =>
      rw [List.eraseDups_cons, List.nodup_cons]
      have shorter : (rest.filter fun other => !other == item).length < length := by
        have bound := List.length_filter_le (fun other => !other == item) rest
        simp only [List.length_cons] at size
        omega
      refine ⟨?_, ih _ shorter _ rfl⟩
      intro again
      simpa using List.mem_eraseDups.mp again

namespace Invoice

/-! ## Names that have not been met -/

theorem mem_unmet {met names : List String} {name : String} :
    name ∈ unmet met names ↔ name ∈ names ∧ name ∉ met := by
  simp [unmet]

theorem nodup_unmet (met names : List String) : (unmet met names).Nodup :=
  nodup_eraseDups _

@[simp] theorem unmet_nil (met : List String) : unmet met [] = [] := rfl

/-- What is new in two lists is what is new in the first and then what is new in the
second beyond that. -/
theorem unmet_append (met first second : List String) :
    unmet met (first ++ second) =
      unmet met first ++ unmet (met ++ unmet met first) second := by
  simp only [unmet, List.filter_append, List.eraseDups_append, List.removeAll, List.filter_filter]
  congr 2
  apply List.filter_congr
  intro name _
  by_cases known : name ∈ met <;> simp [known]

/-- Meeting some of the known names takes as many from the unmet ones as are new. -/
theorem length_unmet_of_subset {names known : List String} (met : List String)
    (inside : names ⊆ known) :
    (unmet met known).length =
      (unmet met names).length + (unmet (met ++ unmet met names) known).length := by
  rw [← List.length_append]
  apply List.Perm.length_eq
  have disjoint : (unmet met names ++ unmet (met ++ unmet met names) known).Nodup := by
    rw [List.nodup_append]
    refine ⟨nodup_unmet _ _, nodup_unmet _ _, ?_⟩
    intro name new other still same
    subst same
    exact (mem_unmet.mp still).2 (List.mem_append_right _ new)
  rw [List.perm_ext_iff_of_nodup (nodup_unmet _ _) disjoint]
  intro name
  simp only [List.mem_append, mem_unmet]
  constructor
  · rintro ⟨listed, fresh⟩
    by_cases named : name ∈ names
    · exact Or.inl ⟨named, fresh⟩
    · refine Or.inr ⟨listed, ?_⟩
      rintro (old | new)
      · exact fresh old
      · exact named new.1
  · rintro (new | still)
    · exact ⟨inside new.1, new.2⟩
    · exact ⟨still.1, fun old => still.2 (Or.inl old)⟩

/-! ## Levels -/

def requiredNames (inv : Invoice) : List String :=
  inv.parcels.flatMap Parcel.requiredGroups

theorem mem_requiredBy {inv : Invoice} {group next : String} :
    next ∈ inv.requiredBy group ↔ ∃ member ∈ inv.members group, next ∈ member.requiredGroups :=
  List.mem_flatMap

theorem requiredBy_subset (inv : Invoice) (group : String) :
    inv.requiredBy group ⊆ inv.requiredNames := by
  intro next required
  rcases mem_requiredBy.mp required with ⟨member, held, named⟩
  exact List.mem_flatMap.mpr ⟨member, (mem_members.mp held).1, named⟩

/-- The groups level by level, for so many levels.  The next level holds what the
members of this one require and has not been met. -/
def levelOrder (inv : Invoice) : Nat → List String → List String → List String
  | 0, _, _ => []
  | levels + 1, met, level =>
    let next := unmet met (level.flatMap inv.requiredBy)
    level ++ levelOrder inv levels (met ++ next) next

@[simp] theorem levelOrder_nil (inv : Invoice) (levels : Nat) (met : List String) :
    inv.levelOrder levels met [] = [] := by
  induction levels generalizing met with
  | zero => rfl
  | succ levels ih =>
    simp only [levelOrder, List.flatMap_nil, unmet_nil, List.append_nil, List.nil_append]
    exact ih met

@[simp] theorem walkGroups_nil (inv : Invoice) (fuel : Nat) (met : List String) :
    inv.walkGroups fuel met [] = [] := by
  cases fuel <;> rfl

/-- The walk takes a whole level off the frontier before it comes to what the level
requires. -/
theorem walkGroups_level (inv : Invoice) (fuel : Nat) (met level frontier : List String) :
    inv.walkGroups (level.length + fuel) met (level ++ frontier) =
      level ++ inv.walkGroups fuel (met ++ unmet met (level.flatMap inv.requiredBy))
        (frontier ++ unmet met (level.flatMap inv.requiredBy)) := by
  induction level generalizing met frontier with
  | nil => simp
  | cons group rest ih =>
    have steps : (group :: rest).length + fuel = (rest.length + fuel) + 1 := by
      simp only [List.length_cons]
      omega
    rw [steps, List.cons_append, walkGroups, List.append_assoc, ih]
    simp only [List.flatMap_cons, unmet_append, List.append_assoc, List.cons_append]

/-- With fuel for the frontier and for everything unmet, the walk lists the groups level
by level, and one more level than there are unmet names is enough. -/
theorem walkGroups_eq_levelOrder (inv : Invoice) {fuel levels : Nat} {met frontier : List String}
    (enough : frontier.length + (unmet met inv.requiredNames).length ≤ fuel)
    (deep : (unmet met inv.requiredNames).length < levels) :
    inv.walkGroups fuel met frontier = inv.levelOrder levels met frontier := by
  induction levels generalizing fuel met frontier with
  | zero => exact absurd deep (Nat.not_lt_zero _)
  | succ levels ih =>
    rcases Nat.exists_eq_add_of_le (Nat.le_of_add_right_le enough) with ⟨spare, rfl⟩
    have level := inv.walkGroups_level spare met frontier []
    rw [List.append_nil, List.nil_append] at level
    rw [level, levelOrder]
    have inside : frontier.flatMap inv.requiredBy ⊆ inv.requiredNames := by
      intro next mem
      rcases List.mem_flatMap.mp mem with ⟨group, _, required⟩
      exact inv.requiredBy_subset group required
    have count := length_unmet_of_subset met inside
    cases new : unmet met (frontier.flatMap inv.requiredBy) with
    | nil => simp
    | cons name others =>
      rw [new] at count
      simp only [List.length_cons] at count
      rw [ih]
      · simp only [List.length_cons]
        omega
      · omega

/-! ## What is met is what is depended on -/

/-- The groups that a parcel depends on: those that it requires, and those that the
members of such groups require. -/
inductive DependsOn (inv : Invoice) (start : Parcel) : String → Prop
  | required {group : String} (named : group ∈ start.requiredGroups) : DependsOn inv start group
  | through {group next : String} {member : Parcel} (reached : DependsOn inv start group)
      (held : member ∈ inv.members group) (named : next ∈ member.requiredGroups) :
      DependsOn inv start next

theorem dependsOn_of_mem_levelOrder {inv : Invoice} {start : Parcel} {levels : Nat}
    {met level : List String} (reached : ∀ group ∈ level, inv.DependsOn start group) :
    ∀ group ∈ inv.levelOrder levels met level, inv.DependsOn start group := by
  induction levels generalizing met level with
  | zero => exact fun _ mem => absurd mem List.not_mem_nil
  | succ levels ih =>
    intro group mem
    rcases List.mem_append.mp mem with here | deeper
    · exact reached group here
    · refine ih ?_ group deeper
      intro next new
      rcases List.mem_flatMap.mp (mem_unmet.mp new).1 with ⟨before, inLevel, required⟩
      rcases mem_requiredBy.mp required with ⟨member, held, named⟩
      exact .through (reached before inLevel) held named

/-- With fuel for the frontier, everything on it is taken off. -/
theorem frontier_subset_walkGroups (inv : Invoice) {fuel : Nat} {met frontier : List String}
    (enough : frontier.length ≤ fuel) : frontier ⊆ inv.walkGroups fuel met frontier := by
  rcases Nat.exists_eq_add_of_le enough with ⟨spare, rfl⟩
  have level := inv.walkGroups_level spare met frontier []
  rw [List.append_nil] at level
  rw [level]
  exact List.subset_append_left _ _

/-- What a group of the walk requires has been met before or is met on the walk. -/
theorem requiredBy_subset_walkGroups (inv : Invoice) {fuel : Nat} {met frontier : List String}
    (enough : frontier.length + (unmet met inv.requiredNames).length ≤ fuel) :
    ∀ group ∈ inv.walkGroups fuel met frontier, ∀ next ∈ inv.requiredBy group,
      next ∈ met ∨ next ∈ inv.walkGroups fuel met frontier := by
  induction fuel generalizing met frontier with
  | zero => exact fun _ mem => absurd mem List.not_mem_nil
  | succ fuel ih =>
    cases frontier with
    | nil => exact fun _ mem => absurd mem (by simp)
    | cons first rest =>
      have count := length_unmet_of_subset met (inv.requiredBy_subset first)
      have left : (rest ++ unmet met (inv.requiredBy first)).length +
          (unmet (met ++ unmet met (inv.requiredBy first)) inv.requiredNames).length ≤ fuel := by
        simp only [List.length_cons, List.length_append] at enough ⊢
        omega
      have pending : rest ++ unmet met (inv.requiredBy first) ⊆
          inv.walkGroups fuel (met ++ unmet met (inv.requiredBy first))
            (rest ++ unmet met (inv.requiredBy first)) :=
        inv.frontier_subset_walkGroups (Nat.le_of_add_right_le left)
      -- a name that is new at this step joins the frontier, and the frontier is walked
      have joins : ∀ next ∈ unmet met (inv.requiredBy first),
          next ∈ inv.walkGroups (fuel + 1) met (first :: rest) := by
        intro next new
        exact List.mem_cons_of_mem _ (pending (List.mem_append_right _ new))
      intro group mem next required
      rcases List.mem_cons.mp mem with rfl | later
      · by_cases known : next ∈ met
        · exact Or.inl known
        · exact Or.inr (joins next (mem_unmet.mpr ⟨required, known⟩))
      · rcases ih left group later next required with known | walked
        · rcases List.mem_append.mp known with old | new
          · exact Or.inl old
          · exact Or.inr (joins next new)
        · exact Or.inr (List.mem_cons_of_mem _ walked)

/-! ## The walk from a parcel -/

theorem walkFuel_enough (inv : Invoice) (start : List String) :
    start.length + (unmet start inv.requiredNames).length ≤ inv.walkFuel start := by
  have inside : unmet start inv.requiredNames ⊆ inv.requiredNames := by
    intro name fresh
    exact (mem_unmet.mp fresh).1
  have fewer := (List.subperm_of_subset (nodup_unmet start inv.requiredNames) inside).length_le
  exact Nat.add_le_add_left fewer _

/-- The groups that a parcel depends on are met in the order of their levels. -/
theorem dependencyGroups_eq_levelOrder (inv : Invoice) (start : Parcel) {levels : Nat}
    (deep : inv.requiredNames.length < levels) :
    inv.dependencyGroups start =
      inv.levelOrder levels start.requiredGroups start.requiredGroups := by
  apply inv.walkGroups_eq_levelOrder (inv.walkFuel_enough _)
  have enough := inv.walkFuel_enough start.requiredGroups
  have fuel : inv.walkFuel start.requiredGroups =
      start.requiredGroups.length + inv.requiredNames.length := rfl
  omega

/-- The walk ends because nothing is left on the frontier: more fuel changes nothing. -/
theorem walkGroups_eq_dependencyGroups (inv : Invoice) (start : Parcel) {fuel : Nat}
    (enough : inv.walkFuel start.requiredGroups ≤ fuel) :
    inv.walkGroups fuel start.requiredGroups start.requiredGroups = inv.dependencyGroups start := by
  have walked := inv.walkFuel_enough start.requiredGroups
  have levels := Nat.lt_succ_self (unmet start.requiredGroups inv.requiredNames).length
  rw [inv.walkGroups_eq_levelOrder (Nat.le_trans walked enough) levels]
  exact (inv.walkGroups_eq_levelOrder walked levels).symm

/-- The walk meets exactly the groups that the parcel depends on. -/
theorem mem_dependencyGroups {inv : Invoice} {start : Parcel} {group : String} :
    group ∈ inv.dependencyGroups start ↔ inv.DependsOn start group := by
  have enough := inv.walkFuel_enough start.requiredGroups
  have first : start.requiredGroups ⊆ inv.dependencyGroups start :=
    inv.frontier_subset_walkGroups (Nat.le_of_add_right_le enough)
  constructor
  · intro walked
    rw [inv.dependencyGroups_eq_levelOrder start (Nat.lt_succ_self _)] at walked
    exact dependsOn_of_mem_levelOrder (fun _ named => .required named) group walked
  · intro reached
    induction reached with
    | required named => exact first named
    | through reached held named ih =>
      have required := mem_requiredBy.mpr ⟨_, held, named⟩
      rcases inv.requiredBy_subset_walkGroups enough _ ih _ required with known | walked
      · exact first known
      · exact walked

/-- A group whose members require nothing is the only one that is met. -/
theorem dependencyGroups_eq_singleton {inv : Invoice} {start : Parcel} {group : String}
    (required : start.requiredGroups = [group])
    (leaves : ∀ p ∈ inv.members group, p.requiredGroups = []) :
    inv.dependencyGroups start = [group] := by
  have none : inv.requiredBy group = [] := List.flatMap_eq_nil_iff.mpr leaves
  have fuel : inv.walkFuel [group] = inv.requiredNames.length + 1 := Nat.add_comm _ _
  rw [dependencyGroups, required, fuel, walkGroups, none]
  simp

end Invoice
end Consignment
