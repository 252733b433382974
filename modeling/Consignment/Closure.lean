import Consignment.Invoice.Basic
import Consignment.Report

namespace Consignment

/-!
# What a handler depends on

A parcel requires groups, and the members of a group can require groups in turn.  The
groups are walked in breadth: those that the start requires first, and each newly met
group once, in the order in which the members of earlier groups name it.  Groups may
require each other in cycles, because a group that has been met is never met again.

The dependencies are the members of the groups in the order of the walk, and of
several parcels with the same content only the first.
-/

/-- Keep the first of several items with the same key. -/
def distinctBy {α β : Type} [DecidableEq β] (key : α → β) : List α → List α
  | [] => []
  | a :: rest => a :: (distinctBy key rest).filter fun b => key b ≠ key a

theorem mem_of_mem_distinctBy {α β : Type} [DecidableEq β] {key : α → β} {items : List α} {a : α}
    (mem : a ∈ distinctBy key items) : a ∈ items := by
  induction items with
  | nil => exact mem
  | cons b rest ih =>
    rcases List.mem_cons.1 mem with rfl | later
    · exact List.mem_cons_self
    · exact List.mem_cons_of_mem _ (ih (List.mem_filter.1 later).1)

theorem exists_mem_distinctBy {α β : Type} [DecidableEq β] {key : α → β} {items : List α} {a : α}
    (mem : a ∈ items) : ∃ b ∈ distinctBy key items, key b = key a := by
  induction items with
  | nil => cases mem
  | cons b rest ih =>
    by_cases same : key b = key a
    · exact ⟨b, List.mem_cons_self, same⟩
    · rcases List.mem_cons.1 mem with rfl | later
      · exact absurd rfl same
      · obtain ⟨c, found, equal⟩ := ih later
        refine ⟨c, List.mem_cons_of_mem _ (List.mem_filter.2 ⟨found, ?_⟩), equal⟩
        simpa [equal] using Ne.symm same

theorem pairwise_distinctBy {α β : Type} [DecidableEq β] (key : α → β) (items : List α) :
    (distinctBy key items).Pairwise fun a b => key a ≠ key b := by
  induction items with
  | nil => exact List.Pairwise.nil
  | cons a rest ih =>
    refine List.Pairwise.cons ?_ (ih.filter _)
    intro b mem
    have kept := (List.mem_filter.1 mem).2
    simp only [ne_eq, decide_not, Bool.not_eq_true', decide_eq_false_iff_not] at kept
    exact fun same => kept same.symm

namespace Invoice

def requiredBy (inv : Invoice) (group : String) : List String :=
  (inv.members group).flatMap Parcel.requiredGroups

/-- The names that are not among those met before, each once. -/
def unmet (met names : List String) : List String :=
  (names.filter fun name => !met.contains name).eraseDups

/-- The groups in the order of the walk.  Every step takes a group off the frontier,
and the groups that join it have not been met before. -/
def walkGroups (inv : Invoice) : Nat → List String → List String → List String
  | 0, _, _ => []
  | _, _, [] => []
  | fuel + 1, met, group :: frontier =>
    let new := unmet met (inv.requiredBy group)
    group :: walkGroups inv fuel (met ++ new) (frontier ++ new)

/-- Every group that the walk can meet is required by the start or by some parcel, so
their number is enough fuel. -/
def walkFuel (inv : Invoice) (start : List String) : Nat :=
  start.length + (inv.parcels.flatMap Parcel.requiredGroups).length

/-- The groups that a parcel depends on, in the order of the walk. -/
def dependencyGroups (inv : Invoice) (start : Parcel) : List String :=
  inv.walkGroups (inv.walkFuel start.requiredGroups) start.requiredGroups start.requiredGroups

/-- The parcels that a parcel depends on: one for each content. -/
def dependencies (inv : Invoice) (start : Parcel) : List Parcel :=
  distinctBy (·.label.sha256) ((inv.dependencyGroups start).flatMap inv.members)

def dependencyNotices (inv : Invoice) (start : Parcel) : List Notice :=
  (inv.dependencyGroups start).map fun group =>
    Topic.closure.notice Level.debug
      ("依赖 group " ++ group ++ ": " ++ toString (inv.members group).length ++ " 个成员")

/-- Whether a parcel can be imported from the invoice: some parcel has its handler id. -/
def offers (inv : Invoice) (start : Parcel) : Bool :=
  match start.handlerId? with
  | none => false
  | some handlerId => (inv.handler? handlerId).isSome

/-- The dependencies of a handler; asking for those of any other parcel fails. -/
def closure (inv : Invoice) (start : Parcel) : Report (List Parcel) :=
  if inv.offers start then do
    Report.notes (inv.dependencyNotices start)
    return inv.dependencies start
  else .fail (.notHandler none inv.id start.label.name)

@[simp] theorem outcome_closure (inv : Invoice) (start : Parcel) :
    (inv.closure start).outcome =
      if inv.offers start then .ok (inv.dependencies start)
      else .error (.notHandler none inv.id start.label.name) := by
  unfold closure
  split <;> rfl

/-- The first parcel that can be imported under an id; the failure lists the ids that
there are. -/
def handler (inv : Invoice) (handlerId : String) : Except Failure Parcel :=
  match inv.handler? handlerId with
  | some parcel => .ok parcel
  | none => .error (.handlerMissing none inv.id handlerId inv.handlerIds)

end Invoice
end Consignment
