import Consignment.Proofs.Expansion.Contents
import Consignment.Proofs.Invoice.Codec

namespace Consignment

/-!
# Invoices that say the same

A mapping is what it gives for each name, and the order in which its entries are kept is not
part of it.  Features and annotations are mappings, so two labels say the same when they agree
in all that a reader can look up.  The groups that a parcel belongs to are a list, whose order
may or may not matter; both notions are here.

Marking a label as not staged keeps this agreement, whatever the order of its annotations is.
What a document keeps of a parcel says the same as the parcel only if it is the parcel.
-/

def TextMap.Same (m n : TextMap) : Prop :=
  ∀ name, m.lookup name = n.lookup name

def FeatureMap.Same (m n : FeatureMap) : Prop :=
  ∀ name, Option.Rel TextMap.Same (m.lookup name) (n.lookup name)

/-- Agreement that holds of everything with itself holds of what may be absent. -/
theorem rel_refl {α : Type} {R : α → α → Prop} (refl : ∀ a, R a a) :
    ∀ held : Option α, Option.Rel R held held
  | none => .none
  | some a => .some (refl a)

theorem TextMap.Same.refl (m : TextMap) : m.Same m :=
  fun _ => rfl

theorem FeatureMap.Same.refl (m : FeatureMap) : m.Same m :=
  fun _ => rel_refl TextMap.Same.refl _

/-- Putting the same entry into the same mapping. -/
theorem TextMap.Same.put {m n : TextMap} (same : m.Same n) (name value : String) :
    TextMap.Same (m.put name value) (n.put name value) := by
  intro other
  by_cases asked : other = name
  · rw [asked, TextMap.lookup_put, TextMap.lookup_put]
  · rw [TextMap.lookup_put_of_ne asked, TextMap.lookup_put_of_ne asked, same]

namespace Label

structure Same (a b : Label) : Prop where
  name : a.name = b.name
  sha256 : a.sha256 = b.sha256
  mediaType : a.mediaType = b.mediaType
  size : a.size = b.size
  feature : Option.Rel FeatureMap.Same a.feature b.feature
  annotations : Option.Rel TextMap.Same a.annotations b.annotations

theorem Same.refl (a : Label) : a.Same a :=
  ⟨rfl, rfl, rfl, rfl, rel_refl FeatureMap.Same.refl _, rel_refl TextMap.Same.refl _⟩

/-- An absent map of annotations counts as empty when a mark is put into it. -/
theorem Same.markedDoNotStage {a b : Label} (same : a.Same b) :
    a.markedDoNotStage.Same b.markedDoNotStage := by
  have entries {first second : Option TextMap} (related : Option.Rel TextMap.Same first second) :
      TextMap.Same (first.getD []) (second.getD []) := by
    cases related with
    | none => exact TextMap.Same.refl _
    | some held => exact held
  exact { same with annotations := .some ((entries same.annotations).put doNotStageKey "true") }

/-- A label that says the same as what a document keeps of it is kept whole. -/
theorem kept_of_same {label : Label} (same : label.kept.Same label) : label.kept = label := by
  -- what is present in the label is present in what is kept
  have present {α : Type} [DecidableEq α] {R : List α → List α → Prop} {held : Option (List α)}
      (related : Option.Rel R (held.filter (· ≠ [])) held) : held ≠ some [] := by
    rintro rfl
    have lost : Option.Rel R none (some []) := related
    cases lost
  exact kept_eq_self.mpr ⟨present same.feature, present same.annotations⟩

end Label

namespace Parcel

/-- Two parcels have labels that say the same, and the same conditions. -/
structure Same (p q : Parcel) : Prop where
  label : p.label.Same q.label
  conditions : p.conditions = q.conditions

/-- Two parcels have labels that say the same, belong to the same groups in any order, and
require the same groups. -/
structure SameUpToOrder (p q : Parcel) : Prop where
  label : p.label.Same q.label
  conditions : Option.Rel (fun m n => Option.Rel List.Perm m.memberOf n.memberOf ∧
    m.requires = n.requires) p.conditions q.conditions

theorem kept_of_same {p : Parcel} (same : p.kept.Same p) : p.kept = p := by
  rcases p with ⟨label, conditions⟩
  have labels : label.kept = label := Label.kept_of_same same.label
  have same' : conditions.filter (· ≠ ⟨none, none⟩) = conditions := same.conditions
  rw [kept, labels, same']

end Parcel

/-- Two invoices agree in all that can be looked up in them, the order of parcels, groups and
authors included. -/
structure Invoice.Same (first second : Invoice) : Prop where
  id : first.id = second.id
  description : first.description = second.description
  authors : first.authors = second.authors
  annotations : Option.Rel TextMap.Same first.annotations second.annotations
  parcels : List.Forall₂ Parcel.Same first.parcels second.parcels
  groups : first.groups = second.groups

end Consignment
