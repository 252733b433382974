import Consignment.Proofs.Invoice.Sameness

namespace Consignment
namespace Invoice

/-!
# When an invoice is its document

An invoice that is written down and read again is the same invoice exactly when its id is read
back from the text of the id, and nothing in it is present and empty that a document leaves
out.  There are three such things: the features of a label, its annotations, and conditions
that say nothing.  Everything else that is empty is told from what is absent: an empty list
of groups, an empty list of authors, a feature without texts, an empty description, and an
empty map of annotations of the package.

Reading never gives an invoice that says the same in another order.  The order of every list
and of every mapping is kept.
-/

/-- Nothing is present and empty that a document leaves out. -/
structure NothingLeftOut (inv : Invoice) : Prop where
  feature : ∀ p ∈ inv.parcels, p.label.feature ≠ some []
  annotations : ∀ p ∈ inv.parcels, p.label.annotations ≠ some []
  conditions : ∀ p ∈ inv.parcels, p.conditions ≠ some ⟨none, none⟩

theorem nothingLeftOut_iff {inv : Invoice} :
    inv.NothingLeftOut ↔ ∀ p ∈ inv.parcels, p.kept = p := by
  simp only [Parcel.kept_eq_self]
  constructor
  · intro whole p mem
    exact ⟨⟨whole.feature p mem, whole.annotations p mem⟩, whole.conditions p mem⟩
  · intro whole
    exact ⟨fun p mem => (whole p mem).1.1, fun p mem => (whole p mem).1.2,
      fun p mem => (whole p mem).2⟩

/-- What reading the document of an invoice gives, if it gives anything. -/
theorem eq_kept_of_ofValue {inv out : Invoice} (distinct : inv.DistinctFeatures)
    (read : ofValue inv.toValue = .ok out) : out = { inv.kept with id := out.id } := by
  rw [ofValue_toValue distinct] at read
  split at read
  · cases read
    rfl
  · exact absurd read (by simp)

/-- What is read says the same as the invoice only if it is the invoice. -/
theorem eq_of_same {inv out : Invoice} (distinct : inv.DistinctFeatures)
    (read : ofValue inv.toValue = .ok out) (same : out.Same inv) : out = inv := by
  have kept := eq_kept_of_ofValue distinct read
  have each : List.Forall₂ Parcel.Same (inv.parcels.map Parcel.kept) inv.parcels := by
    have related := same.parcels
    rw [kept] at related
    exact related
  rw [List.forall₂_map_left_iff, List.forall₂_same] at each
  have whole : inv.kept = inv :=
    kept_eq_self.mpr fun p mem => Parcel.kept_of_same (each p mem)
  rw [kept, same.id, whole]

theorem Same.refl (inv : Invoice) : inv.Same inv where
  id := rfl
  description := rfl
  authors := rfl
  annotations := rel_refl TextMap.Same.refl _
  parcels := List.forall₂_same.mpr fun p _ => ⟨Label.Same.refl p.label, rfl⟩
  groups := rfl

/-- An invoice is read back from its document exactly when its id is read back from its text
and nothing is left out; it is then read back with all orders kept.  Whatever invoice is read
back, nothing is lost of it but what a document leaves out. -/
theorem readsBack_iff {inv : Invoice} (distinct : inv.DistinctFeatures) :
    ((∃ out, ofValue inv.toValue = .ok out ∧ out.Same inv) ↔
      inv.id.Rereadable ∧ inv.NothingLeftOut) ∧
    (inv.id.Rereadable ∧ inv.NothingLeftOut → ofValue inv.toValue = .ok inv) ∧
    ∀ out, ofValue inv.toValue = .ok out → out = { inv.kept with id := out.id } := by
  have exactly : ofValue inv.toValue = .ok inv ↔ inv.id.Rereadable ∧ inv.NothingLeftOut := by
    rw [nothingLeftOut_iff]
    exact ofValue_toValue_eq_self distinct
  refine ⟨?_, exactly.mpr, fun out read => eq_kept_of_ofValue distinct read⟩
  constructor
  · rintro ⟨out, read, same⟩
    exact exactly.mp (eq_of_same distinct read same ▸ read)
  · intro conditions
    exact ⟨inv, exactly.mpr conditions, Same.refl inv⟩

/-- An invoice with as much that is present and empty as a document tells from absence. -/
def bare : Invoice where
  id := ⟨"styles/base", "1 \t2"⟩
  description := .text ""
  authors := some []
  annotations := some []
  parcels := [⟨⟨"", "", "", -1, some [("wagi", []), ("", [])], none⟩, some ⟨some [], none⟩⟩,
    ⟨⟨"a", "x", "text/plain", 0, none, some [("", "")]⟩, some ⟨none, some []⟩⟩]
  groups := [""]

theorem readsBack_iff_bare :
    ofValue bare.toValue = .ok bare ∧
      ¬ ∃ out, ofValue { bare with id := ⟨"styles", "1\n"⟩ }.toValue = .ok out ∧
        out.Same { bare with id := ⟨"styles", "1\n"⟩ } := by
  have distinct : bare.DistinctFeatures := by
    intro p mem features held
    simp only [bare, List.mem_cons, List.not_mem_nil, or_false] at mem
    rcases mem with rfl | rfl <;> cases held
    decide
  have whole : bare.NothingLeftOut := by
    constructor <;> intro p mem <;>
      simp only [bare, List.mem_cons, List.not_mem_nil, or_false] at mem <;>
      rcases mem with rfl | rfl <;> decide
  have visible : bare.id.Rereadable := by
    refine ⟨by decide, ?_, by decide, by decide, ?_⟩
    · intro c first
      cases first
      decide
    · intro c last
      cases last
      decide
  refine ⟨(readsBack_iff distinct).2.1 ⟨visible, whole⟩, ?_⟩
  -- the features do not depend on the id, so they are distinct in the renamed invoice too
  have renamed : Invoice.DistinctFeatures { bare with id := ⟨"styles", "1\n"⟩ } := distinct
  rw [(readsBack_iff renamed).1]
  rintro ⟨⟨_, _, _, _, back⟩, _⟩
  exact absurd (back '\n' rfl) (by decide)

end Invoice
end Consignment
