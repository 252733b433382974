namespace Consignment
namespace Text

/-!
# Texts in order

Names are listed by code point, the order of strings itself.  Where a list of
names stands for a set, every name is listed once.
-/

/-- Not after, by code point. -/
def notAfter (s t : String) : Bool :=
  !decide (t < s)

/-- By code point, with repetitions. -/
def sorted (names : List String) : List String :=
  names.mergeSort notAfter

/-- By code point, every name once. -/
def sortedSet (names : List String) : List String :=
  sorted names.eraseDups

theorem notAfter_iff {s t : String} : notAfter s t = true ↔ s ≤ t := by
  rw [notAfter, Bool.not_eq_true', decide_eq_false_iff_not]
  exact String.not_lt

/-- No name stands behind a later one. -/
theorem pairwise_sorted (names : List String) : (sorted names).Pairwise (· ≤ ·) := by
  have inOrder : (sorted names).Pairwise fun s t => notAfter s t = true := by
    apply List.pairwise_mergeSort
    · intro s t u first second
      exact notAfter_iff.mpr (String.le_trans (notAfter_iff.mp first) (notAfter_iff.mp second))
    · intro s t
      rw [Bool.or_eq_true, notAfter_iff, notAfter_iff]
      exact String.le_total s t
  exact inOrder.imp notAfter_iff.mp

theorem mem_sorted {names : List String} {name : String} : name ∈ sorted names ↔ name ∈ names :=
  List.mem_mergeSort

theorem mem_sortedSet {names : List String} {name : String} :
    name ∈ sortedSet names ↔ name ∈ names := by
  simp [sortedSet, mem_sorted, List.mem_eraseDups]

end Text
end Consignment
