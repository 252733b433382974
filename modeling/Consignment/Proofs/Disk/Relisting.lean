import Consignment.Proofs.Disk.Following
import Mathlib.Data.List.Nodup

namespace Consignment
namespace Disk

/-!
# A disk that is listed in another order

A file system keeps a tree: nothing stands in it twice, and every name has a character.  It
lists the names in a directory in an order of its own, which can differ between two systems
with the same tree.  What a path leads to does not depend on that order; only the order of
the names in a directory does.
-/

/-- A tree as a file system keeps it. -/
structure Orderly (d : Disk) : Prop where
  distinct : (d.nodes.map Prod.fst).Nodup
  named : ∀ entry ∈ d.nodes, "" ∉ entry.1

/-- The same tree, listed in another order. -/
structure Relisted (d d' : Disk) : Prop where
  nodes : d.nodes.Perm d'.nodes
  here : d'.here = d.here

variable {d d' : Disk}

theorem Orderly.relisted (orderly : d.Orderly) (relisted : d.Relisted d') : d'.Orderly where
  distinct := ((relisted.nodes.map Prod.fst).nodup_iff).mp orderly.distinct
  named := fun entry mem => orderly.named entry (relisted.nodes.mem_iff.mpr mem)

theorem Orderly.name_ne_empty (orderly : d.Orderly) {place : Place} {name : String}
    (mem : name ∈ d.names place) : name ≠ "" := by
  rcases List.mem_filterMap.mp mem with ⟨entry, held, listed⟩
  split at listed
  · exact absurd listed (by simp)
  · rename_i other parent reversed
    split at listed
    · cases listed
      have inside : name ∈ entry.1 := List.mem_reverse.mp (by simp [reversed])
      rintro rfl
      exact orderly.named entry held inside
    · exact absurd listed (by simp)

/-! ## What a path leads to -/

/-- Looking something up does not depend on the order if nothing is there twice. -/
theorem lookup_eq_of_perm {first second : List (Place × Node)} (perm : first.Perm second)
    (distinct : (first.map Prod.fst).Nodup) (place : Place) :
    first.lookup place = second.lookup place := by
  induction perm with
  | nil => rfl
  | cons entry _ ih =>
    rw [List.map_cons, List.nodup_cons] at distinct
    rw [List.lookup_cons, List.lookup_cons, ih distinct.2]
  | swap entry other rest =>
    rcases entry with ⟨here, node⟩
    rcases other with ⟨there, otherNode⟩
    have differ : there ≠ here := by
      rw [List.map_cons, List.map_cons, List.nodup_cons] at distinct
      rintro rfl
      exact distinct.1 List.mem_cons_self
    simp only [List.lookup_cons]
    cases atThere : place == there with
    | false => rfl
    | true =>
      have elsewhere : (place == here) = false :=
        beq_eq_false_iff_ne.mpr fun same => differ ((beq_iff_eq.mp atThere).symm.trans same)
      rw [elsewhere]
  | trans front _ first second =>
    exact (first distinct).trans (second (((front.map Prod.fst).nodup_iff).mp distinct))

namespace Relisted

theorem node? (orderly : d.Orderly) (relisted : d.Relisted d') : d.node? = d'.node? := by
  funext place
  simp only [Disk.node?, lookup_eq_of_perm relisted.nodes orderly.distinct]

theorem names (relisted : d.Relisted d') (place : Place) :
    (d.names place).Perm (d'.names place) :=
  relisted.nodes.filterMap _

end Relisted

/-- Following names asks only what places hold. -/
theorem walk_congr (same : d.node? = d'.node?) (place : Place) (names : List String) :
    d.walk place names = d'.walk place names := by
  induction names generalizing place with
  | nil => rfl
  | cons name rest ih => simp only [walk, same, ih]

namespace Relisted

variable (orderly : d.Orderly) (relisted : d.Relisted d')
include orderly relisted

theorem locate (p : Path) : d.locate p = d'.locate p := by
  simp only [Disk.locate, start_congr relisted.here, walk_congr (node? orderly relisted)]

theorem locateText (text : String) : d.locateText text = d'.locateText text := by
  simp only [Disk.locateText, start_congr relisted.here, walk_congr (node? orderly relisted)]

theorem stat (p : Path) : d.stat p = d'.stat p := by
  simp only [Disk.stat, locate orderly relisted, node? orderly relisted]

theorem read (p : Path) : d.read p = d'.read p := by
  simp only [Disk.read, stat orderly relisted]

theorem isFile (p : Path) : d.isFile p = d'.isFile p := by
  simp only [Disk.isFile, probe, stat orderly relisted]

end Relisted
end Disk
end Consignment
