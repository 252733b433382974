import Consignment.Proofs.Disk.Changing
import Mathlib.Data.List.Infix

namespace Consignment
namespace Disk

/-!
# What a path depends on

What a path leads to depends on the places on the way and on nothing else, so two disks that agree
on these places give the same answer about the path.  A directory that is there is made again
without any change.  When the directories of a path have been made, all places on the way are
directories, those that were there and those that were not, and every other place is as it was.
-/

/-- The same tree, in whatever order it is listed. -/
structure SameTree (d d' : Disk) : Prop where
  here : d'.here = d.here
  nodes : ∀ q, d'.node? q = d.node? q

variable {d d' : Disk}

/-- The places on the way to a path, from where it starts to where it leads. -/
def placesTo (d : Disk) (p : Path) : List Place :=
  p.parts.inits.map (follow (d.start p.anchor))

theorem mem_placesTo {p : Path} {q : Place} :
    q ∈ d.placesTo p ↔ ∃ parts, parts <+: p.parts ∧ q = follow (d.start p.anchor) parts := by
  simp only [placesTo, List.mem_map, List.mem_inits, eq_comm]

theorem mem_placesTo_iff_onTheWay {p : Path} {q : Place} :
    q ∈ d.placesTo p ↔ d.OnTheWay p q .directory := by
  rw [mem_placesTo, OnTheWay, eq_self, true_and]

theorem placeOf_mem_placesTo (d : Disk) (p : Path) : d.placeOf p ∈ d.placesTo p :=
  mem_placesTo.mpr ⟨p.parts, List.prefix_refl _, rfl⟩

/-- The way to a path begins with the way to its parent. -/
theorem placesTo_parent_subset (d : Disk) (p : Path) : d.placesTo p.parent ⊆ d.placesTo p := by
  intro q mem
  exact mem_placesTo_iff_onTheWay.mpr (mem_placesTo_iff_onTheWay.mp mem).of_parent

/-- The way to a path ends where the path leads. -/
theorem cases_of_mem_placesTo {p : Path} {q : Place} (mem : q ∈ d.placesTo p) :
    q ∈ d.placesTo p.parent ∨ q = d.placeOf p := by
  rcases mem_placesTo.mp mem with ⟨parts, front, rfl⟩
  rcases List.eq_nil_or_concat p.parts with none | ⟨above, name, whole⟩
  · rw [none, List.prefix_nil] at front
    exact .inr (by rw [front, placeOf_eq_follow, none])
  · rw [whole, List.concat_eq_append] at front
    rcases List.prefix_concat_iff.mp front with rfl | shorter
    · exact .inr (by rw [placeOf_eq_follow, whole, List.concat_eq_append])
    · refine .inl (mem_placesTo.mpr ⟨parts, ?_, rfl⟩)
      simpa [Path.parent, whole] using shorter

theorem placesTo_congr (here : d'.here = d.here) (p : Path) : d'.placesTo p = d.placesTo p := by
  rw [placesTo, placesTo, start_congr here]

/-! ## Agreeing on the way -/

theorem walk_congr_on {place : Place} {parts : List String} (proper : Proper parts)
    (same : ∀ front, front <+: parts →
      d'.node? (follow place front) = d.node? (follow place front)) :
    d'.walk place parts = d.walk place parts := by
  induction parts generalizing place with
  | nil => rfl
  | cons name rest ih =>
    have later : Proper rest := fun part mem => proper part (List.mem_cons_of_mem _ mem)
    have moves : ¬ (name = "" ∨ name = ".") := not_or.mpr (proper name List.mem_cons_self)
    have here : d'.node? place = d.node? place := same [] List.nil_prefix
    have there : d'.node? (follow place [name]) = d.node? (follow place [name]) :=
      same [name] (List.cons_prefix_cons.mpr ⟨rfl, List.nil_prefix⟩)
    have further : d'.walk (follow place [name]) rest = d.walk (follow place [name]) rest := by
      refine ih later fun front leads => ?_
      rw [← follow_append]
      exact same _ (List.cons_prefix_cons.mpr ⟨rfl, leads⟩)
    by_cases up : name = ".."
    · have back : follow place [name] = place.dropLast := if_pos up
      rw [back] at further
      simp only [walk, here, if_neg moves, if_pos up, further]
    · have down : follow place [name] = place ++ [name] := if_neg up
      rw [down] at further there
      simp only [walk, here, if_neg moves, if_neg up, further, there]

/-- Disks that agree on the way to a path agree on what it leads to. -/
theorem stat_congr_on {p : Path} (proper : Proper p.parts) (here : d'.here = d.here)
    (same : ∀ q ∈ d.placesTo p, d'.node? q = d.node? q) : d'.stat p = d.stat p := by
  have walked : d'.walk (d'.start p.anchor) p.parts = d.walk (d.start p.anchor) p.parts := by
    rw [start_congr here]
    exact walk_congr_on proper fun front leads => same _ (mem_placesTo.mpr ⟨front, leads, rfl⟩)
  have located : d'.locate p = d.locate p := by rw [locate, locate, walked]
  unfold stat
  rw [located]
  cases leads : d.locate p with
  | error refusal => rfl
  | ok place =>
    have whole : place = d.placeOf p := locate_eq_placeOf proper leads
    simp only [whole, same _ (placeOf_mem_placesTo d p)]

/-- On the way to a directory there are directories. -/
theorem directory_of_stat {p : Path} (proper : Proper p.parts)
    (found : d.stat p = .ok .directory) {q : Place} (way : q ∈ d.placesTo p) :
    d.node? q = some .directory := by
  rcases stat_eq_ok.mp found with ⟨-, place, located, held⟩
  rcases mem_placesTo.mp way with ⟨parts, ⟨rest, whole⟩, rfl⟩
  have walked := (locate_eq_ok.mp located).2
  rw [← whole] at walked
  rcases walk_append_eq_ok.mp walked with ⟨middle, first, second⟩
  have front : Proper parts := fun part mem => proper part (whole ▸ List.mem_append_left rest mem)
  rw [← walk_eq_follow front first]
  cases rest with
  | nil =>
    cases second
    exact held
  | cons name others => exact (walk_cons_eq_ok.mp second).1

/-! ## Directories that are made -/

theorem isDirectory_eq_ok_true {p : Path} :
    d.isDirectory p = .ok true ↔ d.stat p = .ok .directory := by
  unfold isDirectory probe
  cases d.stat p with
  | ok node => cases node <;> simp
  | error fault =>
    cases fault with
    | disk fault => cases refusal : fault.refusal <;> simp [refusal]
    | _ => simp

theorem stat_of_makeDirectory {p : Path} (named : EndsInName p)
    (made : d.makeDirectory p = .ok d') : d'.stat p = .ok .directory := by
  unfold makeDirectory at made
  split at made
  · cases made
  · rename_i clean
    split at made
    · cases made
    · rename_i place found
      rcases vacancy_eq_ok.mp found with ⟨parent, name, vacant, rfl⟩
      cases made
      have nodes := node?_put d (show parent ++ [name] ≠ [] by simp) .directory
      have there : (d.put (parent ++ [name]) .directory).node? (parent ++ [name]) =
          some .directory := by rw [nodes, if_pos rfl]
      refine stat_eq_ok.mpr ⟨Bool.not_eq_true _ ▸ clean, parent ++ [name], ?_, there⟩
      refine vacant.locate_eq_ok (named name vacant.last) rfl (fun q held => ?_) (by simp [there])
      rw [nodes]
      split
      · rfl
      · exact held

theorem stat_of_unlessDirectory {p : Path} {fault : DiskFault}
    (there : d.unlessDirectory p (.disk fault) = .ok ()) : d.stat p = .ok .directory := by
  rcases Outcome.bind_eq_ok.mp there with ⟨answer, asked, answered⟩
  cases answer with
  | true => exact isDirectory_eq_ok_true.mp asked
  | false => cases answered

theorem stat_of_makeLast {p : Path} (named : EndsInName p)
    (made : d.makeLast p = (d', .ok ())) : d'.stat p = .ok .directory := by
  unfold makeLast at made
  split at made
  · rename_i done
    cases made
    exact stat_of_makeDirectory named done
  · split at made
    · cases made
    · rcases Prod.mk.inj made with ⟨rfl, there⟩
      exact stat_of_unlessDirectory there
  · cases made

/-- A directory that was asked for is there. -/
theorem stat_of_ensureDirectory {p : Path} (named : EndsInName p)
    (ensured : d.ensureDirectory p = (d', .ok ())) : d'.stat p = .ok .directory := by
  rw [ensureDirectory, makeDirectories] at ensured
  split at ensured
  · rename_i done
    cases ensured
    exact stat_of_makeDirectory named done
  · split at ensured
    · split at ensured
      · cases ensured
      · split at ensured
        · cases ensured
        · exact stat_of_makeLast named ensured
    · rcases Prod.mk.inj ensured with ⟨rfl, there⟩
      exact stat_of_unlessDirectory there
  · cases ensured

/-- The place of a directory is no vacancy. -/
theorem vacancy_of_located {p : Path} {place : Place} (located : d.locate p = .ok place)
    (named : EndsInName p) :
    d.vacancy p = .error .occupied := by
  rcases locate_eq_ok.mp located with ⟨short, walked⟩
  unfold vacancy
  rw [if_neg short]
  rcases List.eq_nil_or_concat p.parts with none | ⟨front, name, parts⟩
  · simp only [none, List.getLast?_nil]
  · have last : p.parts.getLast? = some name := by simp [parts]
    rw [parts, List.concat_eq_append] at walked
    rcases walk_append_eq_ok.mp walked with ⟨parent, first, second⟩
    rcases walk_cons_eq_ok.mp second with ⟨directory, next, leads, final⟩
    have above : p.parts.dropLast = front := by simp [parts]
    simp only [last, above, first, directory]
    cases leads with
    | stay still => exact absurd still (named name last)
    | up => rfl
    | down _ down fits there => rw [if_neg down, if_neg fits, if_pos there]

/-- A directory that is there is not made again. -/
theorem ensureDirectory_of_stat {p : Path} (named : EndsInName p)
    (found : d.stat p = .ok .directory) : d.ensureDirectory p = (d, .ok ()) := by
  rcases stat_eq_ok.mp found with ⟨clean, place, located, held⟩
  have refused : d.makeDirectory p = .error (.disk ⟨.occupied, p.text, none⟩) := by
    rw [makeDirectory, clean, vacancy_of_located located named]
    rfl
  have there : d.unlessDirectory p (.disk ⟨.occupied, p.text, none⟩) = .ok () := by
    rw [unlessDirectory, isDirectory_eq_ok_true.mpr found]
    rfl
  rw [ensureDirectory, makeDirectories, refused]
  simp only [reduceCtorEq, if_false, there]

/-- When a directory has been made, the places on the way are directories, and the others are as
they were. -/
theorem node?_ensureDirectory {p : Path} (proper : Proper p.parts)
    (ensured : d.ensureDirectory p = (d', .ok ())) (q : Place) :
    d'.node? q = (d.node? q).or (if q ∈ d.placesTo p then some .directory else none) := by
  have grown : Grown (d.OnTheWay p) d (d.ensureDirectory p).1 := grown_ensureDirectory proper
  rw [ensured] at grown
  cases old : d.node? q with
  | some node => rw [grown.kept q node old, Option.some_or]
  | none =>
    rw [Option.none_or]
    split
    · rename_i way
      rw [← placesTo_congr grown.here] at way
      exact directory_of_stat proper (stat_of_ensureDirectory (.of_proper proper) ensured) way
    · rename_i off
      rw [Option.eq_none_iff_forall_ne_some]
      intro node new
      rcases grown.added q node new with held | way
      · rw [old] at held
        cases held
      · cases way.1
        exact off (mem_placesTo_iff_onTheWay.mpr way)

/-- Where all places on the way are directories nothing is made. -/
theorem node?_ensureDirectory_of_held {p : Path} (proper : Proper p.parts)
    (held : ∀ q ∈ d.placesTo p, d.node? q = some .directory) (q : Place) :
    (d.ensureDirectory p).1.node? q = d.node? q := by
  have grown : Grown (d.OnTheWay p) d (d.ensureDirectory p).1 := grown_ensureDirectory proper
  cases old : d.node? q with
  | some node => exact grown.kept q node old
  | none =>
    rw [Option.eq_none_iff_forall_ne_some]
    intro node new
    rcases grown.added q node new with before | way
    · rw [old] at before
      cases before
    · rw [held q (mem_placesTo_iff_onTheWay.mpr (way.1 ▸ way))] at old
      cases old

/-! ## Documents that are replaced -/

/-- A file is written to the place that its path names. -/
theorem placeOf_of_fileTarget {p : Path} {place : Place} (proper : Proper p.parts)
    (target : d.fileTarget p = .ok place) : place = d.placeOf p := by
  rcases fileTarget_eq_ok target with ⟨parent, name, vacant, rfl⟩ | ⟨bytes, located, _⟩
  · exact (vacant.placeOf_eq proper).symm
  · exact locate_eq_placeOf proper located

theorem fileTarget_of_stat {p : Path} {bytes : ByteArray} (named : EndsInName p)
    (found : d.stat p = .ok (.file bytes)) : ∃ place, d.fileTarget p = .ok place := by
  rcases stat_eq_ok.mp found with ⟨-, place, located, held⟩
  refine ⟨place, ?_⟩
  unfold fileTarget
  simp only [vacancy_of_located located named, located, held]

/-- A document never takes the place of a directory. -/
theorem not_directory_of_replaceFile {p : Path} {bytes : ByteArray} (proper : Proper p.parts)
    (replaced : d.replaceFile p bytes = (d', .ok ())) :
    (d.ensureDirectory p.parent).1.node? (d.placeOf p) ≠ some .directory := by
  have grown : Grown (d.OnTheWay p.parent) d (d.ensureDirectory p.parent).1 :=
    grown_ensureDirectory proper.parent
  rw [← grown.placeOf]
  rcases replaceFile_iff.mp replaced with ⟨made, directory, ensured, -, -, renamed⟩
  rcases rename_eq_ok.mp renamed with ⟨-, -, place, target, -⟩
  rw [ensured]
  intro held
  have here : place = made.placeOf p :=
    (placeOf_of_fileTarget proper target).trans (placeOf_congr rfl p)
  refine not_directory_of_fileTarget target ?_
  rw [node?_put made (temporaryPlace_ne_nil made directory), here, if_neg, held]
  intro same
  rw [same, node?_temporaryPlace] at held
  cases held

/-- A document that was replaced is in a directory. -/
theorem stat_parent_of_replaceFile {p : Path} {bytes : ByteArray} (proper : Proper p.parts)
    (replaced : d.replaceFile p bytes = (d', .ok ())) :
    (d.ensureDirectory p.parent).1.stat p.parent = .ok .directory := by
  rcases replaceFile_iff.mp replaced with ⟨made, directory, ensured, -⟩
  rw [ensured]
  exact stat_of_ensureDirectory (.of_proper proper.parent) ensured

theorem fitsTemporary_congr (here : d'.here = d.here) (p : Path) :
    d'.fitsTemporary p = d.fitsTemporary p := by
  rw [fitsTemporary, fitsTemporary, absoluteText, absoluteText, placeOf_congr here]

/-- A temporary file could be made beside a document that was replaced. -/
theorem fitsTemporary_of_replaceFile {p : Path} {bytes : ByteArray} (proper : Proper p.parts)
    (replaced : d.replaceFile p bytes = (d', .ok ())) : d.fitsTemporary p.parent = true := by
  have grown : Grown (d.OnTheWay p.parent) d (d.ensureDirectory p.parent).1 :=
    grown_ensureDirectory proper.parent
  rcases replaceFile_iff.mp replaced with ⟨made, directory, ensured, -, fits, -⟩
  rw [← fitsTemporary_congr grown.here, ensured]
  exact fits

/-- Replacing a document leaves the answers about other paths as they are. -/
theorem Replaced.stat_of_ne {before after : Disk} {p : Path} {bytes : ByteArray} {place : Place}
    (replaced : Replaced before after p bytes place)
    (free : before.node? place ≠ some .directory) {other : Path} {node : Node}
    (proper : Proper other.parts) (apart : before.placeOf other ≠ place)
    (found : before.stat other = .ok node) : after.stat other = .ok node := by
  rcases stat_eq_ok.mp found with ⟨clean, q, located, held⟩
  have here : q = before.placeOf other := locate_eq_placeOf proper located
  have there : after.node? q = some node := by rw [replaced.node, if_neg (here ▸ apart), held]
  rcases locate_eq_ok.mp located with ⟨short, walked⟩
  refine stat_eq_ok.mpr ⟨clean, q, locate_eq_ok.mpr ⟨short, ?_⟩, there⟩
  rw [start_congr replaced.here]
  refine walk_of_kept (fun r directory => ?_) (by simp [there]) walked
  rw [replaced.node, if_neg, directory]
  rintro rfl
  exact free directory

/-- A document that is there can be replaced, when its directory is there and has room for the path
of a temporary file. -/
theorem replaceFile_of_stat {p : Path} {old : ByteArray} (bytes : ByteArray) {name : String}
    (proper : Proper p.parts) (last : p.parts.getLast? = some name) (down : name ≠ "..")
    (above : d.stat p.parent = .ok .directory) (fits : d.fitsTemporary p.parent = true)
    (found : d.stat p = .ok (.file old)) : ∃ d', d.replaceFile p bytes = (d', .ok ()) := by
  rcases stat_eq_ok.mp found with ⟨clean, -⟩
  rcases stat_eq_ok.mp above with ⟨-, directory, located, -⟩
  have ensured : d.ensureDirectory p.parent = (d, .ok ()) :=
    ensureDirectory_of_stat (.of_proper proper.parent) above
  have unfinished : Grown (fun _ _ => True) d (d.put (d.temporaryPlace directory) (.file bytes)) :=
    .put (node?_temporaryPlace d directory) trivial
  rcases fileTarget_of_stat (.of_proper proper) (unfinished.stat found) with ⟨place, target⟩
  exact ⟨_, replaceFile_iff.mpr ⟨d, directory, ensured, located, fits,
    rename_eq_ok.mpr ⟨clean, by simp [last, down], place, target, rfl⟩⟩⟩

end Disk
end Consignment
