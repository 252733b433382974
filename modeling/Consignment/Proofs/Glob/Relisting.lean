import Consignment.Glob.Matches
import Consignment.Proofs.Disk.Relisting
import Consignment.Proofs.Outcome
import Consignment.Text.Order

namespace Consignment
namespace Glob

/-!
# What a pattern matches on a disk that is listed in another order

A pattern is matched directory by directory, in the order in which the names of a directory
are listed.  Another order gives the same texts in another order, and the same refusal:
there is only one reason to refuse a search, so it does not matter which directory is come
to first.  Sorting then removes the difference.

One step looks at the order itself: two stars at the front match the base as an empty text,
and the first text is left out if it is empty.  No other text is empty, because names are
not, and so this one always stands first.
-/

/-! ## The same texts in another order -/

/-- Two searches find the same texts, or both come to a path that cannot be listed. -/
inductive Alike : Except Fault (List String) → Except Fault (List String) → Prop
  | found {first second : List String} (perm : first.Perm second) : Alike (.ok first) (.ok second)
  | refused : Alike (.error .nullInPath) (.error .nullInPath)

namespace Alike

variable {first second third : Except Fault (List String)}

theorem symm (alike : Alike first second) : Alike second first := by
  cases alike with
  | found perm => exact .found perm.symm
  | refused => exact .refused

theorem trans (front : Alike first second) (back : Alike second third) : Alike first third := by
  cases front with
  | found perm =>
    cases back with
    | found next => exact .found (perm.trans next)
  | refused => exact back

theorem bind_of_found (alike : Alike first second)
    {next other : List String → Except Fault (List String)}
    (rest : ∀ found found', first = .ok found → second = .ok found' → found.Perm found' →
      Alike (next found) (other found')) :
    Alike (first >>= next) (second >>= other) := by
  cases alike with
  | found perm => exact rest _ _ rfl rfl perm
  | refused => exact .refused

/-- What is done to the texts found must not depend on their order. -/
theorem bind (alike : Alike first second)
    {next other : List String → Except Fault (List String)}
    (rest : ∀ found found', found.Perm found' → Alike (next found) (other found')) :
    Alike (first >>= next) (second >>= other) :=
  alike.bind_of_found fun found found' _ _ => rest found found'

end Alike

/-- Search in several places and put together what is found. -/
def collect (search : String → Except Fault (List String)) (places : List String) :
    Except Fault (List String) := do
  let found ← places.mapM search
  return found.flatten

theorem collect_cons (search : String → Except Fault (List String)) (place : String)
    (rest : List String) :
    collect search (place :: rest) = (do
      let here ← search place
      let others ← collect search rest
      return here ++ others) := by
  unfold collect
  rw [List.mapM_cons]
  cases search place with
  | error fault => rfl
  | ok here => cases rest.mapM search <;> rfl

theorem alike_collect_cons {search other : String → Except Fault (List String)} {place : String}
    {rest rest' : List String} (here : Alike (search place) (other place))
    (others : Alike (collect search rest) (collect other rest')) :
    Alike (collect search (place :: rest)) (collect other (place :: rest')) := by
  rw [collect_cons, collect_cons]
  apply here.bind
  intro found found' perm
  apply others.bind
  intro more more' permMore
  exact .found (perm.append permMore)

/-- Two neighbouring places can change places. -/
theorem alike_collect_swap {search : String → Except Fault (List String)} {place next : String}
    {rest : List String} (here : Alike (search place) (search place))
    (there : Alike (search next) (search next))
    (others : Alike (collect search rest) (collect search rest)) :
    Alike (collect search (place :: next :: rest)) (collect search (next :: place :: rest)) := by
  simp only [collect_cons]
  cases first : search place with
  | error fault =>
    rw [first] at here
    cases here
    cases second : search next with
    | error fault =>
      rw [second] at there
      cases there
      exact .refused
    | ok found => exact .refused
  | ok found =>
    cases second : search next with
    | error fault =>
      rw [second] at there
      cases there
      exact .refused
    | ok foundNext =>
      cases more : collect search rest with
      | error fault =>
        rw [more] at others
        cases others
        exact .refused
      | ok foundRest =>
        apply Alike.found
        rw [← List.append_assoc, ← List.append_assoc]
        exact List.perm_append_comm.append_right foundRest

theorem alike_collect_same {search other : String → Except Fault (List String)}
    {places : List String} (alike : ∀ place, Alike (search place) (other place)) :
    Alike (collect search places) (collect other places) := by
  induction places with
  | nil => exact .found (List.Perm.refl _)
  | cons place rest ih => exact alike_collect_cons (alike place) ih

theorem alike_collect_perm {search : String → Except Fault (List String)}
    {places places' : List String} (perm : places.Perm places')
    (alike : ∀ place, Alike (search place) (search place)) :
    Alike (collect search places) (collect search places') := by
  induction perm with
  | nil => exact .found (List.Perm.refl _)
  | cons place _ ih => exact alike_collect_cons (alike place) ih
  | swap place next rest =>
    exact alike_collect_swap (alike next) (alike place) (alike_collect_same alike)
  | trans _ _ first second => exact first.trans second

/-- Searches that are alike in every place are alike in all places together, in any order. -/
theorem alike_collect {search other : String → Except Fault (List String)}
    {places places' : List String} (perm : places.Perm places')
    (alike : ∀ place, Alike (search place) (other place)) :
    Alike (collect search places) (collect other places') := by
  have moved : Alike (collect search places) (collect search places') :=
    alike_collect_perm perm fun place => (alike place).trans (alike place).symm
  exact moved.trans (alike_collect_same alike)

/-! ## Directories and patterns -/

section Relisting

variable {d d' : Disk} (orderly : d.Orderly) (relisted : d.Relisted d')
include orderly relisted

theorem nodeAt_relisted (text : String) : nodeAt d text = nodeAt d' text := by
  simp only [nodeAt, Disk.Relisted.locateText orderly relisted,
    Disk.Relisted.node? orderly relisted]

theorem isDirectoryAt_relisted (text : String) : isDirectoryAt d text = isDirectoryAt d' text := by
  rw [isDirectoryAt, isDirectoryAt, nodeAt_relisted orderly relisted]

theorem alike_namesAt (text : String) (directoriesOnly : Bool) :
    Alike (namesAt d text directoriesOnly) (namesAt d' text directoriesOnly) := by
  unfold namesAt
  rw [← Disk.Relisted.locateText orderly relisted, ← Disk.Relisted.node? orderly relisted]
  split
  · exact .refused
  · split
    · exact .found (List.Perm.refl _)
    · split
      · exact .found ((relisted.names _).filter _)
      · exact .found (List.Perm.refl _)

theorem alike_below (directoriesOnly : Bool) (fuel : Nat) (directory : String) :
    Alike (below d directoriesOnly fuel directory) (below d' directoriesOnly fuel directory) := by
  induction fuel generalizing directory with
  | zero => exact .found (List.Perm.refl _)
  | succ fuel ih =>
    apply (alike_namesAt orderly relisted directory directoriesOnly).bind
    intro names names' perm
    apply alike_collect (perm.filter _)
    intro name
    apply (ih (joinText directory name)).bind
    intro deeper deeper' permDeeper
    exact .found ((permDeeper.map _).cons name)

theorem alike_lastPart (directory part : String) (directoriesOnly : Bool) :
    Alike (lastPart d directory part directoriesOnly)
      (lastPart d' directory part directoriesOnly) := by
  unfold lastPart
  rw [← isDirectoryAt_relisted orderly relisted, ← nodeAt_relisted orderly relisted,
    ← relisted.nodes.length_eq]
  split
  · split <;> exact .found (List.Perm.refl _)
  · split
    · apply (alike_below orderly relisted directoriesOnly _ directory).bind
      intro deeper deeper' perm
      split
      · exact .found (perm.cons "")
      · exact .found perm
    · apply (alike_namesAt orderly relisted directory directoriesOnly).bind
      intro names names' perm
      split
      · exact .found (perm.filter _)
      · exact .found ((perm.filter _).filter _)

/-- The last part of a pattern is matched in every directory that the parts before match. -/
theorem alike_inDirectories (base part : String) (directoriesOnly : Bool)
    {directories directories' : List String} (perm : directories.Perm directories') :
    Alike
      (collect (fun directory => do
        let names ← lastPart d (joinText base directory) part directoriesOnly
        return names.map (extendText directory)) directories)
      (collect (fun directory => do
        let names ← lastPart d' (joinText base directory) part directoriesOnly
        return names.map (extendText directory)) directories') := by
  apply alike_collect perm
  intro directory
  apply (alike_lastPart orderly relisted _ part directoriesOnly).bind
  intro names names' permNames
  exact .found (permNames.map _)

theorem alike_matchFrom (base : String) (fuel : Nat) (pattern : String) (directoriesOnly : Bool) :
    Alike (matchFrom d base fuel pattern directoriesOnly)
      (matchFrom d' base fuel pattern directoriesOnly) := by
  induction fuel generalizing pattern directoriesOnly with
  | zero => exact .found (List.Perm.refl _)
  | succ fuel ih =>
    simp only [matchFrom]
    rw [← isDirectoryAt_relisted orderly relisted, ← nodeAt_relisted orderly relisted]
    split
    · split <;> exact .found (List.Perm.refl _)
    · split
      · exact alike_lastPart orderly relisted _ _ _
      · split
        · apply (ih (splitPattern pattern).1 true).bind
          intro directories directories' perm
          exact alike_inDirectories orderly relisted _ _ _ perm
        · rw [pure_bind, pure_bind]
          exact alike_inDirectories orderly relisted _ _ _ (List.Perm.refl _)

end Relisting

/-! ## The empty text -/

theorem joinText_ne_empty {name : String} (named : name ≠ "") (deeper : String) :
    joinText name deeper ≠ "" := by
  unfold joinText
  split
  · rename_i empty
    exact absurd (String.isEmpty_iff.mp empty) named
  · split
    · exact named
    · rename_i full
      split
      · exact fun same => full (String.isEmpty_iff.mpr same)
      · split <;> simp [String.append_eq_empty_iff, named]

/-- Only the empty text in the base itself gives an empty text. -/
theorem extendText_ne_empty {directory name : String} (one : directory ≠ "" ∨ name ≠ "") :
    extendText directory name ≠ "" := by
  unfold extendText
  split
  · rename_i anchored
    rintro rfl
    simp at anchored
  · split <;> simp only [ne_eq, String.append_eq_empty_iff, not_and_or] <;> tauto

theorem mem_collect {search : String → Except Fault (List String)} {places found : List String}
    (done : collect search places = .ok found) {text : String} (mem : text ∈ found) :
    ∃ place ∈ places, ∃ here, search place = .ok here ∧ text ∈ here := by
  simp only [collect, Outcome.bind_eq_ok, Outcome.pure_eq_ok] at done
  rcases done with ⟨results, searched, rfl⟩
  rcases List.mem_flatten.mp mem with ⟨here, listed, inHere⟩
  rcases Outcome.mem_of_forall₂ (Outcome.mapM_eq_ok.mp searched) listed with ⟨place, given, same⟩
  exact ⟨place, given, here, same, inHere⟩

section Empty

variable {d : Disk} (orderly : d.Orderly)
include orderly

theorem ne_empty_of_namesAt {text : String} {directoriesOnly : Bool} {names : List String}
    (listed : namesAt d text directoriesOnly = .ok names) : "" ∉ names := by
  unfold namesAt at listed
  split at listed
  · exact absurd listed (by simp)
  · split at listed
    · cases listed
      exact List.not_mem_nil
    · split at listed
      · cases listed
        exact fun mem => orderly.name_ne_empty (List.mem_filter.mp mem).1 rfl
      · cases listed
        exact List.not_mem_nil

theorem ne_empty_of_below {directoriesOnly : Bool} {fuel : Nat} {directory : String}
    {found : List String} (done : below d directoriesOnly fuel directory = .ok found) :
    "" ∉ found := by
  cases fuel with
  | zero =>
    cases done
    exact List.not_mem_nil
  | succ fuel =>
    rcases Outcome.bind_eq_ok.mp done with ⟨names, listed, searched⟩
    intro mem
    rcases mem_collect searched mem with ⟨name, kept, here, deep, inHere⟩
    have named : name ≠ "" := fun empty =>
      ne_empty_of_namesAt orderly listed (empty ▸ (List.mem_filter.mp kept).1)
    rcases Outcome.bind_eq_ok.mp deep with ⟨deeper, _, put⟩
    cases put
    rcases List.mem_cons.mp inHere with same | later
    · exact named same.symm
    · rcases List.mem_map.mp later with ⟨text, _, same⟩
      exact joinText_ne_empty named text same

/-- The empty text stands first if it is found at all. -/
theorem empty_first_of_lastPart {directory part : String} {directoriesOnly : Bool}
    {found : List String} (done : lastPart d directory part directoriesOnly = .ok found) :
    "" ∉ found.tail := by
  have single (p : Prop) [Decidable p] : "" ∉ (if p then [part] else []).tail := by
    split <;> simp
  unfold lastPart at done
  split at done
  · split at done
    · cases done
      exact single _
    · cases done
      exact single _
  · split at done
    · rcases Outcome.bind_eq_ok.mp done with ⟨deeper, searched, put⟩
      have full := ne_empty_of_below orderly searched
      split at put
      · cases put
        exact full
      · cases put
        exact fun mem => full (List.mem_of_mem_tail mem)
    · rcases Outcome.bind_eq_ok.mp done with ⟨names, listed, put⟩
      have full := ne_empty_of_namesAt orderly listed
      cases put
      intro mem
      have visible := (List.mem_filter.mp (List.mem_of_mem_tail mem)).1
      split at visible
      · exact full visible
      · exact full (List.mem_filter.mp visible).1

theorem empty_first_of_inDirectories {base part : String} {directoriesOnly : Bool}
    {directories found : List String} (first : "" ∉ directories.tail)
    (done : collect (fun directory => do
      let names ← lastPart d (joinText base directory) part directoriesOnly
      return names.map (extendText directory)) directories = .ok found) : "" ∉ found.tail := by
  cases directories with
  | nil =>
    cases done
    exact List.not_mem_nil
  | cons directory rest =>
    rw [collect_cons] at done
    rcases Outcome.bind_eq_ok.mp done with ⟨here, searched, more⟩
    rcases Outcome.bind_eq_ok.mp more with ⟨others, collected, put⟩
    cases put
    have later : "" ∉ others := by
      intro mem
      rcases mem_collect collected mem with ⟨place, given, found, extended, inFound⟩
      have named : place ≠ "" := fun empty => first (empty ▸ given)
      rcases Outcome.bind_eq_ok.mp extended with ⟨names, _, same⟩
      cases same
      rcases List.mem_map.mp inFound with ⟨name, _, empty⟩
      exact extendText_ne_empty (Or.inl named) empty
    rcases Outcome.bind_eq_ok.mp searched with ⟨names, listed, same⟩
    cases same
    have front := empty_first_of_lastPart orderly listed
    cases names with
    | nil => exact fun mem => later (List.mem_of_mem_tail mem)
    | cons name names =>
      intro mem
      rcases List.mem_append.mp mem with inHere | inOthers
      · rcases List.mem_map.mp inHere with ⟨other, listedLater, empty⟩
        have full : other ≠ "" := fun same => front (same ▸ listedLater)
        exact extendText_ne_empty (Or.inr full) empty
      · exact later inOthers

theorem empty_first_of_matchFrom {base : String} {fuel : Nat} {pattern : String}
    {directoriesOnly : Bool} {found : List String}
    (done : matchFrom d base fuel pattern directoriesOnly = .ok found) : "" ∉ found.tail := by
  have single (text : String) (p : Prop) [Decidable p] : "" ∉ (if p then [text] else []).tail := by
    split <;> simp
  induction fuel generalizing pattern directoriesOnly found with
  | zero =>
    cases done
    exact List.not_mem_nil
  | succ fuel ih =>
    simp only [matchFrom] at done
    split at done
    · split at done
      · cases done
        exact single pattern _
      · cases done
        exact single pattern _
    · split at done
      · exact empty_first_of_lastPart orderly done
      · split at done
        · rcases Outcome.bind_eq_ok.mp done with ⟨directories, searched, rest⟩
          exact empty_first_of_inDirectories orderly (ih searched) rest
        · rw [pure_bind] at done
          exact empty_first_of_inDirectories orderly List.not_mem_nil done

end Empty

/-- The first text is left out if it is empty. -/
def dropEmpty : List String → List String
  | "" :: rest => rest
  | found => found

theorem matching_eq (d : Disk) (base : Path) (pattern : String) :
    matching d base pattern = (do
      let found ← matchFrom d base.text (pattern.length + 1) pattern false
      .ok (if pattern.isEmpty || pattern.toList.take 2 == ['*', '*'] then dropEmpty found
        else found)) := by
  unfold matching
  cases matchFrom d base.text (pattern.length + 1) pattern false with
  | error fault => rfl
  | ok found =>
    simp only [Outcome.ok_bind]
    split
    · fun_cases dropEmpty found with
      | case1 rest => rfl
      | case2 _ other =>
        split
        · exact absurd rfl (other _)
        · rfl
    · rfl

theorem dropEmpty_perm {first second : List String} (perm : first.Perm second)
    (front : "" ∉ first.tail) (frontOther : "" ∉ second.tail) :
    (dropEmpty first).Perm (dropEmpty second) := by
  have kept (found : List String) (full : "" ∉ found) : dropEmpty found = found := by
    cases found with
    | nil => rfl
    | cons text rest =>
      have named : text ≠ "" := fun same => full (same ▸ List.mem_cons_self)
      unfold dropEmpty
      split
      · rename_i same
        exact absurd (List.cons.inj same).1 named
      · rfl
  have shape (found : List String) (front : "" ∉ found.tail) (mem : "" ∈ found) :
      found = "" :: found.tail := by
    cases found with
    | nil => exact absurd mem List.not_mem_nil
    | cons text rest =>
      rcases List.mem_cons.mp mem with same | later
      · rw [← same, List.tail_cons]
      · exact absurd later front
  by_cases mem : "" ∈ first
  · have memOther := perm.mem_iff.mp mem
    rw [shape first front mem, shape second frontOther memOther] at perm ⊢
    exact perm.cons_inv
  · rw [kept first mem, kept second fun other => mem (perm.mem_iff.mpr other)]
    exact perm

/-- A pattern matches the same texts on a disk that is listed in another order. -/
theorem alike_matching {d d' : Disk} (orderly : d.Orderly) (relisted : d.Relisted d') (base : Path)
    (pattern : String) : Alike (matching d base pattern) (matching d' base pattern) := by
  rw [matching_eq, matching_eq]
  apply (alike_matchFrom orderly relisted _ _ pattern false).bind_of_found
  intro found found' done other perm
  have front := empty_first_of_matchFrom orderly done
  have frontOther := empty_first_of_matchFrom (orderly.relisted relisted) other
  split
  · exact .found (dropEmpty_perm perm front frontOther)
  · exact .found perm

end Glob

/-- Texts have one order, so sorting forgets how they stood. -/
theorem Text.sorted_eq_of_perm {first second : List String} (perm : first.Perm second) :
    sorted first = sorted second := by
  apply List.Perm.eq_of_pairwise _ (pairwise_sorted first) (pairwise_sorted second)
  · exact (List.mergeSort_perm first _).trans (perm.trans (List.mergeSort_perm second _).symm)
  · exact fun a b _ _ first second => String.le_antisymm first second

end Consignment
