import Consignment.Glob.Matches
import Consignment.Proofs.Ending

namespace Consignment

open Outcome

/-!
# What stops the search for a pattern

A search lists directories, and only a listing can fail: when the path of the directory has a
character that no path can hold.  Such a character does not come from nowhere.  It is in the base,
in the pattern, or in a name on the disk, and the last is no disk that anybody has.
-/

namespace Disk

/-- Somewhere on the disk a name has a character that no path can hold. -/
def HoldsNull (d : Disk) : Prop :=
  ∃ entry ∈ d.nodes, ∃ name ∈ entry.1, Glob.hasNull name = true

theorem exists_mem_nodes_of_mem_names {d : Disk} {place : Place} {name : String}
    (mem : name ∈ d.names place) : ∃ entry ∈ d.nodes, name ∈ entry.1 := by
  rcases List.mem_filterMap.mp mem with ⟨entry, held, named⟩
  refine ⟨entry, held, ?_⟩
  split at named
  · cases named
  · rename_i last parent reversed
    split at named
    · cases named
      rw [← List.mem_reverse, reversed]
      exact List.mem_cons_self
    · cases named

end Disk

namespace Glob

theorem hasNull_append (first second : String) :
    hasNull (first ++ second) = (hasNull first || hasNull second) := by
  simp [hasNull]

theorem hasNull_joinText {first second : String} (null : hasNull (joinText first second) = true) :
    hasNull first = true ∨ hasNull second = true := by
  have slash : hasNull "/" = false := by decide
  unfold joinText at null
  split at null
  · exact .inr null
  · split at null
    · exact .inl null
    · split at null
      · exact .inr null
      · split at null <;> simpa [hasNull_append, slash] using null

theorem hasNull_extendText {first second : String}
    (null : hasNull (extendText first second) = true) :
    hasNull first = true ∨ hasNull second = true := by
  have slash : hasNull "/" = false := by decide
  unfold extendText at null
  split at null
  · exact .inr null
  · split at null <;> simpa [hasNull_append, slash] using null

/-- The two pieces of a pattern hold nothing that the pattern does not. -/
theorem hasNull_splitPattern (pattern : String) :
    (hasNull (splitPattern pattern).1 = true → hasNull pattern = true) ∧
      (hasNull (splitPattern pattern).2 = true → hasNull pattern = true) := by
  have part {cs : List Char} (part : cs ⊆ pattern.toList)
      (null : hasNull (String.ofList cs) = true) : hasNull pattern = true := by
    simp only [hasNull, List.contains_iff_mem, String.toList_ofList] at null ⊢
    exact part null
  have reversed : pattern.toList.reverse ⊆ pattern.toList := fun _ => List.mem_reverse.mp
  have front := (List.dropWhile_sublist (l := pattern.toList.reverse) (· != '/')).subset
  constructor
  · apply part
    split
    · exact fun c mem => reversed (front (List.mem_reverse.mp mem))
    · intro c mem
      exact reversed (front ((List.dropWhile_sublist _).subset (List.mem_reverse.mp mem)))
  · apply part
    intro c mem
    exact reversed ((List.takeWhile_sublist _).subset (List.mem_reverse.mp mem))

variable {d : Disk} {null : Prop}

/-- Texts that are possible unless something is known. -/
def Possible (null : Prop) (found : List String) : Prop :=
  ∀ text ∈ found, hasNull text = true → null

/-- A search whose texts are possible unless something is known, and which fails only then. -/
def Searches (null : Prop) (search : Except Fault (List String)) : Prop :=
  Ends (Possible null) (fun fault => fault = .nullInPath ∧ null) search

variable (held : d.HoldsNull → null)
include held

theorem searches_namesAt {text : String} (given : hasNull text = true → null)
    (directoriesOnly : Bool) : Searches null (namesAt d text directoriesOnly) := by
  unfold namesAt
  split
  · exact ⟨rfl, given ‹_›⟩
  · split
    · exact fun _ mem => absurd mem List.not_mem_nil
    · split
      · intro name mem isNull
        rcases Disk.exists_mem_nodes_of_mem_names (List.mem_filter.mp mem).1 with ⟨entry, there, inside⟩
        exact held ⟨entry, there, name, inside, isNull⟩
      · exact fun _ mem => absurd mem List.not_mem_nil

theorem searches_below (directoriesOnly : Bool) (fuel : Nat) {directory : String}
    (given : hasNull directory = true → null) :
    Searches null (below d directoriesOnly fuel directory) := by
  induction fuel generalizing directory with
  | zero => exact fun _ mem => absurd mem List.not_mem_nil
  | succ fuel ih =>
    rw [below]
    refine (searches_namesAt held given directoriesOnly).bind fun names named => ?_
    refine Ends.bind (Q := fun lists => ∀ found ∈ lists, Possible null found) (ends_mapM fun name mem => ?_)
      fun lists all => ?_
    · have here := named name (List.mem_of_mem_filter mem)
      have inside : hasNull (joinText directory name) = true → null :=
        fun isNull => (hasNull_joinText isNull).elim given here
      refine (ih inside).bind fun deeper below => ?_
      intro text mem isNull
      rcases List.mem_cons.mp mem with rfl | mem
      · exact here isNull
      · rcases List.mem_map.mp mem with ⟨other, listed, rfl⟩
        exact (hasNull_joinText isNull).elim here (below other listed)
    · intro text mem
      rcases List.mem_flatten.mp mem with ⟨found, listed, inside⟩
      exact all found listed text inside

theorem searches_lastPart {directory part : String} (given : hasNull directory = true → null)
    (named : hasNull part = true → null) (directoriesOnly : Bool) :
    Searches null (lastPart d directory part directoriesOnly) := by
  have only {p : Prop} [Decidable p] : Searches null (.ok (if p then [part] else [])) := by
    intro text mem
    split at mem
    · cases List.mem_singleton.mp mem
      exact named
    · exact absurd mem List.not_mem_nil
  unfold lastPart
  refine .ite (.ite only only) (.ite ?_ ?_)
  · refine (searches_below held directoriesOnly _ given).bind fun deeper below => ?_
    intro text mem isNull
    split at mem
    · rcases List.mem_cons.mp mem with rfl | mem
      · exact absurd isNull (by decide)
      · exact below text mem isNull
    · exact below text mem isNull
  · refine (searches_namesAt held given directoriesOnly).bind fun names listed => ?_
    intro name mem
    have visible := List.mem_of_mem_filter mem
    split at visible
    · exact listed name visible
    · exact listed name (List.mem_of_mem_filter visible)

theorem searches_matchFrom {base : String} (based : hasNull base = true → null) (fuel : Nat)
    {pattern : String} (given : hasNull pattern = true → null) (directoriesOnly : Bool) :
    Searches null (matchFrom d base fuel pattern directoriesOnly) := by
  induction fuel generalizing pattern directoriesOnly with
  | zero => exact fun _ mem => absurd mem List.not_mem_nil
  | succ fuel ih =>
    have front := given ∘ (hasNull_splitPattern pattern).1
    have back := given ∘ (hasNull_splitPattern pattern).2
    have only {p : Prop} [Decidable p] : Searches null (.ok (if p then [pattern] else [])) := by
      intro text mem
      split at mem
      · cases List.mem_singleton.mp mem
        exact given
      · exact absurd mem List.not_mem_nil
    rw [matchFrom]
    generalize splitPattern pattern = pieces at front back
    rcases pieces with ⟨directory, part⟩
    dsimp only at front back ⊢
    split
    · split <;> exact only
    split
    · exact searches_lastPart held based back _
    have alone : Possible null [directory] := by
      intro text mem
      cases List.mem_singleton.mp mem
      exact front
    refine .choice (ih front true) ((ends_pure _).mpr alone) fun directories listed => ?_
    refine Ends.bind (Q := fun lists => ∀ found ∈ lists, Possible null found) (ends_mapM fun directory mem => ?_)
      fun lists all => ?_
    · have here := listed directory mem
      have place : hasNull (joinText base directory) = true → null :=
        fun isNull => (hasNull_joinText isNull).elim based here
      refine (searches_lastPart held place back directoriesOnly).bind fun names named => ?_
      intro text mem isNull
      rcases List.mem_map.mp mem with ⟨name, inside, rfl⟩
      exact (hasNull_extendText isNull).elim here (named name inside)
    · intro text mem
      rcases List.mem_flatten.mp mem with ⟨found, inLists, inside⟩
      exact all found inLists text inside

omit held

/-- A search is stopped only by a character that no path can hold, in the base, the pattern or a
name on the disk. -/
theorem ends_matching (d : Disk) (base : Path) (pattern : String) :
    Ends (fun _ => True)
      (fun fault => fault = .nullInPath ∧
        (hasNull base.text = true ∨ hasNull pattern = true ∨ d.HoldsNull))
      (matching d base pattern) := by
  have search : Searches (hasNull base.text = true ∨ hasNull pattern = true ∨ d.HoldsNull)
      (matchFrom d base.text (pattern.length + 1) pattern false) :=
    searches_matchFrom (.inr ∘ .inr) .inl _ (.inr ∘ .inl) _
  unfold matching
  refine search.bind fun found _ => .ite ?_ trivial
  split <;> trivial

end Glob
end Consignment
