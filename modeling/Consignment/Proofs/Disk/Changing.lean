import Consignment.Disk.Write
import Consignment.Proofs.Disk.Following
import Mathlib.Data.List.Nodup
import Mathlib.Data.List.Perm.Basic

namespace Consignment
namespace Disk

/-!
# What changes when files are written

Making a directory with the missing ones on the way adds directories on the way and
nothing else.  Copying a file to a path that leads nowhere adds that file.  Replacing a
document leaves the file at its path and, of the temporary file, nothing; when it fails,
only the directories that were made for it remain.

The temporary file gets a name that is free.  Of the names that are tried there is one
more than there are entries on the disk, so they cannot all be taken.
-/

variable {d d' : Disk}

/-! ## Where something new can be put -/

/-- Nothing is where a path leads, but its directory exists and its name is possible. -/
structure Vacant (d : Disk) (p : Path) (parent : Place) (name : String) : Prop where
  short : ¬ pathBytesBound ≤ p.text.utf8ByteSize
  last : p.parts.getLast? = some name
  walked : d.walk (d.start p.anchor) p.parts.dropLast = .ok parent
  directory : d.node? parent = some .directory
  down : name ≠ ".."
  shortName : ¬ maxNameBytes < name.utf8ByteSize
  free : d.node? (parent ++ [name]) = none

theorem vacancy_eq_ok {p : Path} {place : Place} :
    d.vacancy p = .ok place ↔ ∃ parent name, d.Vacant p parent name ∧ place = parent ++ [name] := by
  constructor
  · fun_cases vacancy d p with
    | case9 short name last parent walked directory down shortName free =>
      intro found
      cases found
      have free := Option.not_isSome_iff_eq_none.mp free
      exact ⟨parent, name, ⟨short, last, walked, directory, down, shortName, free⟩, rfl⟩
    | case1 | case2 | case3 | case4 | case5 | case6 | case7 | case8 =>
      intro found
      exact absurd found (by simp)
  · rintro ⟨parent, name, vacant, rfl⟩
    unfold vacancy
    rw [if_neg vacant.short, vacant.last]
    simp only [vacant.walked, vacant.directory]
    rw [if_neg vacant.down, if_neg vacant.shortName, vacant.free]
    rfl

namespace Vacant

variable {p : Path} {parent : Place} {name : String}

theorem parts_eq (vacant : d.Vacant p parent name) : p.parts = p.parts.dropLast ++ [name] := by
  rcases List.getLast?_eq_some_iff.mp vacant.last with ⟨front, parts⟩
  rw [parts, List.dropLast_concat]

theorem placeOf_eq (vacant : d.Vacant p parent name) (proper : Proper p.parts) :
    d.placeOf p = parent ++ [name] := by
  rw [placeOf_eq_follow, vacant.parts_eq, follow_append,
    ← walk_eq_follow proper.dropLast vacant.walked,
    follow_eq_append (List.mem_singleton.not.mpr (Ne.symm vacant.down))]

/-- What is put where nothing was is where the path leads. -/
theorem locate_eq_ok (vacant : d.Vacant p parent name) (moves : ¬ (name = "" ∨ name = "."))
    (start : d'.start p.anchor = d.start p.anchor)
    (directories : ∀ q, d.node? q = some .directory → d'.node? q = some .directory)
    (held : (d'.node? (parent ++ [name])).isSome) : d'.locate p = .ok (parent ++ [name]) := by
  have above : d'.node? parent = some .directory := directories parent vacant.directory
  have front : d'.walk (d'.start p.anchor) p.parts.dropLast = .ok parent := by
    rw [start]
    exact walk_of_kept directories (by simp [above]) vacant.walked
  have last : d'.walk parent [name] = .ok (parent ++ [name]) :=
    walk_cons_eq_ok.mpr ⟨above, _, .down moves vacant.down vacant.shortName held, rfl⟩
  refine Disk.locate_eq_ok.mpr ⟨vacant.short, ?_⟩
  rw [vacant.parts_eq]
  exact walk_append_eq_ok.mpr ⟨parent, front, last⟩

end Vacant

/-! ## Directories -/

/-- Directories on the way to a path. -/
def OnTheWay (d : Disk) (p : Path) (q : Place) (node : Node) : Prop :=
  node = .directory ∧ ∃ parts, parts <+: p.parts ∧ q = follow (d.start p.anchor) parts

theorem OnTheWay.of_parent {p : Path} {q : Place} {node : Node} (way : d.OnTheWay p.parent q node) :
    d.OnTheWay p q node := by
  rcases way with ⟨directory, parts, front, here⟩
  exact ⟨directory, parts, front.trans (List.dropLast_prefix _), here⟩

/-- The way to a path does not depend on what a disk has grown by. -/
theorem Grown.onTheWay {allowed : Place → Node → Prop} (grown : Grown allowed d d') {p : Path}
    {q : Place} {node : Node} (way : d'.OnTheWay p q node) : d.OnTheWay p q node := by
  rcases way with ⟨directory, parts, front, here⟩
  exact ⟨directory, parts, front, here.trans (by rw [grown.start])⟩

theorem grown_makeDirectory {p : Path} (proper : Proper p.parts)
    (made : d.makeDirectory p = .ok d') : Grown (d.OnTheWay p) d d' := by
  unfold makeDirectory at made
  split at made
  · exact absurd made (by simp)
  · split at made
    · exact absurd made (by simp [refuse])
    · rename_i place found
      rcases vacancy_eq_ok.mp found with ⟨parent, name, vacant, rfl⟩
      cases made
      have here : parent ++ [name] = follow (d.start p.anchor) p.parts :=
        (vacant.placeOf_eq proper).symm
      exact .put vacant.free ⟨rfl, p.parts, List.prefix_refl _, here⟩

theorem grown_makeLast {p : Path} (proper : Proper p.parts) :
    Grown (d.OnTheWay p) d (d.makeLast p).1 := by
  unfold makeLast
  split
  · rename_i made
    exact grown_makeDirectory proper made
  · split <;> exact .refl d
  · exact .refl d

theorem grown_makeDirectories {p : Path} (proper : Proper p.parts) (fuel : Nat) :
    Grown (d.OnTheWay p) d (d.makeDirectories p fuel).1 := by
  induction fuel generalizing p with
  | zero => exact .refl d
  | succ fuel ih =>
    have above : Grown (d.OnTheWay p) d (d.makeDirectories p.parent fuel).1 :=
      (ih proper.parent).mono fun q node => OnTheWay.of_parent
    rw [makeDirectories]
    split
    · rename_i made
      exact grown_makeDirectory proper made
    · split
      · split
        · exact .refl d
        · split
          · rename_i failed
            rw [failed] at above
            exact above
          · rename_i middle made
            rw [made] at above
            apply above.trans
            exact (grown_makeLast proper).mono fun q node way => above.onTheWay way
      · exact .refl d
    · exact .refl d

theorem grown_ensureDirectory {p : Path} (proper : Proper p.parts) :
    Grown (d.OnTheWay p) d (d.ensureDirectory p).1 :=
  grown_makeDirectories proper _

/-! ## Files -/

theorem holds_eq_ok_true {p : Path} : d.holds p = .ok true ↔ ∃ node, d.stat p = .ok node := by
  unfold holds probe
  cases d.stat p with
  | ok node => simp
  | error fault =>
    cases fault with
    | disk fault => cases refusal : fault.refusal <;> simp [refusal]
    | _ => simp

theorem isFile_of_stat {p : Path} {bytes : ByteArray} (found : d.stat p = .ok (.file bytes)) :
    d.isFile p = .ok true := by
  simp [isFile, probe, found]

theorem fileTarget_eq_ok {p : Path} {place : Place} (target : d.fileTarget p = .ok place) :
    (∃ parent name, d.Vacant p parent name ∧ place = parent ++ [name]) ∨
      ∃ bytes, d.locate p = .ok place ∧ d.node? place = some (.file bytes) := by
  unfold fileTarget at target
  split at target
  · rename_i found
    cases target
    exact Or.inl (vacancy_eq_ok.mp found)
  · split at target
    · exact absurd target (by simp)
    · rename_i located
      split at target
      · rename_i bytes held
        cases target
        exact Or.inr ⟨bytes, located, held⟩
      · exact absurd target (by simp)
  · exact absurd target (by simp)

/-- The place of a file holds no directory, and it has a name. -/
theorem not_directory_of_fileTarget {p : Path} {place : Place}
    (target : d.fileTarget p = .ok place) : d.node? place ≠ some .directory := by
  rcases fileTarget_eq_ok target with ⟨parent, name, vacant, rfl⟩ | ⟨bytes, _, held⟩
  · simp [vacant.free]
  · simp [held]

theorem ne_nil_of_fileTarget {p : Path} {place : Place} (target : d.fileTarget p = .ok place) :
    place ≠ [] := by
  rintro rfl
  exact not_directory_of_fileTarget target (node?_nil d)

/-- The last part of a path leads down. -/
def EndsInName (p : Path) : Prop :=
  ∀ name, p.parts.getLast? = some name → ¬ (name = "" ∨ name = ".")

/-- A file is where its path leads, if the directories stay. -/
theorem locate_of_fileTarget {p : Path} {place : Place} (target : d.fileTarget p = .ok place)
    (named : EndsInName p) (start : d'.start p.anchor = d.start p.anchor)
    (directories : ∀ q, d.node? q = some .directory → d'.node? q = some .directory)
    (held : (d'.node? place).isSome) : d'.locate p = .ok place := by
  rcases fileTarget_eq_ok target with ⟨parent, name, vacant, rfl⟩ | ⟨bytes, located, _⟩
  · exact vacant.locate_eq_ok (named name vacant.last) start directories held
  · rcases locate_eq_ok.mp located with ⟨short, walked⟩
    refine locate_eq_ok.mpr ⟨short, ?_⟩
    rw [start]
    exact walk_of_kept directories held walked

theorem copyFile_eq_ok {source target : Path} (copied : d.copyFile source target = (d', .ok ())) :
    ∃ bytes place, d.read source = .ok bytes ∧ target.hasNull = false ∧
      d.fileTarget target = .ok place ∧ d' = d.put place (.file bytes) := by
  unfold copyFile at copied
  split at copied
  · exact absurd copied (by simp)
  · rename_i clean
    rw [Bool.or_eq_true, not_or, Bool.not_eq_true, Bool.not_eq_true] at clean
    split at copied
    · exact absurd copied (by simp)
    · rename_i bytes read
      split at copied
      · exact absurd copied (by simp [refuse])
      · rename_i place found
        cases copied
        exact ⟨bytes, place, read, clean.2, found, rfl⟩

/-- A copy to a path that leads nowhere is put where nothing was. -/
theorem copyFile_of_missing {source target : Path} (missing : d.holds target = .ok false)
    (copied : d.copyFile source target = (d', .ok ())) :
    ∃ bytes parent name, d.read source = .ok bytes ∧ d.Vacant target parent name ∧
      d' = d.put (parent ++ [name]) (.file bytes) := by
  rcases copyFile_eq_ok copied with ⟨bytes, place, read, clean, free, put⟩
  rcases fileTarget_eq_ok free with ⟨parent, name, vacant, rfl⟩ | ⟨old, located, there⟩
  · exact ⟨bytes, parent, name, read, vacant, put⟩
  · have found : d.stat target = .ok (.file old) := stat_eq_ok.mpr ⟨clean, place, located, there⟩
    have held : d.holds target = .ok true := holds_eq_ok_true.mpr ⟨_, found⟩
    rw [held] at missing
    exact absurd missing (by simp)

/-- A copy that fails changes nothing. -/
theorem copyFile_eq_error {source target : Path} {fault : Fault}
    (failed : d.copyFile source target = (d', .error fault)) : d' = d := by
  unfold copyFile at failed
  split at failed
  · cases failed
    rfl
  · split at failed
    · cases failed
      rfl
    · split at failed
      · cases failed
        rfl
      · exact absurd failed (by simp)

/-! ## Temporary files -/

/-- When a name that was looked for is taken, so are as many others as were tried. -/
theorem taken_of_freeName {place : Place} {name : String} {fuel : Nat}
    (taken : (d.node? (place ++ [d.freeName place name fuel])).isSome) :
    ∃ names : List String, names.length = fuel + 1 ∧ names.Nodup ∧
      ∀ tried ∈ names, (d.node? (place ++ [tried])).isSome ∧ name.length ≤ tried.length := by
  induction fuel generalizing name with
  | zero =>
    refine ⟨[name], rfl, List.nodup_singleton _, ?_⟩
    intro tried mem
    cases List.mem_singleton.mp mem
    exact ⟨taken, Nat.le_refl _⟩
  | succ fuel ih =>
    rw [freeName] at taken
    split at taken
    · rename_i occupied
      rcases ih taken with ⟨names, length, nodup, each⟩
      have longer : ∀ tried ∈ names, name.length < tried.length := by
        intro tried mem
        have bound := (each tried mem).2
        rw [String.length_append] at bound
        have mark : "_".length = 1 := rfl
        omega
      have fresh : name ∉ names := fun mem => Nat.lt_irrefl _ (longer name mem)
      refine ⟨name :: names, by rw [List.length_cons, length],
        List.nodup_cons.mpr ⟨fresh, nodup⟩, ?_⟩
      intro tried mem
      rcases List.mem_cons.mp mem with rfl | later
      · exact ⟨occupied, Nat.le_refl _⟩
      · exact ⟨(each tried later).1, Nat.le_of_lt (longer tried later)⟩
    · rename_i free
      exact absurd taken free

theorem mem_nodes_of_node? {place : Place} (named : place ≠ []) (held : (d.node? place).isSome) :
    place ∈ d.nodes.map Prod.fst := by
  rw [node?, if_neg named] at held
  rcases List.lookup_isSome_iff.mp held with ⟨entry, mem, same⟩
  rw [eq_of_beq same]
  exact List.mem_map_of_mem mem

/-- The place of a temporary file in a directory. -/
def temporaryPlace (d : Disk) (directory : Place) : Place :=
  directory ++ [d.freeName directory d.temporaryName (d.nodes.length + 1)]

theorem temporaryPlace_ne_nil (d : Disk) (directory : Place) : d.temporaryPlace directory ≠ [] := by
  simp [temporaryPlace]

/-- The place of a temporary file is free. -/
theorem node?_temporaryPlace (d : Disk) (place : Place) : d.node? (d.temporaryPlace place) = none := by
  rw [← Option.not_isSome_iff_eq_none, temporaryPlace]
  intro taken
  rcases taken_of_freeName taken with ⟨names, length, nodup, each⟩
  have places : (names.map fun tried => place ++ [tried]).Nodup := by
    apply List.Nodup.map _ nodup
    intro first second same
    simpa using same
  have inside : (names.map fun tried => place ++ [tried]) ⊆ d.nodes.map Prod.fst := by
    intro q mem
    rcases List.mem_map.mp mem with ⟨tried, listed, rfl⟩
    exact mem_nodes_of_node? (by simp) (each tried listed).1
  have fewer := (List.subperm_of_subset places inside).length_le
  rw [List.length_map, List.length_map, length] at fewer
  omega

/-! ## Documents -/

/-- A document is at its path, and nothing else is different from an earlier disk. -/
structure Replaced (before after : Disk) (p : Path) (bytes : ByteArray) (place : Place) :
    Prop where
  here : after.here = before.here
  clean : p.hasNull = false
  located : EndsInName p → after.locate p = .ok place
  node : ∀ q, after.node? q = if q = place then some (.file bytes) else before.node? q

theorem rename_eq_ok {source : Place} {bytes : ByteArray} {p : Path} :
    d.rename source bytes p = .ok d' ↔
      p.hasNull = false ∧ p.parts.getLast?.all (· = "..") = false ∧
        ∃ place, d.fileTarget p = .ok place ∧ (d.erase source).put place (.file bytes) = d' := by
  unfold rename
  cases p.hasNull with
  | true => simp
  | false =>
    cases p.parts.getLast?.all (· = "..") with
    | true => simp
    | false => cases d.fileTarget p <;> simp

/-- A file with a temporary name is renamed to its path. -/
theorem replaced_rename {source : Place} {bytes : ByteArray} {p : Path}
    (named : source ≠ []) (free : d.node? source = none)
    (renamed : (d.put source (.file bytes)).rename source bytes p = .ok d') :
    ∃ place, Replaced d d' p bytes place := by
  have nodes := node?_put d named (.file bytes)
  rcases rename_eq_ok.mp renamed with ⟨clean, -, place, target, rfl⟩
  have root : place ≠ [] := ne_nil_of_fileTarget target
  have after (q : Place) : (((d.put source (.file bytes)).erase source).put place
      (.file bytes)).node? q = if q = place then some (.file bytes) else d.node? q := by
    rw [node?_put _ root, node?_erase _ named, nodes]
    split
    · rfl
    · split
      · rename_i same
        rw [same, free]
      · rfl
  refine ⟨place, rfl, clean, ?_, after⟩
  intro ends
  have start : (((d.put source (.file bytes)).erase source).put place
      (.file bytes)).start p.anchor = (d.put source (.file bytes)).start p.anchor := rfl
  apply locate_of_fileTarget target ends start
  · -- neither the temporary file nor the target is a directory
    intro q directory
    rw [after q, if_neg]
    · rw [nodes] at directory
      split at directory
      · exact absurd directory (by simp)
      · exact directory
    · rintro rfl
      exact not_directory_of_fileTarget target directory
  · rw [after place, if_pos rfl]
    rfl

/-- A document is replaced exactly if its directory can be made, a temporary file fits into it, and
this file can be renamed. -/
theorem replaceFile_iff {p : Path} {bytes : ByteArray} :
    d.replaceFile p bytes = (d', .ok ()) ↔
      ∃ made directory, d.ensureDirectory p.parent = (made, .ok ()) ∧
        made.locate p.parent = .ok directory ∧ made.fitsTemporary p.parent = true ∧
        (made.put (made.temporaryPlace directory) (.file bytes)).rename
          (made.temporaryPlace directory) bytes p = .ok d' := by
  unfold replaceFile
  rcases d.ensureDirectory p.parent with ⟨made, fault | done⟩
  · simp
  · simp only [Prod.mk.injEq, and_true, exists_and_left, exists_eq_left', temporaryPlace]
    cases made.locate p.parent with
    | error refusal => simp [refuse]
    | ok directory =>
      cases made.fitsTemporary p.parent with
      | false => simp [refuse]
      | true =>
        simp only [if_true, Except.ok.injEq, exists_eq_left', true_and]
        generalize made.freeName directory made.temporaryName (made.nodes.length + 1) = name
        rcases (made.put (directory ++ [name]) (.file bytes)).rename (directory ++ [name]) bytes p
          with (_ | refusal) | after <;> simp

/-- Replacing a document changes its place only, once the directories are made. -/
theorem replaceFile_eq_ok {p : Path} {bytes : ByteArray}
    (replaced : d.replaceFile p bytes = (d', .ok ())) :
    ∃ place, Replaced (d.ensureDirectory p.parent).1 d' p bytes place := by
  rcases replaceFile_iff.mp replaced with ⟨made, directory, ensured, -, -, renamed⟩
  rw [ensured]
  exact replaced_rename (temporaryPlace_ne_nil made directory) (node?_temporaryPlace made directory)
    renamed

/-- When a document is not replaced, the directories that were made are all that is
different. -/
theorem replaceFile_eq_error {p : Path} {bytes : ByteArray} {fault : Fault}
    (failed : d.replaceFile p bytes = (d', .error fault)) :
    d'.here = (d.ensureDirectory p.parent).1.here ∧
      ∀ q, d'.node? q = (d.ensureDirectory p.parent).1.node? q := by
  have erased (made : Disk) (directory q : Place) :
      ((made.put (made.temporaryPlace directory) (.file bytes)).erase
        (made.temporaryPlace directory)).node? q = made.node? q := by
    have named := temporaryPlace_ne_nil made directory
    rw [node?_erase _ named, node?_put _ named]
    split
    · rename_i same
      rw [same]
      exact (node?_temporaryPlace made directory).symm
    · rfl
  unfold replaceFile at failed
  split at failed
  · rename_i made ensured
    cases failed
    rw [ensured]
    exact ⟨rfl, fun q => rfl⟩
  · rename_i made ensured
    rw [ensured]
    split at failed
    · cases failed
      exact ⟨rfl, fun q => rfl⟩
    · rename_i directory _
      simp only at failed
      split at failed
      · split at failed
        · exact absurd failed (by simp)
        · cases failed
          exact ⟨rfl, erased made directory⟩
        · cases failed
          exact ⟨rfl, erased made directory⟩
      · cases failed
        exact ⟨rfl, fun q => rfl⟩

theorem EndsInName.of_proper {p : Path} (proper : Proper p.parts) : EndsInName p := by
  intro name last blank
  have named := proper name (List.mem_of_getLast? last)
  exact blank.elim named.1 named.2

/-- A document is at the place that its path names. -/
theorem Replaced.place_eq {before after : Disk} {p : Path} {bytes : ByteArray} {place : Place}
    (replaced : Replaced before after p bytes place) (proper : Proper p.parts) :
    place = before.placeOf p := by
  have located : after.locate p = .ok place := replaced.located (.of_proper proper)
  rw [locate_eq_placeOf proper located, placeOf_congr replaced.here]

theorem Replaced.stat {before after : Disk} {p : Path} {bytes : ByteArray} {place : Place}
    (replaced : Replaced before after p bytes place) (ends : EndsInName p) :
    after.stat p = .ok (.file bytes) := by
  refine stat_eq_ok.mpr ⟨replaced.clean, place, replaced.located ends, ?_⟩
  rw [replaced.node, if_pos rfl]

end Disk
end Consignment
