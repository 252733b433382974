import Consignment.Proofs.Expansion.Contents
import Consignment.Proofs.Expansion.Failing
import Consignment.Proofs.Expansion.Rearranging
import Mathlib.Data.List.Sort

namespace Consignment

/-!
# Names that clash

A name clashes when it is the name of a dependency and that of a matched file.  The two need not
have anything to do with each other: one entry imports the handler, a pattern of another gives
the file.  The comparison is the last work of an expansion, and it is made once, between what all
entries brought along; merging has put parcels together before but neither lost nor added a name.

So an expansion ends with a clash exactly if all other work can be done and some name clashes, and
the clash lists every such name once, by code point.  There is one such list, which makes the
outcome exact.  An invoice that is given has no clashing name, whichever entries the names come
from.
-/

/-- A list that stands for a set has its names in order, each once. -/
theorem Text.pairwise_lt_sortedSet (names : List String) :
    (sortedSet names).Pairwise (· < ·) := by
  have distinct : (sortedSet names).Nodup :=
    (List.mergeSort_perm _ _).nodup_iff.mpr (nodup_eraseDups names)
  have inOrder : (sortedSet names).Pairwise (· ≤ ·) := pairwise_sorted _
  apply (inOrder.and distinct).imp
  rintro s t ⟨before, differs⟩
  by_contra late
  exact differs (String.le_antisymm before (String.not_lt.mp late))

namespace ExpansionContext

variable {c : ExpansionContext} {manifest : Manifest} {names : List String}

/-! ## The work of an expansion -/

/-- All work of an expansion can be done, up to the comparison of names: the modules of the
entries that take part can be had, so can the dependencies, the patterns can be matched, and
there is a parcel for every path that they give. -/
structure Buildable (c : ExpansionContext) (manifest : Manifest) : Prop where
  modules : ∀ e ∈ manifest.matching c.values, ∃ p, c.primaryParcel e.role = .ok p
  closures : ∀ e ∈ manifest.matching c.values,
    ∃ parcels, (c.dependencyParcels e.role).outcome = .ok parcels
  patterns : ∀ e ∈ manifest.matching c.values, ∃ paths, (c.entryFiles e).outcome = .ok paths
  files : ∀ e ∈ manifest.matching c.values, ∀ pattern ∈ e.files.getD [], ∀ path,
    c.PatternGives pattern path → ∃ p, c.fileParcel e.role path = .ok p

/-- What the work of an expansion gives, kind by kind. -/
structure Gathered (c : ExpansionContext) (manifest : Manifest) (primary : List Parcel)
    (dependencies : List (List Parcel)) (matched : List (List (Role × Path)))
    (files : List Parcel) : Prop where
  modules : c.modules manifest = .ok primary
  closures : c.closures manifest = .ok dependencies
  patterns : c.patterns manifest = .ok matched
  read : matched.flatten.mapM (fun m => c.fileParcel m.1 m.2) = .ok files

/-- An entry imports a handler whose closure has a parcel of the name. -/
def NamesDependency (c : ExpansionContext) (manifest : Manifest) (name : String) : Prop :=
  ∃ e ∈ manifest.matching c.values, ∃ q, c.DependsOnParcel e.role q ∧ q.label.name = name

/-- A pattern of an entry gives a file of the name. -/
def NamesFile (c : ExpansionContext) (manifest : Manifest) (name : String) : Prop :=
  ∃ e ∈ manifest.matching c.values, ∃ pattern ∈ e.files.getD [], ∃ path,
    c.PatternGives pattern path ∧ c.nameOf path = .ok name

/-- A name is that of a dependency and of a file, perhaps by different entries. -/
def Clashes (c : ExpansionContext) (manifest : Manifest) (name : String) : Prop :=
  c.NamesDependency manifest name ∧ c.NamesFile manifest name

theorem givenPaths_eq_ok {e : Entry} {found : List (Role × Path)} :
    c.givenPaths e = .ok found ↔
      ∃ paths, (c.entryFiles e).outcome = .ok paths ∧
        paths.map (fun path => (e.role, path)) = found := by
  simp only [givenPaths, Outcome.bind_eq_ok, Except.ok.injEq]

namespace Gathered

variable {primary files : List Parcel} {dependencies : List (List Parcel)}
  {matched : List (List (Role × Path))} (gathered : c.Gathered manifest primary dependencies matched files)

include gathered

theorem dependencies_had :
    List.Forall₂ (fun e ps => (c.dependencyParcels e.role).outcome = .ok ps)
      (manifest.matching c.values) dependencies :=
  Outcome.mapM_eq_ok.mp gathered.closures

theorem matched_had :
    List.Forall₂ (fun e found => ∃ paths, (c.entryFiles e).outcome = .ok paths ∧
      paths.map (fun path => (e.role, path)) = found) (manifest.matching c.values) matched :=
  (Outcome.mapM_eq_ok.mp gathered.patterns).imp fun _ _ => givenPaths_eq_ok.mp

theorem files_had : List.Forall₂ (fun m p => c.fileParcel m.1 m.2 = .ok p) matched.flatten files :=
  Outcome.mapM_eq_ok.mp gathered.read

theorem namesDependency_iff {name : String} :
    (∃ p ∈ dependencies.flatten, p.label.name = name) ↔ c.NamesDependency manifest name := by
  constructor
  · rintro ⟨p, mem, named⟩
    rcases (mem_flatten_dependencyParcels gathered.dependencies_had).mp mem with
      ⟨e, kept, q, depends, rfl⟩
    exact ⟨e, kept, q, depends, named⟩
  · rintro ⟨e, kept, q, depends, named⟩
    exact ⟨_, (mem_flatten_dependencyParcels gathered.dependencies_had).mpr
      ⟨e, kept, q, depends, rfl⟩, named⟩

theorem namesFile_iff {name : String} :
    (∃ p ∈ files, p.label.name = name) ↔ c.NamesFile manifest name := by
  constructor
  · rintro ⟨p, mem, named⟩
    rcases (mem_fileParcels gathered.matched_had gathered.files_had).mp mem with
      ⟨e, kept, pattern, asked, path, gives, had⟩
    rcases fileParcel_eq_ok.mp had with ⟨label, labelled, rfl⟩
    rcases localLabel_eq_ok.mp labelled with ⟨_, relative, _, own, rfl⟩
    cases named
    exact ⟨e, kept, pattern, asked, path, gives, own⟩
  · rintro ⟨e, kept, pattern, asked, path, gives, own⟩
    have matching := (mem_flatten_entryFiles gathered.matched_had).mpr
      ⟨e, kept, pattern, asked, path, gives, rfl⟩
    rcases Outcome.exists_mem_of_forall₂ gathered.files_had matching with ⟨p, held, had⟩
    rcases fileParcel_eq_ok.mp had with ⟨label, labelled, rfl⟩
    rcases localLabel_eq_ok.mp labelled with ⟨_, relative, _, same, rfl⟩
    cases Except.ok.inj (same.symm.trans own)
    exact ⟨_, held, rfl⟩

/-- The comparison of names finds exactly the names that clash. -/
theorem mem_clashingNames_iff {name : String} :
    name ∈ clashingNames (Parcel.merge dependencies.flatten) (Parcel.merge files) ↔
      c.Clashes manifest name := by
  rw [mem_clashingNames, Parcel.exists_named_mem_merge_iff, Parcel.exists_named_mem_merge_iff,
    gathered.namesDependency_iff, gathered.namesFile_iff, Clashes]

theorem buildable : c.Buildable manifest where
  modules := Outcome.exists_mapM_eq_ok_iff.mp ⟨_, gathered.modules⟩
  closures := Outcome.exists_mapM_eq_ok_iff.mp ⟨_, gathered.closures⟩
  patterns := by
    intro e kept
    rcases Outcome.exists_mem_of_forall₂ gathered.matched_had kept with ⟨_, _, paths, found, _⟩
    exact ⟨paths, found⟩
  files := by
    intro e kept pattern asked path gives
    have matching := (mem_flatten_entryFiles gathered.matched_had).mpr
      ⟨e, kept, pattern, asked, path, gives, rfl⟩
    exact Outcome.exists_mapM_eq_ok_iff.mp ⟨_, gathered.read⟩ _ matching

theorem outcome_expand :
    (c.expand manifest).outcome =
      if clashingNames (Parcel.merge dependencies.flatten) (Parcel.merge files) = [] then
        .ok (c.invoiceFrom manifest primary dependencies.flatten files)
      else .error (.nameClash
        (clashingNames (Parcel.merge dependencies.flatten) (Parcel.merge files))) := by
  rw [outcome_expand_eq_stages, gathered.modules, gathered.closures, gathered.patterns]
  simp only [Outcome.ok_bind, gathered.read]

end Gathered

theorem Buildable.exists_gathered (buildable : c.Buildable manifest) :
    ∃ primary dependencies matched files,
      c.Gathered manifest primary dependencies matched files := by
  rcases Outcome.exists_mapM_eq_ok_iff.mpr buildable.modules with ⟨primary, modules⟩
  rcases Outcome.exists_mapM_eq_ok_iff.mpr buildable.closures with ⟨dependencies, closures⟩
  have given : ∀ e ∈ manifest.matching c.values, ∃ found, c.givenPaths e = .ok found := by
    intro e kept
    rcases buildable.patterns e kept with ⟨paths, found⟩
    exact ⟨_, givenPaths_eq_ok.mpr ⟨paths, found, rfl⟩⟩
  rcases Outcome.exists_mapM_eq_ok_iff.mpr given with ⟨matched, patterns⟩
  have matchedHad := (Outcome.mapM_eq_ok.mp patterns).imp fun _ _ => givenPaths_eq_ok.mp
  have parcels : ∀ m ∈ matched.flatten, ∃ p, c.fileParcel m.1 m.2 = .ok p := by
    intro m mem
    rcases (mem_flatten_entryFiles matchedHad).mp mem with
      ⟨e, kept, pattern, asked, path, gives, rfl⟩
    exact buildable.files e kept pattern asked path gives
  rcases Outcome.exists_mapM_eq_ok_iff.mpr parcels with ⟨files, read⟩
  exact ⟨primary, dependencies, matched, files, modules, closures, patterns, read⟩

theorem Parts.gathered (parts : c.Parts manifest) :
    c.Gathered manifest parts.primary parts.dependencies parts.matched parts.files where
  modules := Outcome.mapM_eq_ok.mpr parts.primary_had
  closures := Outcome.mapM_eq_ok.mpr parts.dependencies_had
  patterns :=
    Outcome.mapM_eq_ok.mpr (parts.matched_had.imp fun _ _ => givenPaths_eq_ok.mpr)
  read := Outcome.mapM_eq_ok.mpr parts.files_had

/-! ## The comparison of names -/

theorem ne_nameClash_of_isLocal {failure : Failure} (isLocal : failure.IsLocal) :
    failure ≠ .nameClash names := by
  rintro rfl
  exact isLocal

theorem ne_nameClash_of_externalSource {role : Role} {ref : ExternalRef} {failure : Failure}
    (failed : c.externalSource role ref = .error failure) : failure ≠ .nameClash names := by
  rcases externalSource_eq_error.mp failed with ⟨_, rfl⟩ | ⟨_, _, _, rfl⟩ <;> simp

/-- No other work ends with a clash. -/
theorem exists_gathered_of_nameClash
    (failed : (c.expand manifest).outcome = .error (.nameClash names)) :
    ∃ primary dependencies matched files,
      c.Gathered manifest primary dependencies matched files ∧
      clashingNames (Parcel.merge dependencies.flatten) (Parcel.merge files) ≠ [] ∧
      names = clashingNames (Parcel.merge dependencies.flatten) (Parcel.merge files) := by
  -- the kinds of work before the comparison have failures of their own
  cases expand_eq_error.mp failed with
  | module first =>
    rcases first.exists_mem with ⟨e, _, failing⟩
    rcases cases_of_primaryParcel failing with localWork | ⟨ref, _, unsourced⟩
    · exact absurd rfl (ne_nameClash_of_isLocal localWork)
    · exact absurd rfl (ne_nameClash_of_externalSource unsourced)
  | closure modules first =>
    rcases first.exists_mem with ⟨e, _, failing⟩
    rcases cases_of_dependencyParcels failing with ⟨ref, _, unsourced⟩
    exact absurd rfl (ne_nameClash_of_externalSource unsourced)
  | pattern modules closures first =>
    rcases first.exists_mem with ⟨e, _, failing⟩
    exact absurd rfl (ne_nameClash_of_isLocal (isLocal_of_givenPaths failing))
  | file modules closures patterns first =>
    rcases first.exists_mem with ⟨m, _, failing⟩
    exact absurd rfl (ne_nameClash_of_isLocal (isLocal_of_fileParcel failing))
  | clash modules closures patterns read clashing same =>
    exact ⟨_, _, _, _, ⟨modules, closures, patterns, read⟩, clashing, Failure.nameClash.inj same⟩

/-- An expansion ends with a clash of names exactly if all other work can be done and the names
are those that clash, at least one, in order and each once. -/
theorem expand_eq_nameClash :
    (c.expand manifest).outcome = .error (.nameClash names) ↔
      c.Buildable manifest ∧ names ≠ [] ∧ names.Pairwise (· < ·) ∧
        ∀ name, name ∈ names ↔ c.Clashes manifest name := by
  constructor
  · intro failed
    rcases exists_gathered_of_nameClash failed with
      ⟨primary, dependencies, matched, files, gathered, clashing, rfl⟩
    exact ⟨gathered.buildable, clashing, Text.pairwise_lt_sortedSet _,
      fun name => gathered.mem_clashingNames_iff⟩
  · rintro ⟨buildable, some, inOrder, complete⟩
    rcases buildable.exists_gathered with ⟨primary, dependencies, matched, files, gathered⟩
    -- a strictly increasing list is determined by its members
    have same : clashingNames (Parcel.merge dependencies.flatten) (Parcel.merge files) = names := by
      refine (Text.pairwise_lt_sortedSet _).eq_of_mem_iff inOrder fun name => ?_
      rw [complete]
      exact gathered.mem_clashingNames_iff
    rw [gathered.outcome_expand, same, if_neg some]

theorem Buildable.exists_nameClash_iff (buildable : c.Buildable manifest) :
    (∃ names, (c.expand manifest).outcome = .error (.nameClash names)) ↔
      ∃ name, c.Clashes manifest name := by
  constructor
  · rintro ⟨names, failed⟩
    rcases expand_eq_nameClash.mp failed with ⟨_, some, _, complete⟩
    rcases List.exists_mem_of_ne_nil names some with ⟨name, mem⟩
    exact ⟨name, (complete name).mp mem⟩
  · rintro ⟨name, clashes⟩
    rcases buildable.exists_gathered with ⟨primary, dependencies, matched, files, gathered⟩
    have clashing := List.ne_nil_of_mem (gathered.mem_clashingNames_iff.mpr clashes)
    exact ⟨_, by rw [gathered.outcome_expand, if_neg clashing]⟩

/-! ## What is given -/

/-- A parcel stands for one of the closure of a handler that an entry imports. -/
def FromClosure (c : ExpansionContext) (manifest : Manifest) (p : Parcel) : Prop :=
  ∃ e ∈ manifest.matching c.values, ∃ q, c.DependsOnParcel e.role q ∧
    p.label = q.label.markedDoNotStage

/-- A parcel stands for a file that a pattern of an entry gives. -/
def FromPattern (c : ExpansionContext) (manifest : Manifest) (p : Parcel) : Prop :=
  ∃ e ∈ manifest.matching c.values, ∃ pattern ∈ e.files.getD [], ∃ path,
    c.PatternGives pattern path ∧
    c.localLabel e.role path (servingFeature none true) none = .ok p.label

theorem FromClosure.namesDependency {p : Parcel} (foreign : c.FromClosure manifest p) :
    c.NamesDependency manifest p.label.name := by
  rcases foreign with ⟨e, kept, q, depends, label⟩
  exact ⟨e, kept, q, depends, by rw [label]; rfl⟩

theorem FromPattern.namesFile {p : Parcel} (own : c.FromPattern manifest p) :
    c.NamesFile manifest p.label.name := by
  rcases own with ⟨e, kept, pattern, asked, path, gives, labelled⟩
  rcases localLabel_eq_ok.mp labelled with ⟨_, name, _, named, label⟩
  exact ⟨e, kept, pattern, asked, path, gives, by rw [named, label]⟩

/-- Every parcel behind the modules comes from a closure or from a pattern. -/
theorem Parts.cases_of_behind (parts : c.Parts manifest) {p : Parcel}
    (behind : p ∈ parts.invoice.parcels.drop (manifest.matching c.values).length) :
    c.FromClosure manifest p ∨ c.FromPattern manifest p := by
  rw [parts.drop_primary] at behind
  rcases List.mem_append.mp behind with dependency | file
  · rcases parts.exists_of_mem_external dependency with ⟨e, kept, q, depends, label, _⟩
    exact Or.inl ⟨e, kept, q, depends, label⟩
  · rcases parts.exists_of_mem_matchedParcels file with
      ⟨e, kept, pattern, asked, path, gives, labelled, _⟩
    exact Or.inr ⟨e, kept, pattern, asked, path, gives, labelled⟩

theorem Parts.not_clashes (parts : c.Parts manifest) (name : String) :
    ¬ c.Clashes manifest name := by
  intro clashes
  have clashing := parts.gathered.mem_clashingNames_iff.mpr clashes
  rw [parts.clash_free] at clashing
  exact absurd clashing List.not_mem_nil

/-- An invoice is given exactly if all other work can be done and no name clashes. -/
theorem exists_expand_eq_ok_iff :
    (∃ inv, (c.expand manifest).outcome = .ok inv) ↔
      c.Buildable manifest ∧ ∀ name, ¬ c.Clashes manifest name := by
  constructor
  · rintro ⟨inv, expanded⟩
    rcases expand_eq_ok.mp expanded with ⟨parts, rfl⟩
    exact ⟨parts.gathered.buildable, parts.not_clashes⟩
  · rintro ⟨buildable, free⟩
    rcases buildable.exists_gathered with ⟨primary, dependencies, matched, files, gathered⟩
    have none : clashingNames (Parcel.merge dependencies.flatten) (Parcel.merge files) = [] := by
      rw [List.eq_nil_iff_forall_not_mem]
      exact fun name clashing => free name (gathered.mem_clashingNames_iff.mp clashing)
    exact ⟨_, by rw [gathered.outcome_expand, if_pos none]⟩

/-- When all other work can be done, an expansion ends with a clash exactly if some name clashes.
The names that it gives then are in order, each once, and they are all that clash; no other list
is given, and none where other work fails.  Otherwise there is an invoice.  In it every parcel
behind the modules comes from a closure or from a pattern, and none from a closure has the name of
one from a pattern. -/
theorem clashes_of_expand (c : ExpansionContext) (manifest : Manifest) :
    (c.Buildable manifest →
      ((∃ names, (c.expand manifest).outcome = .error (.nameClash names)) ↔
        ∃ name, c.Clashes manifest name)) ∧
    (∀ names, (c.expand manifest).outcome = .error (.nameClash names) ↔
      c.Buildable manifest ∧ names ≠ [] ∧ names.Pairwise (· < ·) ∧
        ∀ name, name ∈ names ↔ c.Clashes manifest name) ∧
    ((∃ inv, (c.expand manifest).outcome = .ok inv) ↔
      c.Buildable manifest ∧ ∀ name, ¬ c.Clashes manifest name) ∧
    ∀ inv, (c.expand manifest).outcome = .ok inv →
      (∀ p ∈ inv.parcels.drop (manifest.matching c.values).length,
        c.FromClosure manifest p ∨ c.FromPattern manifest p) ∧
      ∀ p ∈ inv.parcels, ∀ q ∈ inv.parcels,
        c.FromClosure manifest p → c.FromPattern manifest q → p.label.name ≠ q.label.name := by
  refine ⟨fun buildable => buildable.exists_nameClash_iff, fun names => expand_eq_nameClash,
    exists_expand_eq_ok_iff, ?_⟩
  intro inv expanded
  rcases expand_eq_ok.mp expanded with ⟨parts, rfl⟩
  refine ⟨fun p => parts.cases_of_behind, ?_⟩
  intro p _ q _ foreign own same
  exact parts.not_clashes _ ⟨foreign.namesDependency, same ▸ own.namesFile⟩

/-- A module with a style sheet, and an import that brings one of the same name along. -/
def crowded : Manifest where
  packageName := "crowded"
  packageVersion := "1"
  entries := [⟨.handler "m" "/", some ["style.css"], .always⟩,
    ⟨.imported ⟨styles.id, "all"⟩ "/s", none, .always⟩]

/-- The module and its style sheet on a disk, and the package that is imported. -/
def crowdedContext : ExpansionContext where
  base := ⟨.root, ["app"]⟩
  disk := { nodes := [(["app"], .directory), (["app", "m"], .file ⟨#[1, 2]⟩),
    (["app", "style.css"], .file ⟨#[3]⟩)] }
  versioning := .production
  stamp := ⟨⟨⟨2024, 1, 2⟩, 3, 4, 5, 6, none⟩, none⟩
  external := [(styles.id, styles)]

/-- The entry with the style sheet and the one with the import are different ones. -/
theorem clashes_of_expand_crowded :
    crowdedContext.Buildable crowded ∧ (∃ name, crowdedContext.Clashes crowded name) ∧
      (crowdedContext.expand crowded).outcome = .error (.nameClash ["style.css"]) := by
  have evaluated : (match (crowdedContext.expand crowded).outcome with
      | .error (.nameClash names) => names == ["style.css"]
      | _ => false) = true := by decide +kernel
  have failed : (crowdedContext.expand crowded).outcome = .error (.nameClash ["style.css"]) := by
    split at evaluated
    · rename_i names outcome
      rw [outcome, beq_iff_eq.mp evaluated]
    · exact absurd evaluated (by simp)
  rcases clashes_of_expand crowdedContext crowded with ⟨some, exact, _⟩
  have buildable := ((exact ["style.css"]).mp failed).1
  exact ⟨buildable, (some buildable).mp ⟨_, failed⟩, failed⟩

end ExpansionContext
end Consignment
