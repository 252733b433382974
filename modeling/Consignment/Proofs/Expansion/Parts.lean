import Consignment.Expansion
import Consignment.Proofs.Outcome

namespace Consignment

/-!
# What an expansion is put together from

An expansion succeeds exactly when its primary parcels, its dependencies, its patterns and
its files can all be had and no file has the name of a dependency.  Its invoice is then put
together from these parts.  `Parts` holds them with the proofs that they were had, and
`expand_eq_ok` is the only place where the steps of an expansion are taken apart.

For each step a lemma says what its success gives: which content a label describes, which
parcels are the dependencies of an entry, and which paths a pattern gives.
-/

/-- Every entry has a group with a name. -/
theorem Role.isEmpty_groupName (role : Role) : role.groupName.isEmpty = false := by
  cases role <;> simp [Role.groupName]

namespace Parcel

@[simp] theorem label_requiring (label : Label) (group : String) :
    (requiring label group).label = label := rfl

@[simp] theorem memberGroups_requiring (label : Label) (group : String) :
    (requiring label group).memberGroups = [] := rfl

@[simp] theorem memberGroups_memberIn (label : Label) (role : Role) :
    (memberIn label role.groupName).memberGroups = [role.groupName] := by
  simp [memberIn, memberGroups, role.isEmpty_groupName]

end Parcel

namespace ExpansionContext

variable {c : ExpansionContext}

/-! ## Local files -/

/-- A label of a local file describes the bytes that are there. -/
theorem localLabel_eq_ok {role : Role} {path : Path} {feature : FeatureMap}
    {annotations : Option TextMap} {label : Label} :
    c.localLabel role path feature annotations = .ok label ↔
      ∃ bytes name, c.disk.read path = .ok bytes ∧ c.nameOf path = .ok name ∧
        label = ⟨name, Digest.ofBytes bytes, MediaType.ofPath path, bytes.size, some feature,
          annotations⟩ := by
  unfold localLabel
  cases c.disk.read path with
  | error fault => cases fault <;> simp
  | ok bytes =>
    cases c.nameOf path with
    | error failure => simp [bind, Except.bind]
    | ok name => simp [bind, Except.bind, pure, Except.pure, eq_comm]

theorem fileParcel_eq_ok {role : Role} {path : Path} {p : Parcel} :
    c.fileParcel role path = .ok p ↔
      ∃ label, c.localLabel role path (servingFeature none true) none = .ok label ∧
        .memberIn label role.groupName = p := by
  simp only [fileParcel, Outcome.bind_eq_ok, Outcome.pure_eq_ok]

/-! ## Other packages and the modules of entries -/

theorem externalSource_eq_ok {role : Role} {ref : ExternalRef} {source : Invoice × Parcel} :
    c.externalSource role ref = .ok source ↔
      c.external.lookup ref.package = some source.1 ∧
        source.1.handler? ref.handlerId = some source.2 := by
  rcases source with ⟨invoice, parcel⟩
  unfold externalSource Invoice.handler
  cases c.external.lookup ref.package with
  | none => simp
  | some foreign =>
    cases found : foreign.handler? ref.handlerId with
    | none =>
      constructor
      · intro sourced
        simp [found] at sourced
      · rintro ⟨same, offered⟩
        cases Option.some.inj same
        simp [found] at offered
    | some handler =>
      constructor
      · intro sourced
        simp only [found, Except.ok.injEq, Prod.mk.injEq] at sourced
        rcases sourced with ⟨rfl, rfl⟩
        exact ⟨rfl, found⟩
      · rintro ⟨same, offered⟩
        cases Option.some.inj same
        cases Option.some.inj (found.symm.trans offered)
        simp [found]

/-- The label of an entry's own module. -/
def primaryLabel (c : ExpansionContext) (role : Role) : Except Failure Label :=
  match role with
  | .handler modulePath route =>
    c.localLabel role (c.base.join modulePath) (servingFeature (some route) false) none
  | .imported ref route =>
    (c.externalSource role ref).map fun source =>
      { source.2.label with
        feature := some (servingFeature (some route) false)
        annotations := some [(doNotStageKey, "true")] }
  | .exported modulePath exportId =>
    c.localLabel role (c.base.join modulePath) (servingFeature none false)
      (some [(handlerIdKey, exportId)])

theorem primaryParcel_eq_ok {role : Role} {p : Parcel} :
    c.primaryParcel role = .ok p ↔
      ∃ label, c.primaryLabel role = .ok label ∧ .requiring label role.groupName = p := by
  cases role with
  | handler modulePath route =>
    simp only [primaryParcel, primaryLabel, Outcome.bind_eq_ok, Outcome.pure_eq_ok]
  | imported ref route =>
    simp only [primaryParcel, primaryLabel, Outcome.bind_eq_ok, Outcome.pure_eq_ok,
      Outcome.map_eq_ok]
    constructor
    · rintro ⟨source, had, rfl⟩
      exact ⟨_, ⟨source, had, rfl⟩, rfl⟩
    · rintro ⟨_, ⟨source, had, rfl⟩, rfl⟩
      exact ⟨source, had, rfl⟩
  | exported modulePath exportId =>
    simp only [primaryParcel, primaryLabel, Outcome.bind_eq_ok, Outcome.pure_eq_ok]

/-- A parcel is a dependency of a role: the role refers to a handler of another package,
and the parcel is in the handler's closure there. -/
def DependsOnParcel (c : ExpansionContext) (role : Role) (p : Parcel) : Prop :=
  ∃ ref, role.external? = some ref ∧ ∃ invoice handler found,
    c.external.lookup ref.package = some invoice ∧
    invoice.handler? ref.handlerId = some handler ∧
    (invoice.closure handler).outcome = .ok found ∧ p ∈ found

theorem mem_dependencyParcels {role : Role} {parcels : List Parcel}
    (done : (c.dependencyParcels role).outcome = .ok parcels) {p : Parcel} :
    p ∈ parcels ↔
      ∃ q, c.DependsOnParcel role q ∧ p = .memberIn q.label.markedDoNotStage role.groupName := by
  unfold dependencyParcels at done
  unfold DependsOnParcel
  cases external : role.external? with
  | none =>
    rw [external] at done
    simp only [Report.outcome_pure, Except.ok.injEq] at done
    subst done
    simp
  | some ref =>
    rw [external] at done
    simp only [Report.outcome_bind, Report.outcome_ofOutcome, Report.outcome_note,
      Report.outcome_pure, Report.outcome_mapFailure, Outcome.bind_eq_ok, Outcome.mapError_eq_ok,
      Except.ok.injEq, externalSource_eq_ok] at done
    rcases done with ⟨⟨invoice, handler⟩, ⟨stored, offered⟩, found, closed, _, _, rfl⟩
    constructor
    · intro mem
      rcases List.mem_map.mp mem with ⟨q, held, rfl⟩
      exact ⟨q, ⟨ref, rfl, invoice, handler, found, stored, offered, closed, held⟩, rfl⟩
    · rintro ⟨q, ⟨ref', same, invoice', handler', found', stored', offered', closed', held⟩, rfl⟩
      cases Option.some.inj same
      cases Option.some.inj (stored.symm.trans stored')
      cases Option.some.inj (offered.symm.trans offered')
      cases Except.ok.inj (closed.symm.trans closed')
      exact List.mem_map.mpr ⟨q, held, rfl⟩

/-! ## Patterns -/

/-- A pattern gives a path: the path leads to a file, and the pattern matches what leads
from the base to it. -/
def PatternGives (c : ExpansionContext) (pattern : String) (path : Path) : Prop :=
  ∃ found, Glob.matching c.disk c.base pattern = .ok found ∧
    (∃ text ∈ found, c.base.join text = path) ∧ c.disk.isFile path = .ok true

theorem mem_matchedFiles {pattern : String} {files : List Path}
    (done : (c.matchedFiles pattern).outcome = .ok files) {path : Path} :
    path ∈ files ↔ c.PatternGives pattern path := by
  unfold matchedFiles at done
  simp only [Report.outcome_bind, Report.outcome_ofOutcome, Outcome.bind_eq_ok,
    Outcome.mapError_eq_ok] at done
  rcases done with ⟨found, matching, kept, asked, noted⟩
  have same : kept = files := by
    split at noted <;> simpa using noted
  subst same
  rw [Outcome.filterMapM_eq_ok asked, List.mem_map]
  unfold PatternGives
  constructor
  · rintro ⟨⟨text, listed, rfl⟩, file⟩
    exact ⟨found, matching, ⟨text, Text.mem_sorted.mp listed, rfl⟩, file⟩
  · rintro ⟨found', matching', ⟨text, listed, rfl⟩, file⟩
    cases Except.ok.inj (matching.symm.trans matching')
    exact ⟨⟨text, Text.mem_sorted.mpr listed, rfl⟩, file⟩

theorem mem_entryFiles {entry : Entry} {files : List Path}
    (done : (c.entryFiles entry).outcome = .ok files) {path : Path} :
    path ∈ files ↔ ∃ pattern ∈ entry.files.getD [], c.PatternGives pattern path := by
  unfold entryFiles at done
  simp only [Report.outcome_bind, Report.outcome_forAll, Report.outcome_pure, Outcome.bind_eq_ok,
    Outcome.mapM_eq_ok, Except.ok.injEq] at done
  rcases done with ⟨lists, all, rfl⟩
  rw [List.mem_flatten]
  constructor
  · rintro ⟨some, listed, mem⟩
    rcases Outcome.mem_of_forall₂ all listed with ⟨pattern, asked, found⟩
    exact ⟨pattern, asked, (mem_matchedFiles found).mp mem⟩
  · rintro ⟨pattern, asked, gives⟩
    rcases Outcome.exists_mem_of_forall₂ all asked with ⟨some, listed, found⟩
    exact ⟨some, listed, (mem_matchedFiles found).mpr gives⟩

/-! ## Many entries -/

section entries

variable {entries : List Entry}

theorem mem_flatten_dependencyParcels {dependencies : List (List Parcel)}
    (had : List.Forall₂ (fun e ps => (c.dependencyParcels e.role).outcome = .ok ps) entries
      dependencies) {p : Parcel} :
    p ∈ dependencies.flatten ↔
      ∃ e ∈ entries, ∃ q, c.DependsOnParcel e.role q ∧
        p = .memberIn q.label.markedDoNotStage e.role.groupName := by
  rw [List.mem_flatten]
  constructor
  · rintro ⟨found, listed, mem⟩
    rcases Outcome.mem_of_forall₂ had listed with ⟨e, kept, done⟩
    exact ⟨e, kept, (mem_dependencyParcels done).mp mem⟩
  · rintro ⟨e, kept, depends⟩
    rcases Outcome.exists_mem_of_forall₂ had kept with ⟨found, listed, done⟩
    exact ⟨found, listed, (mem_dependencyParcels done).mpr depends⟩

variable {matched : List (List (Role × Path))}
  (given : List.Forall₂ (fun e found => ∃ paths, (c.entryFiles e).outcome = .ok paths ∧
    paths.map (fun path => (e.role, path)) = found) entries matched)

include given

theorem mem_flatten_entryFiles {m : Role × Path} :
    m ∈ matched.flatten ↔
      ∃ e ∈ entries, ∃ pattern ∈ e.files.getD [], ∃ path,
        c.PatternGives pattern path ∧ (e.role, path) = m := by
  rw [List.mem_flatten]
  constructor
  · rintro ⟨row, listed, inRow⟩
    rcases Outcome.mem_of_forall₂ given listed with ⟨e, kept, paths, found, rfl⟩
    rcases List.mem_map.mp inRow with ⟨path, mem, same⟩
    rcases (mem_entryFiles found).mp mem with ⟨pattern, asked, gives⟩
    exact ⟨e, kept, pattern, asked, path, gives, same⟩
  · rintro ⟨e, kept, pattern, asked, path, gives, rfl⟩
    rcases Outcome.exists_mem_of_forall₂ given kept with ⟨row, listed, paths, found, rfl⟩
    exact ⟨_, listed, List.mem_map_of_mem ((mem_entryFiles found).mpr ⟨pattern, asked, gives⟩)⟩

theorem mem_fileParcels {files : List Parcel}
    (had : List.Forall₂ (fun m p => c.fileParcel m.1 m.2 = .ok p) matched.flatten files)
    {p : Parcel} :
    p ∈ files ↔
      ∃ e ∈ entries, ∃ pattern ∈ e.files.getD [], ∃ path,
        c.PatternGives pattern path ∧ c.fileParcel e.role path = .ok p := by
  constructor
  · intro mem
    rcases Outcome.mem_of_forall₂ had mem with ⟨m, matching, done⟩
    rcases (mem_flatten_entryFiles given).mp matching with ⟨e, kept, pattern, asked, path, gives, rfl⟩
    exact ⟨e, kept, pattern, asked, path, gives, done⟩
  · rintro ⟨e, kept, pattern, asked, path, gives, done⟩
    have matching := (mem_flatten_entryFiles given).mpr ⟨e, kept, pattern, asked, path, gives, rfl⟩
    rcases Outcome.exists_mem_of_forall₂ had matching with ⟨q, held, same⟩
    cases Except.ok.inj (done.symm.trans same)
    exact held

end entries

/-! ## The parts of an invoice -/

/-- The invoice with given primary parcels, dependencies and files. -/
def invoiceFrom (c : ExpansionContext) (manifest : Manifest)
    (primary dependencies files : List Parcel) : Invoice where
  id := ⟨manifest.packageName, versionFor c.versioning c.stamp manifest.packageVersion⟩
  description := (manifest.description.map Value.text).getD .null
  authors := manifest.authors
  annotations := manifest.annotations
  parcels := primary ++ Parcel.merge dependencies ++ Parcel.merge files
  groups := (manifest.matching c.values).map (·.role.groupName)

/-- The parts of a successful expansion, with what makes them so. -/
structure Parts (c : ExpansionContext) (manifest : Manifest) where
  primary : List Parcel
  dependencies : List (List Parcel)
  matched : List (List (Role × Path))
  files : List Parcel
  primary_had : List.Forall₂ (fun e p => c.primaryParcel e.role = .ok p)
    (manifest.matching c.values) primary
  dependencies_had : List.Forall₂ (fun e ps => (c.dependencyParcels e.role).outcome = .ok ps)
    (manifest.matching c.values) dependencies
  matched_had : List.Forall₂ (fun e found => ∃ paths, (c.entryFiles e).outcome = .ok paths ∧
    paths.map (fun path => (e.role, path)) = found) (manifest.matching c.values) matched
  files_had : List.Forall₂ (fun m p => c.fileParcel m.1 m.2 = .ok p) matched.flatten files
  clash_free : clashingNames (Parcel.merge dependencies.flatten) (Parcel.merge files) = []

namespace Parts

variable {manifest : Manifest}

def external (parts : c.Parts manifest) : List Parcel :=
  Parcel.merge parts.dependencies.flatten

def matchedParcels (parts : c.Parts manifest) : List Parcel :=
  Parcel.merge parts.files

def invoice (parts : c.Parts manifest) : Invoice :=
  c.invoiceFrom manifest parts.primary parts.dependencies.flatten parts.files

variable (parts : c.Parts manifest)

theorem mem_dependencies {p : Parcel} :
    p ∈ parts.dependencies.flatten ↔
      ∃ e ∈ manifest.matching c.values, ∃ q, c.DependsOnParcel e.role q ∧
        p = .memberIn q.label.markedDoNotStage e.role.groupName :=
  mem_flatten_dependencyParcels parts.dependencies_had

theorem mem_files {p : Parcel} :
    p ∈ parts.files ↔
      ∃ e ∈ manifest.matching c.values, ∃ pattern ∈ e.files.getD [], ∃ path,
        c.PatternGives pattern path ∧ c.fileParcel e.role path = .ok p :=
  mem_fileParcels parts.matched_had parts.files_had

end Parts

/-- The outcome of an expansion without what is noted on the way. -/
theorem outcome_expand (c : ExpansionContext) (manifest : Manifest) :
    (c.expand manifest).outcome = (do
      let primary ← (manifest.matching c.values).mapM fun e => c.primaryParcel e.role
      let dependencies ← (manifest.matching c.values).mapM fun e =>
        (c.dependencyParcels e.role).outcome
      let matched ← (manifest.matching c.values).mapM fun e => do
        let paths ← (c.entryFiles e).outcome
        .ok (paths.map fun path => (e.role, path))
      let files ← matched.flatten.mapM fun m => c.fileParcel m.1 m.2
      if clashingNames (Parcel.merge dependencies.flatten) (Parcel.merge files) = [] then
        .ok (c.invoiceFrom manifest primary dependencies.flatten files)
      else .error (.nameClash
        (clashingNames (Parcel.merge dependencies.flatten) (Parcel.merge files)))) := by
  -- the comparison of names is written as a test there and as an equation here
  have compared (names : List String) (inv : Invoice) :
      (if (!names.isEmpty) = true then .error (.nameClash names) else .ok inv : Except Failure Invoice)
        = if names = [] then .ok inv else .error (.nameClash names) := by
    cases names <;> rfl
  unfold expand select
  simp only [Report.outcome_bind, Report.outcome_notes, Report.outcome_pure, Outcome.ok_bind,
    Report.outcome_ite, Report.outcome_note, Pool.outcome_gather, Report.outcome_forAll,
    Report.outcome_fail, Outcome.error_bind, ite_self, List.mapM_map, compared]
  rfl

/-- An expansion succeeds exactly when its parts can be had. -/
theorem expand_eq_ok {manifest : Manifest} {inv : Invoice} :
    (c.expand manifest).outcome = .ok inv ↔ ∃ parts : c.Parts manifest, parts.invoice = inv := by
  rw [outcome_expand]
  simp only [Outcome.bind_eq_ok, Outcome.mapM_eq_ok, Except.ok.injEq]
  constructor
  · rintro ⟨primary, primaryHad, dependencies, dependenciesHad, matched, matchedHad, files, filesHad,
      assembled⟩
    by_cases free : clashingNames (Parcel.merge dependencies.flatten) (Parcel.merge files) = []
    · rw [if_pos free] at assembled
      exact ⟨⟨primary, dependencies, matched, files, primaryHad, dependenciesHad, matchedHad, filesHad,
        free⟩, Except.ok.inj assembled⟩
    · rw [if_neg free] at assembled
      exact absurd assembled (by simp)
  · rintro ⟨parts, rfl⟩
    refine ⟨_, parts.primary_had, _, parts.dependencies_had, _, parts.matched_had, _, parts.files_had,
      ?_⟩
    rw [if_pos parts.clash_free]
    rfl

end ExpansionContext
end Consignment
