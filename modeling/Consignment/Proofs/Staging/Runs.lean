import Consignment.Proofs.Packaging.Building
import Consignment.Proofs.Staging.Contents

namespace Consignment

/-!
# A staging directory over many runs

Packages are staged into one directory again and again: other packages, other versions,
the same package once more.  Some runs fail and leave a part of the contents.  Between
runs anything outside of the directory may change.

What is in the directory stays true to the runs that succeeded.  Contents are only ever
added, and each is filed under its own digest; the invoice of a package is the only file
that is replaced, and it is replaced last.  So a run that fails leaves the invoice of an
earlier run, with everything that this invoice names.

A content that is there already is not written again.  It has the digest of the file that
would have been copied; it has the size of that file too, unless the run found two files
of this digest that differ in size.
-/

namespace Surroundings

variable {s : Surroundings} {order : Order} {staging : Value}

/-- A package is the expansion of a manifest over the files as they are. -/
theorem build_eq_ok {packaged : Packaged} (built : (s.build order).outcome = .ok packaged) :
    ∃ (c : ExpansionContext) (manifest : Manifest), c.base = packaged.manifestPath.parent ∧
      c.disk = s.disk ∧ (c.expand manifest).outcome = .ok packaged.invoice := by
  rw [build, buildWith, Report.outcome_bind] at built
  rcases Outcome.bind_eq_ok.mp built with ⟨⟨manifest, path⟩, _, packed⟩
  rw [outcome_packageManifest] at packed
  simp only [Outcome.bind_eq_ok] at packed
  rcases packed with ⟨_, _, inv, expanded, done⟩
  cases Except.ok.inj done
  exact ⟨_, manifest, rfl, rfl, expanded⟩

/-- A run fails before anything is written, or it stages the expansion of a manifest. -/
theorem prepare_cases (s : Surroundings) (order : Order) (staging : Value) :
    (∃ failure, (s.prepare order staging).1 = s.disk ∧
      (s.prepare order staging).2.outcome = .error failure) ∨
    ∃ (c : ExpansionContext) (manifest : Manifest) (packaged : Packaged) (path : Path),
      stagingPath staging = .ok path ∧ c.disk = s.disk ∧
      (c.expand manifest).outcome = .ok packaged.invoice ∧
      (s.prepare order staging).1 = (Staging.write c.disk c.base path packaged.invoice).1 ∧
      (s.prepare order staging).2.outcome =
        (Staging.write c.disk c.base path packaged.invoice).2.outcome.map fun directory =>
          (packaged, directory) := by
  unfold prepare
  cases built : (s.build order).outcome with
  | error failure =>
    simp only [built]
    exact Or.inl ⟨failure, trivial, rfl⟩
  | ok packaged =>
    cases named : stagingPath staging with
    | error fault =>
      simp only [built, Report.outcome_bind, Report.outcome_fail, Outcome.ok_bind]
      exact Or.inl ⟨.escaped fault, trivial, rfl⟩
    | ok path =>
      rcases build_eq_ok built with ⟨c, manifest, base, disk, expanded⟩
      simp only [built, Report.outcome_bind, Report.outcome_pure, Outcome.ok_bind]
      refine Or.inr ⟨c, manifest, packaged, path, rfl, disk, expanded, ?_, ?_⟩
      · rw [base, disk]
      · rw [base, disk]
        cases (Staging.write s.disk packaged.manifestPath.parent path packaged.invoice).2.outcome
          <;> rfl

end Surroundings

/-! ## States between runs -/

/-- All files on a disk that have a digest have one size. -/
def Disk.OneSize (d : Disk) (digest : String) : Prop :=
  ∀ q r first second, d.node? q = some (.file first) → d.node? r = some (.file second) →
    Digest.ofBytes first = digest → Digest.ofBytes second = digest → first.size = second.size

/-- A run that succeeded: the disk that it started on, and the invoice that it staged. -/
structure StagedRun where
  before : Disk
  invoice : Invoice

/-- A disk between runs, and what became of the runs so far: for every name of a directory
in the staging directory, the last run that succeeded in staging a package there. -/
structure Store where
  disk : Disk
  last : String → Option StagedRun := fun _ => none

namespace Store

open Staging (Below Names contentPlace invoicePlace)

/-- The state after a run that staged a package. -/
def staged (st : Store) (after : Disk) (inv : Invoice) : Store where
  disk := after
  last directory :=
    if directory = Digest.ofText inv.id.text then some ⟨st.disk, inv⟩ else st.last directory

/-- The state after a run, which has the disk for itself. -/
def prepare (st : Store) (s : Surroundings) (order : Order) (staging : Value) : Store :=
  let run := { s with disk := st.disk }.prepare order staging
  match run.2.outcome with
  | .error _ => { st with disk := run.1 }
  | .ok (packaged, _) => st.staged run.1 packaged.invoice

/-- The states that are reached from an empty staging directory by runs on it and by
changes outside of it. -/
inductive Reachable (top : Place) : Store → Prop
  | start (d : Disk) (empty : ∀ q, Below top q → d.node? q = none) : Reachable top { disk := d }
  | run {st : Store} (reached : Reachable top st) (s : Surroundings) (order : Order)
      (staging : Value)
      (names : ∀ path, Surroundings.stagingPath staging = .ok path → Names st.disk path top) :
      Reachable top (st.prepare s order staging)
  | change {st : Store} (reached : Reachable top st) (d : Disk)
      (outside : ∀ q, Below top q → d.node? q = st.disk.node? q) :
      Reachable top { st with disk := d }

/-- The contents of a staging directory are true to their names and to the runs. -/
structure Sound (top : Place) (st : Store) : Prop where
  contents : ∀ directory digest node,
    st.disk.node? (contentPlace top directory digest) = some node →
      ∃ bytes, node = .file bytes ∧ Digest.ofBytes bytes = digest
  invoices : ∀ directory, st.disk.node? (invoicePlace top directory) =
    (st.last directory).map fun run => .file (Yaml.dump run.invoice.toValue).toUTF8
  parcels : ∀ directory run, st.last directory = some run →
    ∀ p ∈ run.invoice.parcels, p.isReference = false →
      ∃ bytes, st.disk.node? (contentPlace top directory p.label.sha256) = some (.file bytes) ∧
        (run.before.OneSize p.label.sha256 → bytes.size = p.label.size)

variable {top : Place} {st : Store}

theorem sound_of_empty {d : Disk} (empty : ∀ q, Below top q → d.node? q = none) :
    Sound top { disk := d } where
  contents := by
    intro directory digest node held
    rw [empty _ (Staging.below_contentPlace top directory digest)] at held
    exact absurd held (by simp)
  invoices := fun directory => empty _ (Staging.below_invoicePlace top directory)
  parcels := by
    intro directory run succeeded
    exact absurd succeeded (by simp)

/-- Only what is inside of the staging directory matters. -/
theorem Sound.of_same (sound : Sound top st) {d : Disk}
    (same : ∀ q, Below top q → d.node? q = st.disk.node? q) : Sound top { st with disk := d } where
  contents := by
    intro directory digest node held
    rw [same _ (Staging.below_contentPlace top directory digest)] at held
    exact sound.contents directory digest node held
  invoices := by
    intro directory
    rw [same _ (Staging.below_invoicePlace top directory)]
    exact sound.invoices directory
  parcels := by
    intro directory run succeeded p mem own
    rw [same _ (Staging.below_contentPlace top directory p.label.sha256)]
    exact sound.parcels directory run succeeded p mem own

/-- What may appear while a package is staged does no harm. -/
theorem Sound.of_grown (sound : Sound top st) {filled : Disk} {directory : String}
    (grown : Disk.Grown (Staging.Added st.disk top directory) st.disk filled) :
    Sound top { st with disk := filled } where
  contents := by
    intro other digest node held
    rcases grown.added _ node held with before | added
    · exact sound.contents other digest node before
    · rcases added.content with ⟨bytes, _, here, _, same⟩
      exact ⟨bytes, here, same⟩
  invoices := by
    intro other
    rw [← sound.invoices other]
    apply Option.ext
    intro node
    constructor
    · intro held
      exact (grown.added _ node held).resolve_right Staging.not_added_invoicePlace
    · exact grown.kept _ node
  parcels := by
    intro other run succeeded p mem own
    rcases sound.parcels other run succeeded p mem own with ⟨bytes, held, size⟩
    exact ⟨bytes, grown.kept _ _ held, size⟩

/-- A content of a package on a grown disk has the bytes of a file of the disk before. -/
theorem Sound.exists_file (sound : Sound top st) {filled : Disk} {directory other digest : String}
    {node : Node} (grown : Disk.Grown (Staging.Added st.disk top directory) st.disk filled)
    (held : filled.node? (contentPlace top other digest) = some node) :
    ∃ bytes q, node = .file bytes ∧ st.disk.node? q = some (.file bytes) ∧
      Digest.ofBytes bytes = digest := by
  rcases grown.added _ node held with before | added
  · rcases sound.contents other digest node before with ⟨bytes, rfl, same⟩
    exact ⟨bytes, _, rfl, before, same⟩
  · exact added.content

/-- A package that was staged has its invoice and its contents, and no other package has
lost anything. -/
theorem Sound.of_staged (sound : Sound top st) {filled after : Disk} {inv : Invoice}
    (grown : Disk.Grown (Staging.Added st.disk top (Digest.ofText inv.id.text)) st.disk filled)
    (present : ∀ p ∈ inv.parcels, p.isReference = false →
      (filled.node? (contentPlace top (Digest.ofText inv.id.text) p.label.sha256)).isSome)
    (invoice : ∀ q, after.node? q =
      if q = invoicePlace top (Digest.ofText inv.id.text) then
        some (.file (Yaml.dump inv.toValue).toUTF8)
      else filled.node? q)
    (sizes : ∀ p ∈ inv.parcels, p.isReference = false → ∃ q bytes,
      st.disk.node? q = some (.file bytes) ∧ p.label.sha256 = Digest.ofBytes bytes ∧
        p.label.size = bytes.size) :
    Sound top (st.staged after inv) := by
  have full : Sound top { st with disk := filled } := sound.of_grown grown
  have last (directory : String) : (st.staged after inv).last directory =
      if directory = Digest.ofText inv.id.text then some ⟨st.disk, inv⟩ else st.last directory := by
    simp only [staged]
  have content (directory digest : String) :
      (st.staged after inv).disk.node? (contentPlace top directory digest) =
        filled.node? (contentPlace top directory digest) := by
    rw [staged, invoice, if_neg Staging.contentPlace_ne_invoicePlace]
  refine ⟨?_, ?_, ?_⟩
  · intro directory digest node held
    rw [content] at held
    exact full.contents directory digest node held
  · intro directory
    rw [last, staged, invoice]
    by_cases here : directory = Digest.ofText inv.id.text
    · rw [if_pos here, here, if_pos rfl]
      rfl
    · have elsewhere : invoicePlace top directory ≠ invoicePlace top (Digest.ofText inv.id.text) :=
        fun same => here (Staging.invoicePlace_inj.mp same)
      rw [if_neg elsewhere, if_neg here]
      exact full.invoices directory
  · intro directory run succeeded p mem own
    rw [content]
    rw [last] at succeeded
    by_cases here : directory = Digest.ofText inv.id.text
    · subst here
      rw [if_pos rfl] at succeeded
      cases succeeded
      rcases Option.isSome_iff_exists.mp (present p mem own) with ⟨node, held⟩
      rcases sound.exists_file grown held with ⟨bytes, q, rfl, stored, digest⟩
      rcases sizes p mem own with ⟨r, others, source, same, size⟩
      refine ⟨bytes, held, fun oneSize => ?_⟩
      rw [size, oneSize q r bytes others stored source digest same.symm]
    · rw [if_neg here] at succeeded
      exact full.parcels directory run succeeded p mem own

theorem proper_of_stagingPath {staging : Value} {path : Path}
    (named : Surroundings.stagingPath staging = .ok path) : Disk.Proper path.parts := by
  cases staging with
  | text name =>
    cases named
    exact Staging.proper_ofText name
  | _ => exact absurd named (by simp [Surroundings.stagingPath])

/-- The directory of a run is named by a text that leads to it, or without double dots to where it
will be. -/
theorem Reachable.run_of_leads (reached : Reachable top st) (s : Surroundings) (order : Order)
    {name : String} (leads : st.disk.locate (.ofText name) = .ok top ∨
      ".." ∉ (Path.ofText name).parts ∧ st.disk.placeOf (.ofText name) = top) :
    Reachable top (st.prepare s order (.text name)) := by
  refine reached.run s order _ fun path named => ?_
  have proper := proper_of_stagingPath named
  cases named
  exact .of_leads proper leads

/-- One run preserves what is true between runs. -/
theorem Sound.prepare (sound : Sound top st) (s : Surroundings) (order : Order) (staging : Value)
    (names : ∀ path, Surroundings.stagingPath staging = .ok path → Names st.disk path top) :
    Sound top (st.prepare s order staging) := by
  unfold Store.prepare
  rcases Surroundings.prepare_cases { s with disk := st.disk } order staging with
    ⟨failure, disk, outcome⟩ |
    ⟨c, manifest, packaged, path, named, disk, expanded, after, outcome⟩
  · simp only [outcome, disk]
    exact sound
  · have disk : c.disk = st.disk := disk
    have start : Names c.disk path top := disk ▸ names path named
    have describes : ∀ p ∈ packaged.invoice.parcels, p.isReference = false →
        c.DescribesFile p.label :=
      fun p mem own => ExpansionContext.describesFile_of_expand expanded mem own
    have leaves := Staging.leaves_write start (proper_of_stagingPath named) describes
    rcases written : (Staging.write c.disk c.base path packaged.invoice).2.outcome with
      failure | directory
    · rw [written] at leaves outcome
      simp only [outcome, after, Except.map]
      cases leaves with
      | failed grown same =>
        rw [disk] at grown
        exact (sound.of_grown grown).of_same fun q _ => same q
    · rw [written] at leaves outcome
      simp only [outcome, after, Except.map]
      cases leaves with
      | staged grown present invoice =>
        rw [disk] at grown
        apply sound.of_staged grown present invoice
        intro p mem own
        rcases (describes p mem own).read with ⟨bytes, read, digest, size⟩
        rcases Disk.stat_eq_ok.mp (Disk.read_eq_ok.mp read) with ⟨_, q, _, held⟩
        exact ⟨q, bytes, disk ▸ held, digest, size⟩

/-- Between runs, every content in the staging directory has the digest that it is filed
under, every invoice is that of the last run that succeeded in its directory, and the
contents that this invoice does not merely refer to are there in the sizes that it gives. -/
theorem sound_of_reachable (reached : Reachable top st) : Sound top st := by
  induction reached with
  | start d empty => exact sound_of_empty empty
  | run _ s order staging names ih => exact ih.prepare s order staging names
  | change _ d outside ih => exact ih.of_same outside

/-- An application with a pattern that matches what is staged inside of the application. -/
def nested : Surroundings where
  disk :=
    { nodes := [
        (["app"], .directory),
        (["app", "m"], .file ⟨#[1, 2]⟩),
        (["app", "wagipack.yml"], .file <| String.toUTF8 <|
          "package: \x7bname: n, version: v\x7d\n" ++
          "handler: [\x7broute: /, name: m, files: [o/*/*/*]\x7d]\n")] }
  network := fun _ => .unreachable ""
  stamp := ⟨⟨⟨2024, 1, 2⟩, 3, 4, 5, 6, none⟩, none⟩

def nestedOrder : Order where
  source := "/app"
  versioning := .production

/-- The application is staged twice. -/
def nestedStore : Store :=
  let once := Store.prepare { disk := nested.disk } nested nestedOrder (.text "/app/o")
  once.prepare nested nestedOrder (.text "/app/o")

/-- The second run packages what the first one staged. -/
theorem sound_of_reachable_nested :
    ∃ run, nestedStore.last (Digest.ofText "n/v") = some run ∧
      run.invoice.parcels.length = 2 ∧ Reachable ["app", "o"] nestedStore ∧
      Sound ["app", "o"] nestedStore := by
  have evaluated : (nestedStore.last (Digest.ofText "n/v")).map
      (fun run => run.invoice.parcels.length) = some 2 := by decide +kernel
  rcases Option.map_eq_some_iff.mp evaluated with ⟨run, succeeded, parcels⟩
  have empty : ∀ q, Below ["app", "o"] q → nested.disk.node? q = none := by
    rintro q ⟨name, rest, rfl⟩
    simp [Disk.node?, nested, List.lookup_cons]
  have parts : Path.ofText "/app/o" = ⟨.root, ["app", "o"]⟩ := by decide
  have leads (d : Disk) : ".." ∉ (Path.ofText "/app/o").parts ∧
      d.placeOf (.ofText "/app/o") = ["app", "o"] := by
    rw [parts]
    exact ⟨by decide, rfl⟩
  have reached : Reachable ["app", "o"] nestedStore :=
    ((Reachable.start _ empty).run_of_leads _ _ (.inr (leads _))).run_of_leads _ _ (.inr (leads _))
  exact ⟨run, succeeded, parcels, reached, sound_of_reachable reached⟩

end Store
end Consignment
