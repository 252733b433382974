import Consignment.Proofs.Staging.Failing
import Consignment.Proofs.Staging.Runs

namespace Consignment

/-!
# What staging makes of what is there already

A content is filed under its digest, so whatever stands under the digest of a parcel is taken
for the content of the parcel.  It is neither read nor replaced.  A copy is written straight to
its place and not to a temporary file first, as the invoice is, so one that was interrupted
leaves the first half of a content under the digest of the whole.  The next run finds something
there, and it publishes the invoice behind it.

Where nothing stands the content is copied, and the copy has the digest.  So a published package
has the content of a parcel exactly if there was nothing or that content before.  Two things are
apart.  The size is that of the parcel if no two files of this digest differ in size.  And a path
to the staging directory that leads through the place of the content and back makes a directory
there, when nothing is.
-/

/-- A place holds the content that a label describes. -/
def Disk.Stores (d : Disk) (place : Place) (label : Label) : Prop :=
  ∃ bytes, d.node? place = some (.file bytes) ∧ Digest.ofBytes bytes = label.sha256 ∧
    bytes.size = label.size

namespace Staging

variable {c : ExpansionContext} {manifest : Manifest} {inv : Invoice} {staging : Path}
  {after : Disk}

/-- Where a content is looked for nothing is added but that content, and a directory when the
place is on the way to the staging directory. -/
theorem Remnant.at_contentPlace {digest : String} {node : Node}
    (describes : ∀ p ∈ inv.parcels, p.isReference = false → c.DescribesFile p.label)
    (remnant : Remnant c.disk c.base staging inv
      (contentPlace (c.disk.placeOf staging) (Digest.ofText inv.id.text) digest) node) :
    (∃ bytes q, node = .file bytes ∧ c.disk.node? q = some (.file bytes) ∧
        Digest.ofBytes bytes = digest) ∨
      c.disk.OnTheWay staging
        (contentPlace (c.disk.placeOf staging) (Digest.ofText inv.id.text) digest) node := by
  rcases remnant with way | ⟨p, mem, own, since, grown, copied⟩
  · rcases cases_of_onTheWay way with ⟨_, same⟩ | upper
    · exact absurd (List.append_cancel_left same) (by simp)
    rcases cases_of_onTheWay_directoryOf upper with ⟨_, same⟩ | outer
    · exact absurd (List.append_cancel_left same) (by simp)
    · exact Or.inr outer
  · rw [placeOf_contentsOf] at copied
    exact Or.inl (filed_of_copied grown (describes p mem own) copied).content

/-- What becomes of the place of a content when its package is published. -/
structure Filled (before after : Disk) (staging : Path) (place : Place) (digest : String) :
    Prop where
  /-- What is there stays there, whatever it is. -/
  kept : ∀ node, before.node? place = some node → after.node? place = some node
  /-- Where nothing is, a file of the digest is copied, unless the path of the staging directory
  goes up and leads through the place: a directory is made there then. -/
  added : before.node? place = none →
    (∃ bytes q, after.node? place = some (.file bytes) ∧ before.node? q = some (.file bytes) ∧
        Digest.ofBytes bytes = digest) ∨
      ".." ∈ staging.parts ∧ MadeOnTheWay before after staging place

theorem Wrote.filled {directory : Path}
    (wrote : Wrote c.disk c.base staging inv after (.ok directory))
    (describes : ∀ p ∈ inv.parcels, p.isReference = false → c.DescribesFile p.label)
    {p : Parcel} (mem : p ∈ inv.parcels) (own : p.isReference = false) :
    Filled c.disk after staging
      (contentPlace (c.disk.placeOf staging) (Digest.ofText inv.id.text) p.label.sha256)
      p.label.sha256 := by
  cases wrote with
  | published grown present invoice =>
    have same := invoice
      (contentPlace (c.disk.placeOf staging) (Digest.ofText inv.id.text) p.label.sha256)
    rw [if_neg contentPlace_ne_invoicePlace] at same
    refine ⟨?_, ?_⟩
    · intro node held
      rw [same]
      exact grown.kept _ node held
    · intro missing
      rcases Option.isSome_iff_exists.mp (present p mem own) with ⟨node, new⟩
      have remnant := (grown.added _ node new).resolve_left (by simp [missing])
      rcases remnant.at_contentPlace describes with ⟨bytes, q, rfl, source, digest⟩ | way
      · exact Or.inl ⟨bytes, q, same.trans new, source, digest⟩
      · cases way.1
        refine Or.inr ⟨?_, missing, same.trans new, way⟩
        by_contra down
        exact not_below_of_onTheWay down way (below_contentPlace _ _ _)

/-- A content is there afterwards exactly if nothing or that content was there before. -/
theorem Filled.stores_iff {place : Place} {label : Label}
    (filled : Filled c.disk after staging place label.sha256) (describes : c.DescribesFile label)
    (oneSize : c.disk.OneSize label.sha256) (down : ".." ∉ staging.parts) :
    after.Stores place label ↔ c.disk.node? place = none ∨ c.disk.Stores place label := by
  cases old : c.disk.node? place with
  | some node =>
    -- whether it is the content or not, nothing else is there afterwards
    have kept : after.node? place = c.disk.node? place := (filled.kept node old).trans old.symm
    simp only [Disk.Stores, kept, old, reduceCtorEq, false_or]
  | none =>
    refine iff_of_true ?_ (Or.inl rfl)
    rcases filled.added old with ⟨bytes, q, new, source, digest⟩ | ⟨up, _⟩
    · rcases describes.read with ⟨others, read, same, size⟩
      rcases Disk.stat_eq_ok.mp (Disk.read_eq_ok.mp read) with ⟨_, r, _, file⟩
      refine ⟨bytes, new, digest, ?_⟩
      rw [oneSize q r bytes others source file digest same.symm, size]
    · exact absurd up down

/-- When an expanded package is published, whatever stood under the digest of one of its contents
stands there still, and where nothing stood there is a file of the digest.  So the content of a
parcel is there, in the size of the parcel, exactly if nothing or that content was there before. -/
theorem stores_iff_of_staged {dest : String} {directory : Path}
    (expanded : (c.expand manifest).outcome = .ok inv)
    (staged : (write c.disk c.base (.ofText dest) inv).2.outcome = .ok directory) {p : Parcel}
    (mem : p ∈ inv.parcels) (own : p.isReference = false) :
    let after := (write c.disk c.base (.ofText dest) inv).1
    let place := c.disk.placeOf (contentFile (contentsOf (.ofText dest) inv.id) p.label)
    Filled c.disk after (.ofText dest) place p.label.sha256 ∧
      (c.disk.OneSize p.label.sha256 → ".." ∉ (Path.ofText dest).parts →
        (after.Stores place p.label ↔
          c.disk.node? place = none ∨ c.disk.Stores place p.label)) := by
  intro after place
  have describes : ∀ p ∈ inv.parcels, p.isReference = false → c.DescribesFile p.label :=
    fun p mem own => ExpansionContext.describesFile_of_expand expanded mem own
  have plain := (ExpansionContext.hasHexDigests_of_expand expanded).plain
  have wrote := wrote_write (d := c.disk) c.base (proper_ofText dest) plain
  rw [staged] at wrote
  have here : place = contentPlace (c.disk.placeOf (.ofText dest)) (Digest.ofText inv.id.text)
      p.label.sha256 := by
    rw [contentPlace, show place = _ from placeOf_contentFile (plain p mem own) rfl,
      placeOf_contentsOf, List.append_assoc]
    rfl
  have filled : Filled c.disk after (.ofText dest) place p.label.sha256 :=
    here ▸ wrote.filled describes mem own
  exact ⟨filled, filled.stores_iff (describes p mem own)⟩

/-- An application with one module. -/
def breeze : Manifest where
  packageName := "breeze"
  packageVersion := "1"
  entries := [⟨.handler "m" "/", none, .always⟩]

/-- The module of two bytes on a disk, and what is left there of earlier runs. -/
def breezeContext (left : List (Place × Node)) : ExpansionContext where
  base := ⟨.root, ["app"]⟩
  disk := { nodes := (["app"], .directory) :: (["app", "m"], .file ⟨#[1, 2]⟩) :: left }
  versioning := .production
  stamp := ⟨⟨⟨2024, 1, 2⟩, 3, 4, 5, 6, none⟩, none⟩

/-- Staging an invoice of the application. -/
def breezeStaged (left : List (Place × Node)) (inv : Invoice) : Disk × Report Path :=
  write (breezeContext left).disk (breezeContext left).base (.ofText "/out") inv

/-- Where a content of the application is staged. -/
def breezePlace (left : List (Place × Node)) (inv : Invoice) (label : Label) : Place :=
  (breezeContext left).disk.placeOf (contentFile (contentsOf (.ofText "/out") inv.id) label)

theorem oneSize_breeze (digest : String) : (breezeContext []).disk.OneSize digest := by
  have only : ∀ q bytes, (breezeContext []).disk.node? q = some (.file bytes) →
      bytes = ⟨#[1, 2]⟩ := by
    intro q bytes held
    unfold Disk.node? at held
    split at held
    · exact absurd held (by simp)
    · simp only [breezeContext, List.lookup_cons, List.lookup_nil] at held
      split at held
      · exact absurd held (by simp)
      · split at held
        · cases held
          rfl
        · exact absurd held (by simp)
  intro q r first second here there _ _
  rw [only q first here, only r second there]

/-- Where nothing is left of earlier runs, the module is staged. -/
theorem stores_of_staged_breeze :
    ∃ inv directory, ∃ p ∈ inv.parcels, ((breezeContext []).expand breeze).outcome = .ok inv ∧
      (breezeStaged [] inv).2.outcome = .ok directory ∧ p.isReference = false ∧
      (breezeStaged [] inv).1.Stores (breezePlace [] inv p.label) p.label := by
  have evaluated : (((breezeContext []).expand breeze).outcome.map fun inv =>
      inv.parcels.any fun p => !p.isReference && (breezeStaged [] inv).2.outcome.toBool &&
        ((breezeContext []).disk.node? (breezePlace [] inv p.label)).isNone).toOption =
      some true := by decide +kernel
  rcases Outcome.exists_of_toOption evaluated with ⟨inv, expanded, facts⟩
  rcases List.any_eq_true.mp facts with ⟨p, mem, facts⟩
  simp only [Bool.and_eq_true, Bool.not_eq_true', Option.isNone_iff_eq_none] at facts
  rcases facts with ⟨⟨own, written⟩, missing⟩
  rcases Outcome.exists_of_toBool written with ⟨directory, staged⟩
  refine ⟨inv, directory, p, mem, expanded, staged, own, ?_⟩
  unfold breezeStaged at staged ⊢
  unfold breezePlace at missing ⊢
  have down : ".." ∉ (Path.ofText "/out").parts := by decide
  have filled := stores_iff_of_staged expanded staged mem own
  exact (filled.2 (oneSize_breeze _) down).mpr (Or.inl missing)

/-- What a copy of the module leaves that was interrupted behind the first byte. -/
def leftover : List (Place × Node) :=
  let package := Digest.ofText "breeze/1"
  [(["out"], .directory), (["out", package], .directory),
    (["out", package, "parcels"], .directory),
    (contentPlace ["out"] package (Digest.ofBytes ⟨#[1, 2]⟩), .file ⟨#[1]⟩)]

/-- Whether a node is a file of some size. -/
def hasSize (size : Nat) : Node → Bool
  | .file bytes => bytes.size == size
  | .directory => false

/-- Such a half of the module is published. -/
theorem not_stores_of_leftover :
    ∃ inv directory, ∃ p ∈ inv.parcels,
      ((breezeContext leftover).expand breeze).outcome = .ok inv ∧
      (breezeStaged leftover inv).2.outcome = .ok directory ∧ p.isReference = false ∧
      ¬ (breezeStaged leftover inv).1.Stores (breezePlace leftover inv p.label) p.label := by
  have evaluated : (((breezeContext leftover).expand breeze).outcome.map fun inv =>
      inv.parcels.any fun p => !p.isReference && p.label.size == 2 &&
        (breezeStaged leftover inv).2.outcome.toBool &&
        ((breezeStaged leftover inv).1.node? (breezePlace leftover inv p.label)).any
          (hasSize 1)).toOption = some true := by decide +kernel
  rcases Outcome.exists_of_toOption evaluated with ⟨inv, expanded, facts⟩
  rcases List.any_eq_true.mp facts with ⟨p, mem, facts⟩
  simp only [Bool.and_eq_true, Bool.not_eq_true', beq_iff_eq] at facts
  rcases facts with ⟨⟨⟨own, size⟩, written⟩, half⟩
  rcases Outcome.exists_of_toBool written with ⟨directory, staged⟩
  refine ⟨inv, directory, p, mem, expanded, staged, own, ?_⟩
  rintro ⟨bytes, held, _, whole⟩
  rw [held, Option.any_some, hasSize, beq_iff_eq] at half
  rw [half, size] at whole
  exact absurd whole (by decide)

end Staging
end Consignment
