import Consignment.Proofs.Expansion.Contents
import Consignment.Proofs.Staging.Growing

namespace Consignment

/-!
# What staging leaves in a staging directory

Staging copies the file that a parcel describes under the digest that the parcel has.  The
digest was taken from the file when the invoice was made; what is copied is read later,
through the name of the parcel, on a disk that has grown since.  The name leads back to
the file and a disk that grows keeps its files, so the content has the digest that it is
filed under.  This holds where the staging directory is among the files of the package,
because nothing in the argument asks where a file is.

All that appears in the staging directory are two directories of the package, contents
that are filed under their digests, and the invoice if all parcels were copied.
-/

namespace Staging

/-- A path names a staging directory.  Where the way there goes through the inside of the
directory itself, it goes through directories that exist; otherwise staging would have to
make them there before anything else. -/
structure Names (d : Disk) (staging : Path) (top : Place) : Prop where
  leads : d.placeOf staging = top
  through : ∀ parts, parts <+: staging.parts →
    Below top (Disk.follow (d.start staging.anchor) parts) →
      d.node? (Disk.follow (d.start staging.anchor) parts) = some .directory

variable {c : ExpansionContext} {d : Disk} {staging : Path} {top : Place}
  {allowed : Place → Node → Prop}

/-! ## Contents -/

/-- A file of an earlier disk, filed under its digest. -/
def Filed (earlier : Disk) (place q : Place) (node : Node) : Prop :=
  ∃ bytes r, node = .file bytes ∧ earlier.node? r = some (.file bytes) ∧
    q = place ++ [Digest.ofBytes bytes ++ ".dat"]

/-- A copy of the file that a parcel describes is filed under the digest of the parcel. -/
theorem filed_of_copied {place q : Place} {label : Label} {node : Node}
    (earlier : Disk.Grown allowed c.disk d) (describes : c.DescribesFile label)
    (copied : Copied d c.base place label q node) : Filed c.disk place q node := by
  rcases copied with ⟨rfl, bytes, rfl, found⟩
  rcases describes.read with ⟨others, read, digest, _⟩
  rw [earlier.read read] at found
  cases found
  rcases Disk.stat_eq_ok.mp (Disk.read_eq_ok.mp read) with ⟨_, r, _, source⟩
  exact ⟨bytes, r, rfl, source, by rw [digest]⟩

/-! ## A package -/

/-- What may appear on a disk when a package is staged: inside of the staging directory,
two directories of the package and contents. -/
def Added (earlier : Disk) (top : Place) (directory : String) (q : Place) (node : Node) : Prop :=
  Below top q →
    (node = .directory ∧ (q = top ++ [directory] ∨ q = top ++ [directory, "parcels"])) ∨
      Filed earlier (top ++ [directory, "parcels"]) q node

/-- What staging a package leaves on a disk, by its outcome. -/
inductive Leaves (earlier : Disk) (top : Place) (inv : Invoice) (after : Disk) :
    Except Failure Path → Prop
  | failed {filled : Disk} {failure : Failure}
      (grown : Disk.Grown (Added earlier top (Digest.ofText inv.id.text)) earlier filled)
      (same : ∀ q, after.node? q = filled.node? q) : Leaves earlier top inv after (.error failure)
  | staged {filled : Disk} {directory : Path}
      (grown : Disk.Grown (Added earlier top (Digest.ofText inv.id.text)) earlier filled)
      (present : ∀ p ∈ inv.parcels, p.isReference = false →
        (filled.node? (contentPlace top (Digest.ofText inv.id.text) p.label.sha256)).isSome)
      (invoice : ∀ q, after.node? q =
        if q = invoicePlace top (Digest.ofText inv.id.text) then
          some (.file (Yaml.dump inv.toValue).toUTF8)
        else filled.node? q) : Leaves earlier top inv after (.ok directory)

namespace Names

/-- The directories on the way to the contents of a package are there already, outside of
the staging directory, or the package's. -/
theorem added_of_onTheWay (names : Names d staging top) {id : PackageId} {q : Place} {node : Node}
    (way : d.OnTheWay (contentsOf staging id) q node) (earlier : Disk) :
    d.node? q = some node ∨ Added earlier top (Digest.ofText id.text) q node := by
  rcases cases_of_onTheWay way with ⟨rfl, rfl⟩ | upper
  · rw [names.leads]
    exact Or.inr fun _ => Or.inl ⟨rfl, Or.inr rfl⟩
  rcases cases_of_onTheWay_directoryOf upper with ⟨rfl, rfl⟩ | ⟨rfl, parts, outer, rfl⟩
  · rw [names.leads]
    exact Or.inr fun _ => Or.inl ⟨rfl, Or.inl rfl⟩
  · by_cases inside : Below top (Disk.follow (d.start staging.anchor) parts)
    · exact Or.inl (names.through parts outer inside)
    · exact Or.inr fun below => absurd below inside

/-- A path that leads to the directory names it, whatever its way. -/
theorem of_locate (proper : Disk.Proper staging.parts) (located : d.locate staging = .ok top) :
    Names d staging top where
  leads := (Disk.locate_eq_placeOf proper located).symm
  through := by
    rintro parts ⟨rest, whole⟩ inside
    have walked : d.walk (d.start staging.anchor) (parts ++ rest) = .ok top := by
      rw [whole]
      exact (Disk.locate_eq_ok.mp located).2
    have front : Disk.Proper parts := by
      intro part mem
      exact proper part (whole ▸ List.mem_append_left rest mem)
    rcases Disk.walk_append_eq_ok.mp walked with ⟨middle, first, second⟩
    rw [← Disk.walk_eq_follow front first] at inside ⊢
    cases rest with
    | nil =>
      -- the way ends at the directory, and that is not inside of it
      cases second
      rcases inside with ⟨name, others, same⟩
      exact absurd same (by simp)
    | cons name others => exact (Disk.walk_cons_eq_ok.mp second).1

/-- A path without double dots names the place that it leads to, which need not exist. -/
theorem of_down (down : ".." ∉ staging.parts) : Names d staging (d.placeOf staging) where
  leads := rfl
  through := fun parts front inside =>
    absurd inside (not_below_of_onTheWay down ⟨rfl, parts, front, rfl⟩)

/-- So a path names the directory that it leads to, and without double dots it names the place
where the directory will be, too. -/
theorem of_leads (proper : Disk.Proper staging.parts)
    (leads : d.locate staging = .ok top ∨ ".." ∉ staging.parts ∧ d.placeOf staging = top) :
    Names d staging top := by
  rcases leads with located | ⟨down, rfl⟩
  · exact .of_locate proper located
  · exact .of_down down

end Names

/-- What staging adds to a disk may appear, when the digests of the parcels are those of the
files that they describe. -/
theorem added_of_remnant {inv : Invoice} {q : Place} {node : Node}
    (names : Names c.disk staging top)
    (describes : ∀ p ∈ inv.parcels, p.isReference = false → c.DescribesFile p.label)
    (remnant : Remnant c.disk c.base staging inv q node) :
    c.disk.node? q = some node ∨ Added c.disk top (Digest.ofText inv.id.text) q node := by
  rcases remnant with way | ⟨p, mem, own, since, grown, copied⟩
  · exact names.added_of_onTheWay way c.disk
  · rw [placeOf_contentsOf, names.leads] at copied
    exact Or.inr fun _ => Or.inr (filed_of_copied grown (describes p mem own) copied)

/-- Staging a package leaves the invoice behind the contents, or no more than some of the
contents. -/
theorem leaves_write {inv : Invoice} (names : Names c.disk staging top)
    (proper : Disk.Proper staging.parts)
    (describes : ∀ p ∈ inv.parcels, p.isReference = false → c.DescribesFile p.label) :
    Leaves c.disk top inv (write c.disk c.base staging inv).1
      (write c.disk c.base staging inv).2.outcome := by
  have plain : ∀ p ∈ inv.parcels, p.isReference = false → '/' ∉ p.label.sha256.toList := by
    intro p mem own
    rcases (describes p mem own).read with ⟨bytes, _, digest, _⟩
    rw [digest]
    exact Digest.slash_not_mem_ofList _
  have wrote := wrote_write (d := c.disk) c.base proper plain
  cases outcome : (write c.disk c.base staging inv).2.outcome with
  | error failure =>
    rw [outcome] at wrote
    cases wrote with
    | failed grown =>
      exact .failed (grown.restate fun q node => added_of_remnant names describes) fun q => rfl
  | ok directory =>
    rw [outcome] at wrote
    cases wrote with
    | published grown present invoice =>
      rw [names.leads] at present invoice
      exact .staged (grown.restate fun q node => added_of_remnant names describes) present invoice

/-! ## Where things appear -/

theorem below_contentPlace (top : Place) (directory digest : String) :
    Below top (contentPlace top directory digest) :=
  ⟨directory, ["parcels", digest ++ ".dat"], rfl⟩

theorem below_invoicePlace (top : Place) (directory : String) :
    Below top (invoicePlace top directory) :=
  ⟨directory, ["invoice.yml"], rfl⟩

theorem invoicePlace_inj {directory other : String} :
    invoicePlace top directory = invoicePlace top other ↔ directory = other := by
  simp [invoicePlace]

theorem contentPlace_ne_invoicePlace {directory other digest : String} :
    contentPlace top directory digest ≠ invoicePlace top other := by
  intro same
  have inside := List.append_cancel_left same
  exact absurd inside (by simp)

/-- What is filed where a content of a package is looked for has the digest that is looked
for. -/
theorem Filed.content {earlier : Disk} {directory other digest : String} {node : Node}
    (filed : Filed earlier (top ++ [directory, "parcels"]) (contentPlace top other digest) node) :
    ∃ bytes r, node = .file bytes ∧ earlier.node? r = some (.file bytes) ∧
      Digest.ofBytes bytes = digest := by
  rcases filed with ⟨bytes, r, rfl, source, same⟩
  rw [List.append_assoc] at same
  have inside := List.append_cancel_left same
  have last : digest ++ ".dat" = Digest.ofBytes bytes ++ ".dat" := by
    simp only [List.cons_append, List.nil_append, List.cons.injEq] at inside
    exact inside.2.2.1
  exact ⟨bytes, r, rfl, source, ((String.append_left_inj ".dat").mp last).symm⟩

/-- What appears where a content of a package is looked for is a file of the earlier disk,
and its digest is the one that is looked for. -/
theorem Added.content {earlier : Disk} {directory other digest : String} {node : Node}
    (added : Added earlier top directory (contentPlace top other digest) node) :
    ∃ bytes r, node = .file bytes ∧ earlier.node? r = some (.file bytes) ∧
      Digest.ofBytes bytes = digest := by
  rcases added (below_contentPlace top other digest) with ⟨_, same | same⟩ | filed
  · exact absurd (List.append_cancel_left same) (by simp)
  · exact absurd (List.append_cancel_left same) (by simp)
  · exact filed.content

/-- No invoice appears before it is written. -/
theorem not_added_invoicePlace {earlier : Disk} {directory other : String} {node : Node} :
    ¬ Added earlier top directory (invoicePlace top other) node := by
  intro added
  rcases added (below_invoicePlace top other) with ⟨_, same | same⟩ | ⟨bytes, r, _, _, same⟩
  · exact absurd (List.append_cancel_left same) (by simp)
  · exact absurd (List.append_cancel_left same) (by simp)
  · rw [List.append_assoc] at same
    exact absurd (List.append_cancel_left same) (by simp)

end Staging
end Consignment
