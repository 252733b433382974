import Consignment.Proofs.Disk.Agreeing
import Consignment.Proofs.Staging.Failing

namespace Consignment
namespace Staging

/-!
# Staging a package again

A package that was staged is *complete*: its directories are there, something is under the digest
of every parcel that is no reference, and the invoice is the one that is written.  On a disk on
which a package is complete, staging it finds everything there and replaces the invoice by itself,
wherever the contents would come from.

To be complete depends on what is inside of the staging directory and on the directories on the
way there, so it outlasts every other change.
-/

variable {d d' after : Disk} {source staging directory : Path} {inv : Invoice}

/-! ## A write that succeeds -/

/-- A content is written exactly if there is something under its digest, and then nothing changes,
or else if the file of its name can be copied. -/
theorem writeContent_eq_ok {contents : Path} {label : Label} {count : Nat} :
    writeContent d source contents label = (after, .ok count) ↔
      d.holds (contentFile contents label) = .ok true ∧ d = after ∧ count = 0 ∨
      d.holds (contentFile contents label) = .ok false ∧
        d.copyFile (source.join label.name) (contentFile contents label) = (after, .ok ()) ∧
        count = 1 := by
  cases held : d.holds (contentFile contents label) with
  | error fault => simp [writeContent, held]
  | ok there =>
    cases there with
    | true => simp [writeContent, held, eq_comm]
    | false =>
      rcases copied : d.copyFile (source.join label.name) (contentFile contents label) with
        ⟨filled, fault | done⟩
      · cases fault <;> simp [writeContent, held, copied]
      · simp [writeContent, held, copied, eq_comm]

/-- Contents are written exactly if the first one is, unless it belongs to another package, and the
others are. -/
theorem writeContents_cons_eq_ok {contents : Path} {first : Parcel} {rest : List Parcel}
    {count : Nat} :
    writeContents d source contents (first :: rest) = (after, .ok count) ↔
      first.isReference = true ∧ writeContents d source contents rest = (after, .ok count) ∨
      first.isReference = false ∧ ∃ middle one more,
        writeContent d source contents first.label = (middle, .ok one) ∧
        writeContents middle source contents rest = (after, .ok more) ∧ one + more = count := by
  cases own : first.isReference with
  | true => simp [writeContents, own]
  | false =>
    rcases written : writeContent d source contents first.label with ⟨middle, failure | one⟩
    · simp [writeContents, own, written]
    rcases others : writeContents middle source contents rest with ⟨last, failure | more⟩
    · simp only [writeContents, own, written, others]
      constructor
      · intro done
        cases done
      · rintro (⟨reference, -⟩ | ⟨-, _, _, _, same, done, -⟩)
        · cases reference
        · cases same
          cases others.symm.trans done
    · simp only [writeContents, own, written, others]
      constructor
      · intro done
        cases done
        exact .inr ⟨trivial, middle, one, more, rfl, others, rfl⟩
      · rintro (⟨reference, -⟩ | ⟨-, _, _, _, same, done, rfl⟩)
        · cases reference
        · cases same
          cases others.symm.trans done
          rfl

/-- Staging succeeds exactly if the directories can be made, the contents can be written and the
invoice, which has to have a text, can be replaced. -/
theorem write_eq_ok :
    (write d source staging inv).1 = after ∧
        (write d source staging inv).2.outcome = .ok directory ↔
      directory = directoryOf staging inv.id ∧ inv.toValue.isShowable = true ∧
        ∃ made filled count, d.ensureDirectory (contentsOf staging inv.id) = (made, .ok ()) ∧
          writeContents made source (contentsOf staging inv.id) inv.parcels = (filled, .ok count) ∧
          filled.replaceFile (invoiceOf staging inv.id) (Yaml.dump inv.toValue).toUTF8 =
            (after, .ok ()) := by
  rcases ensured : d.ensureDirectory (contentsOf staging inv.id) with ⟨made, fault | done⟩
  · simp [write, ensured]
  rcases contents : writeContents made source (contentsOf staging inv.id) inv.parcels with
    ⟨filled, failure | count⟩
  · simp [write, ensured, contents]
  by_cases short : inv.toValue.isShowable = true
  · rcases Document.save_of_short (d := filled) (p := invoiceOf staging inv.id) short with
      ⟨disk, saved⟩
    have replaced : filled.replaceFile (invoiceOf staging inv.id) (Yaml.dump inv.toValue).toUTF8 =
          (after, .ok ()) ↔
        (filled.replaceFile (invoiceOf staging inv.id) (Yaml.dump inv.toValue).toUTF8).1 = after ∧
          (filled.replaceFile (invoiceOf staging inv.id) (Yaml.dump inv.toValue).toUTF8).2 =
            .ok () :=
      Prod.ext_iff
    simp only [write, ensured, contents, disk, Report.outcome_bind, Report.outcome_mapFailure,
      Outcome.bind_eq_ok, Outcome.mapError_eq_ok, saved]
    constructor
    · rintro ⟨disk, _, done, _, _, same⟩
      exact ⟨(Except.ok.inj same).symm, short, made, filled, count, rfl, contents,
        replaced.mpr ⟨disk, done⟩⟩
    · rintro ⟨same, _, _, _, _, ensured', contents', written⟩
      cases ensured'
      cases contents.symm.trans contents'
      rcases replaced.mp written with ⟨disk, done⟩
      exact ⟨disk, (), done, (), rfl, same ▸ rfl⟩
  · simp [write, ensured, contents, short, Document.save_of_long short]

/-! ## Contents that are there -/

/-- A content that was written, or not written because it was there, is there. -/
theorem stat_of_writeContent {contents : Path} {label : Label} {count : Nat}
    (proper : Disk.Proper contents.parts) (plain : '/' ∉ label.sha256.toList)
    (written : writeContent d source contents label = (after, .ok count)) :
    ∃ node, after.stat (contentFile contents label) = .ok node := by
  rcases writeContent_eq_ok.mp written with ⟨held, rfl, -⟩ | ⟨-, copied, -⟩
  · exact Disk.holds_eq_ok_true.mp held
  · rcases Disk.copyFile_eq_ok copied with ⟨bytes, place, -, clean, target, rfl⟩
    have named : Disk.EndsInName (contentFile contents label) :=
      .of_proper (proper_contentFile plain proper)
    have root : place ≠ [] := Disk.ne_nil_of_fileTarget target
    have nodes := Disk.node?_put d root (.file bytes)
    have there : (d.put place (.file bytes)).node? place = some (.file bytes) := by
      rw [nodes, if_pos rfl]
    refine ⟨.file bytes, Disk.stat_eq_ok.mpr ⟨clean, place, ?_, there⟩⟩
    refine Disk.locate_of_fileTarget target named rfl (fun q directory => ?_) (by simp [there])
    rw [nodes, if_neg, directory]
    rintro rfl
    exact Disk.not_directory_of_fileTarget target directory

theorem grown_writeContents (source : Path) {contents : Path} {parcels : List Parcel}
    (proper : Disk.Proper contents.parts)
    (plain : ∀ p ∈ parcels, p.isReference = false → '/' ∉ p.label.sha256.toList) :
    Disk.Grown (fun _ _ => True) d (writeContents d source contents parcels).1 :=
  (writeContents_copies proper rfl plain fun _ _ _ _ _ _ _ _ => trivial).1

theorem stat_of_writeContents {contents : Path} {parcels : List Parcel} {count : Nat}
    (proper : Disk.Proper contents.parts)
    (plain : ∀ p ∈ parcels, p.isReference = false → '/' ∉ p.label.sha256.toList)
    (written : writeContents d source contents parcels = (after, .ok count)) :
    ∀ p ∈ parcels, p.isReference = false →
      ∃ node, after.stat (contentFile contents p.label) = .ok node := by
  induction parcels generalizing d count with
  | nil => exact fun p mem => absurd mem List.not_mem_nil
  | cons first rest ih =>
    have plainLater : ∀ p ∈ rest, p.isReference = false → '/' ∉ p.label.sha256.toList :=
      fun p mem => plain p (List.mem_cons_of_mem _ mem)
    intro p mem own
    rcases writeContents_cons_eq_ok.mp written with
      ⟨reference, others⟩ | ⟨-, middle, one, more, here, others, -⟩
    · rcases List.mem_cons.mp mem with rfl | behind
      · rw [reference] at own
        cases own
      · exact ih plainLater others p behind own
    · rcases List.mem_cons.mp mem with rfl | behind
      · rcases stat_of_writeContent proper (plain p List.mem_cons_self own) here with ⟨node, found⟩
        have grown : Disk.Grown (fun _ _ => True) middle
            (writeContents middle source contents rest).1 :=
          grown_writeContents source proper plainLater
        rw [others] at grown
        exact ⟨node, grown.stat found⟩
      · exact ih plainLater others p behind own

/-- Contents that are there are not written. -/
theorem writeContents_of_held (source : Path) {contents : Path} {parcels : List Parcel}
    (held : ∀ p ∈ parcels, p.isReference = false →
      ∃ node, d.stat (contentFile contents p.label) = .ok node) :
    writeContents d source contents parcels = (d, .ok 0) := by
  induction parcels with
  | nil => rfl
  | cons first rest ih =>
    have later := ih fun p mem => held p (List.mem_cons_of_mem _ mem)
    rw [writeContents]
    split
    · exact later
    · rename_i own
      have there : d.holds (contentFile contents first.label) = .ok true :=
        Disk.holds_eq_ok_true.mpr (held first List.mem_cons_self (Bool.not_eq_true _ ▸ own))
      have skipped : writeContent d source contents first.label = (d, .ok 0) := by
        simp only [writeContent, there]
      simp only [skipped, later]

/-! ## Complete packages -/

/-- The directories, the contents and the invoice of a package are there, and a temporary file could
be made beside the invoice. -/
structure Complete (d : Disk) (staging : Path) (inv : Invoice) : Prop where
  showable : inv.toValue.isShowable = true
  directory : d.stat (directoryOf staging inv.id) = .ok .directory
  contents : d.stat (contentsOf staging inv.id) = .ok .directory
  held : ∀ p ∈ inv.parcels, p.isReference = false →
    ∃ node, d.stat (contentFile (contentsOf staging inv.id) p.label) = .ok node
  invoice : d.stat (invoiceOf staging inv.id) = .ok (.file (Yaml.dump inv.toValue).toUTF8)
  fits : d.fitsTemporary (directoryOf staging inv.id) = true

theorem placeOf_contentFile_contentsOf (d : Disk) (staging : Path) (id : PackageId) {label : Label}
    (plain : '/' ∉ label.sha256.toList) :
    d.placeOf (contentFile (contentsOf staging id) label) =
      contentPlace (d.placeOf staging) (Digest.ofText id.text) label.sha256 := by
  rw [placeOf_contentFile plain (placeOf_contentsOf d staging id), List.append_assoc, contentPlace,
    List.cons_append, List.cons_append, List.nil_append]

theorem parent_contentFile (contents : Path) {label : Label} (plain : '/' ∉ label.sha256.toList) :
    (contentFile contents label).parent = contents := by
  rw [contentFile_eq contents plain, Path.parent, List.dropLast_concat]

theorem parent_invoiceOf_eq (staging : Path) (id : PackageId) :
    (invoiceOf staging id).parent = directoryOf staging id := by
  rw [invoiceOf_eq, directoryOf_eq, Path.parent, List.dropLast_concat]

theorem parent_contentsOf_eq (staging : Path) (id : PackageId) :
    (contentsOf staging id).parent = directoryOf staging id := by
  rw [← parent_invoiceOf, parent_invoiceOf_eq]

theorem proper_directoryOf (proper : Disk.Proper staging.parts) (id : PackageId) :
    Disk.Proper (directoryOf staging id).parts := by
  rw [← parent_contentsOf_eq]
  exact (proper_contentsOf proper id).parent

/-- A package that was staged is complete. -/
theorem complete_of_write (proper : Disk.Proper staging.parts)
    (plain : ∀ p ∈ inv.parcels, p.isReference = false → '/' ∉ p.label.sha256.toList)
    (written : (write d source staging inv).2.outcome = .ok directory) :
    Complete (write d source staging inv).1 staging inv := by
  rcases write_eq_ok.mp ⟨rfl, written⟩ with
    ⟨-, showable, made, filled, count, ensured, contents, replaced⟩
  generalize (write d source staging inv).1 = after at replaced
  have properContents := proper_contentsOf proper inv.id
  have properInvoice := proper_invoiceOf proper inv.id
  have grown : Disk.Grown (fun _ _ => True) made
      (writeContents made source (contentsOf staging inv.id) inv.parcels).1 :=
    grown_writeContents source properContents plain
  rw [contents] at grown
  have ready : Disk.Grown (fun _ _ => True) filled
      (filled.ensureDirectory (invoiceOf staging inv.id).parent).1 :=
    (Disk.grown_ensureDirectory properInvoice.parent).mono fun _ _ _ => trivial
  have free := Disk.not_directory_of_replaceFile properInvoice replaced
  have above := Disk.stat_parent_of_replaceFile properInvoice replaced
  rcases Disk.replaceFile_eq_ok replaced with ⟨place, document⟩
  have here := document.place_eq properInvoice
  rw [← ready.placeOf, ← here] at free
  -- the invoice is at none of the other paths
  have keeps {p : Path} {node : Node} (proper : Disk.Proper p.parts)
      (apart : filled.placeOf p ≠ invoicePlace (filled.placeOf staging) (Digest.ofText inv.id.text))
      (found : (filled.ensureDirectory (invoiceOf staging inv.id).parent).1.stat p = .ok node) :
      after.stat p = .ok node := by
    refine document.stat_of_ne free proper ?_ found
    rw [here, ready.placeOf, ready.placeOf, placeOf_invoiceOf]
    exact apart
  have fits : after.fitsTemporary (directoryOf staging inv.id) = true := by
    rw [← parent_invoiceOf_eq, Disk.fitsTemporary_congr (document.here.trans ready.here)]
    exact Disk.fitsTemporary_of_replaceFile properInvoice replaced
  refine ⟨showable, ?_, ?_, fun p mem own => ?_, document.stat (.of_proper properInvoice), fits⟩
  · rw [parent_invoiceOf_eq] at above keeps
    refine keeps (proper_directoryOf proper inv.id) (fun same => ?_) above
    rw [placeOf_directoryOf, invoicePlace] at same
    exact absurd (List.append_cancel_left same) (by simp)
  · refine keeps properContents (fun same => ?_)
      (ready.stat (grown.stat (Disk.stat_of_ensureDirectory (.of_proper properContents) ensured)))
    rw [placeOf_contentsOf, invoicePlace] at same
    exact absurd (List.append_cancel_left same) (by simp)
  · rcases stat_of_writeContents properContents plain contents p mem own with ⟨node, found⟩
    refine ⟨node, keeps (proper_contentFile (plain p mem own) properContents) (fun same => ?_)
      (ready.stat found)⟩
    rw [placeOf_contentFile_contentsOf filled staging inv.id (plain p mem own)] at same
    exact contentPlace_ne_invoicePlace same

/-- Staging a complete package succeeds and changes nothing, wherever the contents would come
from. -/
theorem Complete.write (complete : Complete d staging inv) (proper : Disk.Proper staging.parts)
    (source : Path) :
    (Staging.write d source staging inv).2.outcome = .ok (directoryOf staging inv.id) ∧
      d.SameTree (Staging.write d source staging inv).1 := by
  have properInvoice := proper_invoiceOf proper inv.id
  have above : d.stat (invoiceOf staging inv.id).parent = .ok .directory := by
    rw [parent_invoiceOf_eq]
    exact complete.directory
  have fits : d.fitsTemporary (invoiceOf staging inv.id).parent = true := by
    rw [parent_invoiceOf_eq]
    exact complete.fits
  have last : (invoiceOf staging inv.id).parts.getLast? = some "invoice.yml" := by
    rw [invoiceOf_eq, List.getLast?_concat]
  obtain ⟨after, replaced⟩ := Disk.replaceFile_of_stat (Yaml.dump inv.toValue).toUTF8
    properInvoice last (by decide) above fits complete.invoice
  have ensured : d.ensureDirectory (contentsOf staging inv.id) = (d, .ok ()) :=
    Disk.ensureDirectory_of_stat (.of_proper (proper_contentsOf proper inv.id)) complete.contents
  have written := write_eq_ok.mpr ⟨rfl, complete.showable, d, d, 0, ensured,
    writeContents_of_held source complete.held, replaced⟩
  rcases Disk.replaceFile_eq_ok replaced with ⟨place, document⟩
  rw [Disk.ensureDirectory_of_stat (.of_proper properInvoice.parent) above] at document
  rw [written.1]
  refine ⟨written.2, ⟨document.here, fun q => ?_⟩⟩
  rw [document.node]
  split
  · rename_i same
    rcases Disk.stat_eq_ok.mp complete.invoice with ⟨-, held, located, there⟩
    rw [same, document.place_eq properInvoice, ← Disk.locate_eq_placeOf properInvoice located, there]
  · rfl

/-! ## Changes elsewhere -/

/-- Changes of a disk that leave what is inside of a staging directory and the directories on
the way there. -/
structure ChangedOutside (staging : Path) (d d' : Disk) : Prop where
  here : d'.here = d.here
  inside : ∀ q, Below (d.placeOf staging) q → d'.node? q = d.node? q
  way : ∀ q, d.OnTheWay staging q .directory → d.node? q = some .directory →
    d'.node? q = some .directory

/-- Files outside of the staging directory may be deleted, written, and created. -/
theorem ChangedOutside.of_files (here : d'.here = d.here)
    (files : ∀ q, d'.node? q = d.node? q ∨
      ¬ Below (d.placeOf staging) q ∧ d.node? q ≠ some .directory) :
    ChangedOutside staging d d' where
  here := here
  inside := fun q below => (files q).resolve_right fun other => other.1 below
  way := fun q _ held => by rw [(files q).resolve_right fun other => other.2 held, held]

theorem ChangedOutside.erase {place : Place} (named : place ≠ [])
    (outside : ¬ Below (d.placeOf staging) place) (file : d.node? place ≠ some .directory) :
    ChangedOutside staging d (d.erase place) := by
  refine .of_files rfl fun q => ?_
  rw [Disk.node?_erase d named]
  split
  · rename_i gone
    exact .inr (gone ▸ ⟨outside, file⟩)
  · exact .inl rfl

/-- A package stays complete when a disk changes elsewhere. -/
theorem Complete.changed (complete : Complete d staging inv) (proper : Disk.Proper staging.parts)
    (plain : ∀ p ∈ inv.parcels, p.isReference = false → '/' ∉ p.label.sha256.toList)
    (changed : ChangedOutside staging d d') : Complete d' staging inv := by
  have properDirectory := proper_directoryOf proper inv.id
  have directories : ∀ q ∈ d.placesTo (directoryOf staging inv.id), d'.node? q = d.node? q := by
    intro q mem
    rcases cases_of_onTheWay_directoryOf (Disk.mem_placesTo_iff_onTheWay.mp mem) with
      ⟨-, same⟩ | way
    · exact changed.inside q ⟨Digest.ofText inv.id.text, [], same⟩
    · have held := Disk.directory_of_stat properDirectory complete.directory mem
      rw [held, changed.way q way held]
  -- what is directly in the directory of the package, and in that of the contents
  have extend {p : Path} (parent : ∀ q ∈ d.placesTo p.parent, d'.node? q = d.node? q)
      (inside : Below (d.placeOf staging) (d.placeOf p)) :
      ∀ q ∈ d.placesTo p, d'.node? q = d.node? q := by
    intro q mem
    rcases Disk.cases_of_mem_placesTo mem with front | rfl
    · exact parent q front
    · exact changed.inside _ inside
  have contents : ∀ q ∈ d.placesTo (contentsOf staging inv.id), d'.node? q = d.node? q := by
    refine extend ((parent_contentsOf_eq staging inv.id).symm ▸ directories) ?_
    exact ⟨Digest.ofText inv.id.text, ["parcels"], placeOf_contentsOf d staging inv.id⟩
  have fits : d'.fitsTemporary (directoryOf staging inv.id) = true := by
    rw [Disk.fitsTemporary_congr changed.here]
    exact complete.fits
  refine ⟨complete.showable, ?_, ?_, fun p mem own => ?_, ?_, fits⟩
  · rw [Disk.stat_congr_on properDirectory changed.here directories]
    exact complete.directory
  · rw [Disk.stat_congr_on (proper_contentsOf proper inv.id) changed.here contents]
    exact complete.contents
  · have digest := plain p mem own
    have file : ∀ q ∈ d.placesTo (contentFile (contentsOf staging inv.id) p.label),
        d'.node? q = d.node? q := by
      refine extend ?_ ?_
      · rw [parent_contentFile _ digest]
        exact contents
      · rw [placeOf_contentFile_contentsOf d staging inv.id digest]
        exact below_contentPlace _ _ _
    rw [Disk.stat_congr_on (proper_contentFile digest (proper_contentsOf proper inv.id))
      changed.here file]
    exact complete.held p mem own
  · have invoice : ∀ q ∈ d.placesTo (invoiceOf staging inv.id), d'.node? q = d.node? q := by
      refine extend ((parent_invoiceOf_eq staging inv.id).symm ▸ directories) ?_
      rw [placeOf_invoiceOf]
      exact below_invoicePlace _ _
    rw [Disk.stat_congr_on (proper_invoiceOf proper inv.id) changed.here invoice]
    exact complete.invoice

end Staging
end Consignment
