import Consignment.Proofs.Expansion.Refusing
import Consignment.Proofs.Invoice.Showable
import Consignment.Proofs.Staging.Growing

namespace Consignment

open Outcome

/-!
# Which faults staging lets pass

A package is expanded and then staged, and what goes wrong on the way should be said in the words of
the packaging.  Copying a content and writing the invoice are watched: what the disk refuses there
becomes a failure of files.  Not watched is what stands around them.  The directories of the package
are made without any care for refusals, so that a plain file in the place of one of them is enough.
A content is asked for before it is copied, which a path that is too long does not allow.  A copy can
have an impossible path, which is no refusal of the disk.  And an invoice can hold a size of too many
digits to be written out.

`Gap` says when each of these comes up behind the steps that are done by then, and
`contract_expand_and_write` that nothing else is let pass.
-/

/-- A document with a possible path is saved unless the disk refuses it or an integer in it is too
long to be written out. -/
theorem Document.ends_save (d : Disk) {p : Path} (clean : p.hasNull = false) (v : Value) :
    Ends (fun _ => True)
      (fun failure => (∃ refusal, failure = .escaped (.disk refusal)) ∨
        failure = .escaped .longInteger ∧ v.isShowable = false) (save d p v).2.outcome := by
  unfold save textOf
  by_cases short : v.isShowable = true
  · rw [if_pos short]
    have replacing := Disk.ends_replaceFile d clean (Yaml.dump v).toUTF8
    dsimp only
    rcases replaced : d.replaceFile p (Yaml.dump v).toUTF8 with ⟨after, fault | done⟩
    · rw [replaced] at replacing
      cases fault with
      | disk refusal => exact .inl ⟨refusal, rfl⟩
      | _ => simp [Fault.isDisk] at replacing
    · trivial
  · rw [if_neg short]
    exact .inr ⟨rfl, Bool.not_eq_true _ ▸ short⟩

namespace Staging

variable {d : Disk} {source staging contents : Path} {inv : Invoice} {fault : Fault}

/-! ## Contents -/

/-- The faults that writing a content lets pass: its path is too long to be asked about, or it is not
there yet and the copy has an impossible path. -/
inductive ContentGap (d : Disk) (source contents : Path) (label : Label) : Fault → Prop
  | long (long : d.TooLong (contentFile contents label)) :
    ContentGap d source contents label
      (.disk ⟨.nameTooLong, (contentFile contents label).text, none⟩)
  | null (missing : d.holds (contentFile contents label) = .ok false)
      (null : ((source.join label.name).hasNull || (contentFile contents label).hasNull) = true) :
    ContentGap d source contents label .nullInPath

/-- How staging fails that lets some faults pass. -/
def Fails (gap : Fault → Prop) (failure : Failure) : Prop :=
  (∃ cause, failure = .files cause) ∨ ∃ fault, failure = .escaped fault ∧ gap fault

theorem ends_writeContent (d : Disk) (source contents : Path) (label : Label) :
    Ends (fun _ => True) (Fails (ContentGap d source contents label))
      (writeContent d source contents label).2 := by
  unfold writeContent
  dsimp only
  cases held : d.holds (contentFile contents label) with
  | error fault =>
    rcases Disk.probe_eq_error.mp held with ⟨long, rfl⟩
    exact .inr ⟨_, rfl, .long long⟩
  | ok there =>
    cases there with
    | true => trivial
    | false =>
      have copy := Disk.ends_copyFile d (source.join label.name) (contentFile contents label)
      rcases copied : d.copyFile (source.join label.name) (contentFile contents label) with
        ⟨after, fault | done⟩
      · rw [copied] at copy
        rcases copy with ⟨null, rfl⟩ | ⟨_, refused⟩
        · exact .inr ⟨_, rfl, .null held null⟩
        · cases fault with
          | disk refusal => exact .inl ⟨_, rfl⟩
          | _ => simp [Fault.isDisk] at refused
      · trivial

theorem writeContent_of_gap {label : Label} (gap : ContentGap d source contents label fault) :
    (writeContent d source contents label).2 = .error (.escaped fault) := by
  cases gap with
  | long long =>
    have unanswered : d.holds (contentFile contents label) =
        .error (.disk ⟨.nameTooLong, (contentFile contents label).text, none⟩) :=
      Disk.probe_eq_error.mpr ⟨long, rfl⟩
    simp only [writeContent, unanswered]
  | null missing null =>
    simp only [writeContent, missing, Disk.copyFile, null, if_true]

/-- The faults that writing contents lets pass: those of the first content that is not written. -/
inductive ContentsGap (source contents : Path) : Disk → List Parcel → Fault → Prop
  | here {d : Disk} {p : Parcel} {rest : List Parcel} {fault : Fault} (own : p.isReference = false)
      (gap : ContentGap d source contents p.label fault) :
    ContentsGap source contents d (p :: rest) fault
  | reference {d : Disk} {p : Parcel} {rest : List Parcel} {fault : Fault}
      (foreign : p.isReference = true) (later : ContentsGap source contents d rest fault) :
    ContentsGap source contents d (p :: rest) fault
  | written {d after : Disk} {p : Parcel} {rest : List Parcel} {count : Nat} {fault : Fault}
      (own : p.isReference = false)
      (written : writeContent d source contents p.label = (after, .ok count))
      (later : ContentsGap source contents after rest fault) :
    ContentsGap source contents d (p :: rest) fault

theorem ends_writeContents (d : Disk) (source contents : Path) (parcels : List Parcel) :
    Ends (fun _ => True) (Fails (ContentsGap source contents d parcels))
      (writeContents d source contents parcels).2 := by
  induction parcels generalizing d with
  | nil => trivial
  | cons p rest ih =>
    rw [writeContents]
    cases own : p.isReference with
    | true =>
      rw [if_pos rfl]
      refine (ih d).mono (fun _ => id) ?_
      rintro failure (refused | ⟨fault, rfl, gap⟩)
      · exact .inl refused
      · exact .inr ⟨fault, rfl, .reference own gap⟩
    | false =>
      rw [if_neg Bool.false_ne_true]
      have first := ends_writeContent d source contents p.label
      rcases written : writeContent d source contents p.label with ⟨after, failure | count⟩
      · rw [written] at first
        rcases first with refused | ⟨fault, rfl, gap⟩
        · exact .inl refused
        · exact .inr ⟨fault, rfl, .here own gap⟩
      · have others := ih after
        dsimp only
        rcases finished : writeContents after source contents rest with ⟨last, failure | more⟩
        · rw [finished] at others
          rcases others with refused | ⟨fault, rfl, gap⟩
          · exact .inl refused
          · exact .inr ⟨fault, rfl, .written own written gap⟩
        · trivial

theorem writeContents_of_gap {parcels : List Parcel}
    (gap : ContentsGap source contents d parcels fault) :
    (writeContents d source contents parcels).2 = .error (.escaped fault) := by
  induction gap with
  | @here d p rest fault own gap =>
    have failed := writeContent_of_gap gap
    rw [writeContents, if_neg (by simp [own])]
    rcases written : writeContent d source contents p.label with ⟨after, failure | count⟩
    · rw [written] at failed
      exact failed
    · rw [written] at failed
      cases failed
  | reference foreign _ ih => rwa [writeContents, if_pos foreign]
  | @written d after p rest count fault own written _ ih =>
    rw [writeContents, if_neg (by simp [own]), written]
    dsimp only
    rcases finished : writeContents after source contents rest with ⟨last, failure | more⟩
    · rw [finished] at ih
      exact ih
    · rw [finished] at ih
      cases ih

/-! ## The package -/

/-- The faults that staging an invoice lets pass.  The directory of the contents is not made; or a
content that is not written lets a fault pass; or all contents are there, and the invoice is not
written out because its description or a size has an integer of too many digits. -/
inductive Gap (d : Disk) (source staging : Path) (inv : Invoice) : Fault → Prop
  | directory {fault : Fault}
      (refused : (d.ensureDirectory (contentsOf staging inv.id)).2 = .error fault)
      (unmade : Disk.Unmade (contentsOf staging inv.id) fault) : Gap d source staging inv fault
  | content {made : Disk} {fault : Fault}
      (ensured : d.ensureDirectory (contentsOf staging inv.id) = (made, .ok ()))
      (gap : ContentsGap source (contentsOf staging inv.id) made inv.parcels fault) :
    Gap d source staging inv fault
  | invoice {made filled : Disk} {count : Nat}
      (ensured : d.ensureDirectory (contentsOf staging inv.id) = (made, .ok ()))
      (written : writeContents made source (contentsOf staging inv.id) inv.parcels =
        (filled, .ok count))
      (long : inv.description.isShowable = false ∨
        ∃ p ∈ inv.parcels, (Value.int p.label.size).isShowable = false) :
    Gap d source staging inv .longInteger

/-- Where the directory of the contents can be made, the path of the invoice is possible. -/
theorem clean_invoiceOf (id : PackageId) (clean : (contentsOf staging id).hasNull = false) :
    (invoiceOf staging id).hasNull = false := by
  have name : ["invoice.yml"].any (·.toList.contains '\x00') = false := by decide
  rw [contentsOf_eq] at clean
  rw [invoiceOf_eq]
  simp only [Path.hasNull, List.any_append, Bool.or_eq_false_iff] at clean ⊢
  exact ⟨clean.1, name⟩

theorem long_iff : inv.toValue.isShowable = false ↔ inv.description.isShowable = false ∨
    ∃ p ∈ inv.parcels, (Value.int p.label.size).isShowable = false := by
  rw [← Bool.not_eq_true, Invoice.isShowable_toValue, not_and_or]
  simp only [not_forall, Bool.not_eq_true, exists_prop]

theorem ends_write {outcome : Except Failure Path}
    (run : (write d source staging inv).2.outcome = outcome) :
    Ends (fun directory => directory = directoryOf staging inv.id) (Fails (Gap d source staging inv))
      outcome := by
  subst run
  unfold write
  dsimp only
  -- the path is a digest, which nothing here should compute
  generalize place : contentsOf staging inv.id = contents
  have directories := Disk.ends_ensureDirectory d contents
  rcases ensured : d.ensureDirectory contents with ⟨made, fault | done⟩
  · rw [ensured] at directories
    exact .inr ⟨fault, rfl, .directory (by rw [place, ensured]) (place ▸ directories)⟩
  rw [ensured] at directories
  have writing := ends_writeContents made source contents inv.parcels
  dsimp only
  rcases written : writeContents made source contents inv.parcels with ⟨filled, failure | count⟩
  · rw [written] at writing
    rcases writing with refused | ⟨fault, rfl, gap⟩
    · exact .inl refused
    · exact .inr ⟨fault, rfl, .content (place ▸ ensured) (place ▸ gap)⟩
  have clean := clean_invoiceOf inv.id (place ▸ directories)
  generalize invoiceOf staging inv.id = document at clean
  generalize directoryOf staging inv.id = directory
  simp only [Report.outcome_bind, Report.outcome_mapFailure, Report.outcome_note,
    Report.outcome_pure, ok_bind]
  refine Ends.bind_any (ends_mapError.mpr ?_) fun _ => rfl
  refine (Document.ends_save filled clean inv.toValue).mono (fun _ => id) ?_
  rintro failure (⟨refusal, rfl⟩ | ⟨rfl, long⟩)
  · exact .inl ⟨_, rfl⟩
  · exact .inr ⟨_, rfl, .invoice (place ▸ ensured) (place ▸ written) (long_iff.mp long)⟩

theorem write_of_gap (gap : Gap d source staging inv fault) :
    (write d source staging inv).2.outcome = .error (.escaped fault) := by
  unfold write
  dsimp only
  cases gap with
  | directory refused _ =>
    generalize contentsOf staging inv.id = contents at refused
    rcases ensured : d.ensureDirectory contents with ⟨made, fault | done⟩
    · rw [ensured] at refused
      cases refused
      rfl
    · rw [ensured] at refused
      cases refused
  | @content made _ ensured gap =>
    generalize contentsOf staging inv.id = contents at ensured gap
    have failed := writeContents_of_gap gap
    rw [ensured]
    dsimp only
    rcases written : writeContents made source contents inv.parcels with ⟨filled, failure | count⟩
    · rw [written] at failed
      cases failed
      rfl
    · rw [written] at failed
      cases failed
  | invoice ensured written long =>
    generalize contentsOf staging inv.id = contents at ensured written
    generalize invoiceOf staging inv.id = document
    generalize directoryOf staging inv.id = directory
    have unshown : ¬ inv.toValue.isShowable = true := by
      rw [long_iff.mpr long]
      exact Bool.false_ne_true
    rw [ensured]
    dsimp only
    rw [written]
    dsimp only
    rw [Document.save_of_long unshown]
    rfl

/-! ## Expansion and staging -/

/-- The failures that expanding a manifest and staging its invoice should have. -/
inductive Expected : Failure → Prop
  | files (cause : FileFault) : Expected (.files cause)
  | nameClash (names : List String) : Expected (.nameClash names)
  | invoiceMissing (entry : String) (id : PackageId) : Expected (.invoiceMissing entry id)
  | handlerMissing (importing : Option String) (id : PackageId) (handlerId : String)
      (available : List String) : Expected (.handlerMissing importing id handlerId available)

theorem contract_write (d : Disk) (source staging : Path) (inv : Invoice) :
    ExactContract (fun directory => directory = directoryOf staging inv.id) Expected
      (Gap d source staging inv) (write d source staging inv).2.outcome := by
  generalize run : (write d source staging inv).2.outcome = outcome
  have proper : ∀ failure, Fails (Gap d source staging inv) failure →
      Expected failure ∨ ∃ fault, failure = .escaped fault ∧ Gap d source staging inv fault := by
    rintro failure (⟨cause, rfl⟩ | passed)
    · exact .inl (.files cause)
    · exact .inr passed
  refine .of_ends ((ends_write run).mono (fun _ => id) proper) (fun fault gap => ?_)
    (by rintro _ ⟨⟩)
  rw [← run, write_of_gap gap]

theorem contract_expand (c : ExpansionContext) (manifest : Manifest) :
    ExactContract (fun _ => True) Expected (c.Gap manifest) (c.expand manifest).outcome where
  result _ _ := trivial
  gap _ := ExpansionContext.expand_eq_escaped
  failure failure failed := by
    rcases ExpansionContext.cases_of_expand failed with isLocal | ⟨names, rfl⟩ |
      ⟨e, _, ref, _, unsourced⟩
    · cases failure with
      | files cause => exact .inl (.files cause)
      | escaped fault => exact .inr ⟨fault, rfl⟩
      | _ => exact isLocal.elim
    · exact .inl (.nameClash names)
    · rcases ExpansionContext.externalSource_eq_error.mp unsourced with ⟨_, rfl⟩ | ⟨_, _, _, rfl⟩
      · exact .inl (.invoiceMissing _ _)
      · exact .inl (.handlerMissing _ _ _ _)

/-- Expanding a manifest and staging its invoice gives the directory of the package, or fails in the
words of the packaging.  Both let some faults of the layers below pass, and these are exactly the
faults of the two gaps.  The texts of a manifest and of an invoice are made of characters, so that
they can always be encoded; halves of surrogate pairs, for which there is no encoding, are not
spoken of. -/
theorem contract_expand_and_write (c : ExpansionContext) (manifest : Manifest) (d : Disk)
    (source staging : Path) :
    ExactContract
      (fun directory => ∃ inv, (c.expand manifest).outcome = .ok inv ∧
        directory = directoryOf staging inv.id)
      Expected
      (fun fault => c.Gap manifest fault ∨ ∃ inv, (c.expand manifest).outcome = .ok inv ∧
        Gap d source staging inv fault)
      (do
        let inv ← (c.expand manifest).outcome
        (write d source staging inv).2.outcome) :=
  (contract_expand c manifest).bind fun inv _ => contract_write d source staging inv

/-! ## An occupied staging directory -/

/-- An application with one module. -/
def harbour : Manifest where
  packageName := "harbour"
  packageVersion := "1"
  entries := [⟨.handler "m" "/", none, .always⟩]

/-- The module on a disk where a plain file has the name of the staging directory. -/
def harbourContext : ExpansionContext where
  base := ⟨.root, ["app"]⟩
  disk := { nodes := [(["app"], .directory), (["app", "m"], .file ⟨#[1, 2]⟩),
    (["out"], .file ⟨#[3]⟩)] }
  versioning := .production
  stamp := ⟨⟨⟨2024, 1, 2⟩, 3, 4, 5, 6, none⟩, none⟩

/-- The refusal to make a directory below the file is let pass. -/
theorem write_occupied :
    ∃ inv fault, (harbourContext.expand harbour).outcome = .ok inv ∧
      (write harbourContext.disk harbourContext.base (.ofText "/out") inv).2.outcome =
        .error (.escaped fault) := by
  have evaluated : ((harbourContext.expand harbour).outcome.map fun inv =>
      (harbourContext.disk.ensureDirectory
        (contentsOf (.ofText "/out") inv.id)).2.toOption.isNone).toOption = some true := by
    decide +kernel
  rcases exists_of_toOption evaluated with ⟨inv, expanded, refused⟩
  cases made : (harbourContext.disk.ensureDirectory (contentsOf (.ofText "/out") inv.id)).2 with
  | ok done =>
    rw [made] at refused
    cases refused
  | error fault =>
    have unmade := (Disk.ends_ensureDirectory _ _).of_error made
    exact ⟨inv, fault, expanded, write_of_gap (.directory made unmade)⟩

end Staging
end Consignment
