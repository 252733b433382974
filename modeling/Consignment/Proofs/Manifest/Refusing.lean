import Consignment.Manifest.Load
import Consignment.Proofs.Value.Showable
import Consignment.Proofs.Yaml.Values

namespace Consignment

open Outcome

/-!
# Which manifests are refused

Reading a manifest gives one or says what is wrong with it, whatever the text.  This is so for
everything that the checks of a manifest look at, and for every file that cannot be read; but the
text is loaded first, and of the faults of loading only one is taken for a fault of the manifest:
that the document is malformed.  All others are let pass.

`Gap` says which these are.  The text holds a version or an escape that is out of range, or there
is a node in it that refuses its own text: a date that does not exist, a number without digits, a
word that is no truth value although its tag says so.  Nothing else is let pass but one fault of
the checks themselves: the message for fields that are not known writes out their names, and an
integer among these can be too long for that.
-/

namespace Document

/-- What cannot be read is refused by the disk, or is no text, or too large. -/
theorem ends_textAt_anywhere (d : Disk) (p : Path) :
    Ends (fun _ => True) (fun fault => (fault.isDisk || fault.isValue) = true) (textAt d p) := by
  have refused {α : Type} (refusal : Refusal) : Ends (fun _ => True)
      (fun fault => (fault.isDisk || fault.isValue) = true) (Disk.refuse refusal p : Except Fault α) :=
    rfl
  have stated : Ends (fun _ => True) (fun fault => (fault.isDisk || fault.isValue) = true)
      (d.stat p) := by
    unfold Disk.stat
    refine .ite rfl ?_
    split
    · exact refused _
    · split
      · exact refused _
      · trivial
  unfold textAt
  refine stated.bind_any fun node => ?_
  split
  · refine .ite rfl ?_
    split
    · trivial
    · rfl
  · exact refused _

end Document

namespace Manifest

/-- The failures that say what is wrong with a manifest. -/
inductive AboutManifest : Failure → Prop
  | refused (source : String) (cause : ManifestFault) : AboutManifest (.manifest source cause)
  | unreadable (cause : ManifestFileFault) : AboutManifest (.manifestFile cause)
  | noEntries (source : String) : AboutManifest (.noEntries source)
  | condition (fault : Condition.SyntaxFault) : AboutManifest (.condition fault)

/-! ## Names of fields -/

/-- The tables of a document that have their fields checked. -/
inductive Checked (whole : Table) : Table → Prop
  | whole : Checked whole whole
  | package {table : Table} (held : Value.entryOrNull "package" whole = .map table) :
    Checked whole table
  | entry {field : String} {found : List Table} {table : Table}
      (held : tables field whole = .ok found) (mem : table ∈ found) : Checked whole table
  | external {table reference : Table} (entry : Checked whole table)
      (held : Value.entryOrNull "external" table = .map reference) : Checked whole reference

/-- A document in which the name of a field is an integer too long to be written out. -/
def LongField (v : Value) : Prop :=
  ∃ whole table, v = .map whole ∧ Checked whole table ∧ ∃ entry ∈ table, entry.1.isShowable = false

/-- A fault that shows no other values than some. -/
def Shows (shown : List Value) (cause : ManifestFault) : Prop :=
  cause.values ⊆ shown

theorem Shows.of_nil {shown : List Value} {cause : ManifestFault} (shows : Shows [] cause) :
    Shows shown cause :=
  fun _ mem => absurd (shows mem) List.not_mem_nil

/-- How reading a document fails as a manifest: with a failure that says what is wrong with it,
unless the message would show an integer that is too long. -/
def Fails (v : Value) (failure : Failure) : Prop :=
  AboutManifest failure ∨ failure = .escaped .longInteger ∧ LongField v

variable {α : Type} {field label source : String} {table whole : Table}

theorem ends_checkFields (allowed : List String) :
    Ends (fun _ => True) (Shows (table.map Prod.fst)) (checkFields allowed label table) := by
  unfold checkFields
  split
  · trivial
  · rename_i unknown differs
    exact List.filter_sublist.subset

theorem ends_optionalText : Ends (fun _ => True) (Shows []) (optionalText field label table) := by
  unfold optionalText
  split
  · trivial
  · trivial
  · exact List.nil_subset _

theorem ends_requiredText : Ends (fun _ => True) (Shows []) (requiredText field label table) := by
  unfold requiredText
  split
  · exact List.nil_subset _
  · refine ends_optionalText.bind_any fun text => ?_
    split
    · exact List.nil_subset _
    · exact .ite (List.nil_subset _) trivial

theorem ends_optionalTexts : Ends (fun _ => True) (Shows []) (optionalTexts field label table) := by
  unfold optionalTexts
  split
  · trivial
  · split
    · trivial
    · exact List.nil_subset _
  · exact List.nil_subset _

theorem ends_optionalTextMap : Ends (fun _ => True) (Shows []) (optionalTextMap field table) := by
  unfold optionalTextMap
  split
  · trivial
  · split
    · trivial
    · exact List.nil_subset _
  · exact List.nil_subset _

theorem ends_tables : Ends (fun _ => True) (Shows []) (tables field table) := by
  unfold tables
  split
  · trivial
  · split
    · trivial
    · exact List.nil_subset _
  · exact List.nil_subset _

/-! ## Entries -/

/-- A fault that shows names of fields is told with its source, or one of the names is too long
for that. -/
theorem ends_atSource {checked : Except ManifestFault α} (place : Checked whole table)
    (ends : Ends (fun _ => True) (Shows (table.map Prod.fst)) checked) :
    Ends (fun _ => True) (Fails (.map whole)) (atSource source checked) := by
  refine ends_mapError.mpr (ends.mono (fun _ => id) fun cause shows => ?_)
  unfold ManifestFault.failure
  split
  · exact .inl (.refused source cause)
  · rename_i long
    simp only [List.all_eq_true, not_forall, Bool.not_eq_true] at long
    rcases long with ⟨name, mem, long⟩
    rcases List.mem_map.mp (shows mem) with ⟨entry, held, rfl⟩
    exact .inr ⟨rfl, whole, table, rfl, place, entry, held, long⟩

/-- A fault that shows nothing is told with its source. -/
theorem ends_atSource_quiet {checked : Except ManifestFault α}
    (ends : Ends (fun _ => True) (Shows []) checked) :
    Ends (fun _ => True) (Fails (.map whole)) (atSource source checked) :=
  ends_atSource .whole (ends.mono (fun _ => id) fun _ => Shows.of_nil)

theorem ends_conditionOf :
    Ends (fun _ => True) (Fails (.map whole)) (conditionOf source label table) := by
  unfold conditionOf
  refine (ends_atSource_quiet ends_optionalText).bind_any fun text => ?_
  exact .mapError_any fun fault => .inl (.condition _)

/-- The reference of a handler shows names of its own fields only. -/
theorem ends_externalOf (place : Checked whole table) :
    Ends (fun _ => True) (Fails (.map whole))
      (atSource source (externalOf label (Value.entryOrNull "external" table))) := by
  unfold externalOf
  split
  · rename_i reference held
    refine ends_atSource (.external place held) ?_
    have quiet {checked : Except ManifestFault String}
        (ends : Ends (fun _ => True) (Shows []) checked) :
        Ends (fun _ => True) (Shows (reference.map Prod.fst)) checked :=
      ends.mono (fun _ => id) fun _ => Shows.of_nil
    refine (ends_checkFields _).bind_any fun _ => ?_
    refine (quiet ends_requiredText).bind_any fun text => ?_
    split
    · exact List.nil_subset _
    · exact (quiet ends_requiredText).bind_any fun id => trivial
  · exact ends_atSource_quiet (List.nil_subset _)

theorem ends_handlerOf (place : Checked whole table) :
    Ends (fun _ => True) (Fails (.map whole)) (handlerOf source table) := by
  unfold handlerOf
  refine (ends_atSource_quiet ends_requiredText).bind_any fun route => ?_
  refine (ends_atSource place (ends_checkFields _)).bind_any fun _ => ?_
  split
  · exact .inl (.refused _ _)
  · refine ends_conditionOf.bind_any fun condition => ?_
    refine (ends_atSource_quiet ends_optionalTexts).bind_any fun files => ?_
    exact (ends_externalOf place).bind_any fun ref => trivial
  · refine ends_conditionOf.bind_any fun condition => ?_
    refine (ends_atSource_quiet ends_optionalTexts).bind_any fun files => ?_
    exact (ends_atSource_quiet ends_requiredText).bind_any fun name => trivial
  · exact .inl (.refused _ _)

theorem ends_exportOf (place : Checked whole table) :
    Ends (fun _ => True) (Fails (.map whole)) (exportOf source table) := by
  unfold exportOf
  refine (ends_atSource place (ends_checkFields _)).bind_any fun _ => ?_
  refine (ends_atSource_quiet ends_requiredText).bind_any fun name => ?_
  refine (ends_atSource_quiet ends_requiredText).bind_any fun id => ?_
  refine (ends_atSource_quiet ends_optionalTexts).bind_any fun files => ?_
  exact ends_conditionOf.bind_any fun condition => trivial

/-! ## The whole manifest -/

/-- The entries of one kind, each read from its table. -/
theorem ends_each {found : List Table} {read : Table → Except Failure Entry}
    (held : atSource source (tables field whole) = .ok found)
    (each : ∀ {table}, Checked whole table → Ends (fun _ => True) (Fails (.map whole)) (read table)) :
    Ends (fun _ => True) (Fails (.map whole)) (found.mapM read) :=
  .mapM_any fun _ mem => each (.entry (mapError_eq_ok.mp held) mem)

theorem ends_ofValue (source : String) (v : Value) :
    Ends (fun _ => True) (Fails v) (ofValue source v) := by
  unfold ofValue
  split
  case h_2 => exact .inl (.refused _ _)
  rename_i whole
  refine (ends_atSource .whole (ends_checkFields _)).bind_any fun _ => ?_
  split
  case h_2 => exact .inl (.refused _ _)
  rename_i package held
  have place : Checked whole package := .package held
  rw [pure_bind]
  refine (ends_atSource place (ends_checkFields _)).bind_any fun _ => ?_
  refine (ends_atSource_quiet ends_optionalTexts).bind_any fun authors => ?_
  refine (ends_atSource_quiet ends_tables).known.bind fun found held => ?_
  refine (ends_each held.1 ends_handlerOf).bind_any fun handlers => ?_
  refine (ends_atSource_quiet ends_tables).known.bind fun found held => ?_
  refine (ends_each held.1 ends_exportOf).bind_any fun exports => ?_
  refine .ite (.inl (.noEntries source)) ?_
  refine (ends_atSource_quiet ends_requiredText).bind_any fun name => ?_
  refine (ends_atSource_quiet ends_requiredText).bind_any fun version => ?_
  refine (ends_atSource_quiet ends_optionalText).bind_any fun description => ?_
  exact (ends_atSource_quiet ends_optionalTextMap).bind_any fun annotations => trivial

/-! ## Texts and files -/

/-- The faults that loading a text has besides that the document is malformed.  The text cannot be
divided, or loading it comes upon a node that refuses its own text as those of its tag can. -/
inductive Gap (text : List Char) : Fault → Prop
  | indivisible {fault : Fault} (failed : Yaml.nodeOfText text = .error fault)
      (indivisible : Yaml.Indivisible fault) (other : fault ≠ .malformedDocument) : Gap text fault
  | node {root node : Yaml.Node} {fault : Fault} (read : Yaml.nodeOfText text = .ok (some root))
      (holds : root.Holds node) (refused : Yaml.singleValue node = .error fault)
      (asTag : Yaml.RefusedAs (Yaml.nodeTag node) fault)
      (reached : Yaml.load text = .error fault) : Gap text fault

variable {text : List Char} {fault : Fault}

theorem ne_of_gap (gap : Gap text fault) : fault ≠ .malformedDocument ∧ fault ≠ .longInteger := by
  cases gap with
  | indivisible _ indivisible other => exact ⟨other, by cases indivisible <;> simp⟩
  | @node _ node _ _ _ _ asTag _ =>
    generalize Yaml.nodeTag node = tag at asTag
    cases asTag <;> simp

theorem gap_iff : Gap text fault ↔ Yaml.load text = .error fault ∧ fault ≠ .malformedDocument := by
  constructor
  · intro gap
    refine ⟨?_, (ne_of_gap gap).1⟩
    cases gap with
    | indivisible failed => simp [Yaml.load, failed]
    | node _ _ _ _ reached => exact reached
  · rintro ⟨loads, other⟩
    cases (Yaml.ends_load text).of_error loads with
    | indivisible failed indivisible => exact .indivisible failed indivisible other
    | blamed read blamed =>
      rcases blamed with rfl | ⟨node, holds, refused, asTag⟩
      · exact absurd rfl other
      · exact .node read holds refused asTag loads

/-- The outcome of reading a text is that of loading it, if need be as a failure. -/
theorem outcome_ofText (source : String) (text : List Char) :
    (ofText source text).outcome =
      match Yaml.load text with
      | .ok v => ofValue source v
      | .error .malformedDocument => .error (.manifest source (.malformed .malformedDocument))
      | .error fault => .error (.escaped fault) := by
  unfold ofText
  cases Yaml.load text with
  | ok v =>
    simp only [decode, Report.outcome_bind, Report.outcome_ofOutcome, Report.outcome_note, ok_bind,
      Report.outcome_pure]
    cases ofValue source v <;> rfl
  | error fault => cases fault <;> rfl

theorem ofText_of_gap (gap : Gap text fault) (source : String) :
    (ofText source text).outcome = .error (.escaped fault) := by
  rcases gap_iff.mp gap with ⟨loads, other⟩
  rw [outcome_ofText, loads]
  split
  · rename_i same
    cases same
  · rename_i same
    cases same
    exact absurd rfl other
  · rename_i same
    cases same
    rfl

/-- A text with a field whose name is an integer too long to be written out. -/
def TextLongField (text : List Char) : Prop :=
  ∃ v, Yaml.load text = .ok v ∧ LongField v

theorem ends_ofText (source : String) (text : List Char) :
    Ends (fun m => ∃ v, Yaml.load text = .ok v ∧ ofValue source v = .ok m)
      (fun failure => AboutManifest failure ∨ ∃ fault, failure = .escaped fault ∧
        (Gap text fault ∨ fault = .longInteger ∧ TextLongField text))
      (ofText source text).outcome := by
  rw [outcome_ofText]
  split
  · rename_i v loads
    refine (ends_ofValue source v).known.mono (fun m read => ⟨v, loads, read.1⟩) ?_
    rintro failure (about | ⟨rfl, long⟩)
    · exact .inl about
    · exact .inr ⟨_, rfl, .inr ⟨rfl, v, loads, long⟩⟩
  · exact .inl (.refused _ _)
  · rename_i fault other loads
    exact .inr ⟨fault, rfl, .inl (gap_iff.mpr ⟨loads, fun same => other (same ▸ rfl)⟩)⟩

/-- What loading the manifest of a file is: reading its text, or saying why there is none. -/
theorem outcome_load (d : Disk) (p : Path) :
    (load d p).outcome =
      match Document.textAt d p with
      | .ok text => (ofText p.text text).outcome
      | .error fault => .error (.manifestFile (.unreadable p.text fault)) := by
  unfold load
  cases had : Document.textAt d p with
  | ok text => rfl
  | error fault =>
    have refused := (Document.ends_textAt_anywhere d p).of_error had
    simp only [refused, if_true, Report.outcome_fail]

/-- Reading the text of a manifest, or the file of one, gives the manifest that the document is
read as, or says what is wrong with it.  Both let some faults of the layers below pass, and these
are exactly the faults of the gap and that of an integer too long to be written out, which only
the name of a field can be.  An escape for half of a surrogate pair is read as the replacement
character and is no fault. -/
theorem contract_ofText_and_load (source : String) (text : List Char) (d : Disk) (p : Path) :
    Contract (fun m => ∃ v, Yaml.load text = .ok v ∧ ofValue source v = .ok m) AboutManifest
      (Gap text) (TextLongField text) (ofText source text).outcome ∧
    Contract
      (fun m => ∃ text v, Document.textAt d p = .ok text ∧ Yaml.load text = .ok v ∧
        ofValue p.text v = .ok m)
      AboutManifest (fun fault => ∃ text, Document.textAt d p = .ok text ∧ Gap text fault)
      (∃ text, Document.textAt d p = .ok text ∧ TextLongField text) (load d p).outcome := by
  have improper (fault : Fault) : ¬ AboutManifest (.escaped fault) := by
    rintro ⟨⟩
  constructor
  · exact .of_ends (ends_ofText source text) (fun _ gap => ofText_of_gap gap source) improper
      fun gap => (ne_of_gap gap).2 rfl
  · rw [outcome_load]
    cases had : Document.textAt d p with
    | error fault =>
      refine .of_ends (.inl (.unreadable _)) ?_ improper ?_
      · rintro fault ⟨text, had, _⟩
        cases had
      · rintro ⟨text, had, _⟩
        cases had
    | ok text =>
      refine .of_ends ((ends_ofText p.text text).mono ?_ ?_) ?_ improper ?_
      · rintro m ⟨v, loads, read⟩
        exact ⟨text, v, rfl, loads, read⟩
      · rintro failure (about | ⟨fault, rfl, gap | ⟨isLong, long⟩⟩)
        · exact .inl about
        · exact .inr ⟨fault, rfl, .inl ⟨text, rfl, gap⟩⟩
        · exact .inr ⟨fault, rfl, .inr ⟨isLong, text, rfl, long⟩⟩
      · rintro fault ⟨_, same, gap⟩
        cases same
        exact ofText_of_gap gap p.text
      · rintro ⟨_, same, gap⟩
        cases same
        exact (ne_of_gap gap).2 rfl

/-- A version that has the form of a date and is none: the text is neither read as a manifest nor
refused as one. -/
theorem ofText_impossibleDate :
    (ofText "" "package: \x7bname: a, version: 2024-13-01\x7d".toList).outcome =
      .error (.escaped (.calendar .month)) := by
  have loads : Yaml.load "package: \x7bname: a, version: 2024-13-01\x7d".toList =
      .error (.calendar .month) :=
    eq_error_of_failsWith (by decide +kernel)
  rw [outcome_ofText, loads]

end Manifest
end Consignment
