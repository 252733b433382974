import Consignment.Proofs.Disk.Asking
import Consignment.Proofs.Disk.Changing
import Consignment.Proofs.Invoice.Refusing
import Consignment.Proofs.Json.Showable
import Consignment.Proofs.Yaml.Values
import Consignment.Source

namespace Consignment

open Outcome

/-!
# What a source answers when a document is wrong

A source gives the invoice that it is asked for, or a failure to fetch it.  Bytes that come from
a server and files of a staging directory can be anything, so this is a statement about every
answer and every disk.

It is true but for some faults.  They are kept apart by where they come from: the path is asked
about before any fault is expected, six faults of a document are not foreseen, and what the
decoder of invoices lets pass nobody stops.  `Gap` says when each of them comes up, without
asking the source.

What a server sends is text in JSON, and no value of such a text holds an integer that is too
long to be shown.  So of the faults of long integers only that of reading one is left there.
-/

/-! ## Reading the file -/

namespace Document

variable {d : Disk} {p : Path} {bytes : ByteArray}

/-- The faults of a document that are not foreseen: a number without digits or of too many parts,
a text that is no truth value or no point in time although its tag says so, a mapping in the
place of such a point, and an escape far beyond the last character. -/
inductive Unforeseen : Fault → Prop
  | emptyNumber : Unforeseen .emptyNumber
  | integerAsFloat : Unforeseen .integerAsFloat
  | truthValue (text : String) : Unforeseen (.truthValue text)
  | timestamp : Unforeseen .timestamp
  | kindAsText : Unforeseen (.kindAsText "list")
  | character {code : Nat} (beyond : 0x80000000 ≤ code) : Unforeseen (.character code)

theorem isUnreadable_of_unforeseen {fault : Fault} (unforeseen : Unforeseen fault) :
    isUnreadable fault = false := by
  cases unforeseen with
  | emptyNumber | integerAsFloat | truthValue | timestamp | kindAsText => rfl
  | character beyond => simp [isUnreadable, Fault.isDisk, Fault.isValue, Nat.not_lt.mpr beyond]

/-- Every fault of a text without a value is foreseen but for these. -/
theorem isUnreadable_or_unforeseen {text : List Char} {fault : Fault}
    (unloadable : Yaml.Unloadable text fault) : isUnreadable fault = true ∨ Unforeseen fault := by
  cases unloadable with
  | indivisible _ indivisible =>
    cases indivisible with
    | malformed | version => exact .inl rfl
    | @character code beyond =>
      by_cases far : code < 0x80000000
      · exact .inl (by simp [isUnreadable, Fault.isDisk, Fault.isValue, far])
      · exact .inr (.character (Nat.not_lt.mp far))
  | blamed _ blamed =>
    rcases blamed with rfl | ⟨node, _, _, refused⟩
    · exact .inl rfl
    · generalize Yaml.nodeTag node = tag at refused
      cases refused with
      | integer | decimal | calendar => exact .inl rfl
      | emptyInteger | emptyDecimal => exact .inr .emptyNumber
      | integerAsFloat => exact .inr .integerAsFloat
      | truthValue text => exact .inr (.truthValue text)
      | timestamp => exact .inr .timestamp
      | kindAsText => exact .inr .kindAsText

/-- A file that is no text, or too large, is foreseen. -/
theorem ends_textAt (found : d.stat p = .ok (.file bytes)) :
    Ends (fun _ => True) (fun fault => isUnreadable fault = true) (textAt d p) := by
  unfold textAt
  rw [found, ok_bind]
  refine .ite rfl ?_
  split
  · trivial
  · rfl

/-- The entries of a file are those of the mapping that its text is. -/
theorem outcome_entriesAt (found : d.stat p = .ok (.file bytes)) :
    (entriesAt d p).outcome =
      match textAt d p with
      | .error fault => .error (.escaped fault)
      | .ok text =>
        match Yaml.load text with
        | .error fault => .error (.escaped fault)
        | .ok (.map entries) => .ok entries
        | .ok _ => .ok [] := by
  have held : d.holds p = .ok true := Disk.holds_eq_ok_true.mpr ⟨_, found⟩
  unfold entriesAt valueAt
  simp only [Report.outcome_bind, Report.outcome_ofOutcome, held, mapError_ok, ok_bind, if_true]
  cases textAt d p with
  | error fault => rfl
  | ok text =>
    dsimp only
    cases Yaml.load text with
    | error fault => cases fault <;> rfl
    | ok v => cases v <;> rfl

end Document

/-! ## Asking a source -/

namespace Source

variable {network : String → Answer} {d : Disk} {id : PackageId}

/-- How asking for an invoice fails that can let some faults pass. -/
def Fails (gap : Fault → Prop) (long : Prop) (failure : Failure) : Prop :=
  (∃ cause, failure = .fetch cause) ∨
    ∃ fault, failure = .escaped fault ∧ (gap fault ∨ fault = .longInteger ∧ long)

theorem ends_invoiceOfValue (id : PackageId) (v : Value) :
    Ends (fun inv => inv.id = id) (Fails (Invoice.Gap v) (v.isShowable = false))
      (invoiceOfValue id v) := by
  unfold invoiceOfValue
  refine Ends.bind_any (ends_mapError.mpr ((Invoice.ends_ofValue v).mono (fun _ => fun h => h) ?_))
    fun inv => ?_
  · rintro failure ((⟨cause, rfl⟩ | ⟨rfl, long⟩) | ⟨fault, rfl, gap⟩)
    · exact .inl ⟨_, rfl⟩
    · exact .inr ⟨_, rfl, .inr ⟨rfl, long⟩⟩
    · exact .inr ⟨_, rfl, .inl gap⟩
  · split
    · assumption
    · exact .inl ⟨_, rfl⟩

theorem invoiceOfValue_of_gap {v : Value} {fault : Fault} (gap : Invoice.Gap v fault) :
    invoiceOfValue id v = .error (.escaped fault) := by
  unfold invoiceOfValue
  rw [Invoice.ofValue_of_gap gap]
  rfl

/-- The faults that asking for an invoice lets pass.  A server can answer with an integer of
too many digits.  The path in a staging directory can be too long to be followed, and the
document there can have a fault that is not foreseen.  And whatever the source, reading the
invoice lets its faults pass. -/
inductive Gap (network : String → Answer) (d : Disk) (id : PackageId) : Source → Fault → Prop
  | digits {address : String} {timeout : Value} {bytes : List UInt8} {text : List Char}
      {digits : Nat} (answered : network (Url.requested (addressOf address id)) = .body bytes)
      (decoded : Text.decodeUtf8 bytes = .ok text) (read : Json.read text = .error (.tooLong digits)) :
      Gap network d id (.server address timeout) (.integer (.tooLong digits) "")
  | answer {address : String} {timeout : Value} {bytes : List UInt8} {text : List Char}
      {v : Value} {fault : Fault}
      (answered : network (Url.requested (addressOf address id)) = .body bytes)
      (decoded : Text.decodeUtf8 bytes = .ok text) (read : Json.read text = .ok v)
      (gap : Invoice.Gap v fault) : Gap network d id (.server address timeout) fault
  | path {directory p : Path} (place : Staging.invoiceOf directory id = p) (long : d.TooLong p) :
      Gap network d id (.staged directory) (.disk ⟨.nameTooLong, p.text, none⟩)
  | scalar {directory p : Path} {bytes : ByteArray} {text : List Char} {fault : Fault}
      (place : Staging.invoiceOf directory id = p) (found : d.stat p = .ok (.file bytes))
      (held : Document.textAt d p = .ok text) (loads : Yaml.load text = .error fault)
      (unforeseen : Document.Unforeseen fault) : Gap network d id (.staged directory) fault
  | document {directory p : Path} {bytes : ByteArray} {text : List Char}
      {entries : List (Value × Value)} {fault : Fault}
      (place : Staging.invoiceOf directory id = p) (found : d.stat p = .ok (.file bytes))
      (held : Document.textAt d p = .ok text) (loads : Yaml.load text = .ok (.map entries))
      (gap : Invoice.Gap (.map entries) fault) : Gap network d id (.staged directory) fault

/-- The staged document holds an integer that is too long to be written out. -/
inductive HoldsLong (d : Disk) (id : PackageId) : Source → Prop
  | document {directory p : Path} {text : List Char} {entries : List (Value × Value)}
      (place : Staging.invoiceOf directory id = p) (held : Document.textAt d p = .ok text)
      (loads : Yaml.load text = .ok (.map entries))
      (long : (Value.map entries).isShowable = false) : HoldsLong d id (.staged directory)

/-- The value of a body is that of a text in JSON, which an integer of too many digits stops. -/
theorem ends_valueOfBody (id : PackageId) (bytes : List UInt8) :
    Ends (fun v => ∃ text, Text.decodeUtf8 bytes = .ok text ∧ Json.read text = .ok v)
      (fun failure => (∃ cause, failure = .fetch cause) ∨ ∃ text digits,
        Text.decodeUtf8 bytes = .ok text ∧ Json.read text = .error (.tooLong digits) ∧
          failure = .escaped (.integer (.tooLong digits) ""))
      (valueOfBody id bytes) := by
  unfold valueOfBody
  split
  · exact .inl ⟨_, rfl⟩
  · rename_i text decoded
    split
    · rename_i v read
      exact ⟨text, decoded, read⟩
    · exact .inl ⟨_, rfl⟩
    · rename_i digits read
      exact .inr ⟨text, digits, decoded, read, rfl⟩

theorem ends_server (network : String → Answer) (d : Disk) (id : PackageId) (address : String)
    (timeout : Value) :
    Ends (fun inv => inv.id = id)
      (Fails (Gap network d id (.server address timeout)) (HoldsLong d id (.server address timeout)))
      ((Source.server address timeout).fetch network d id).outcome := by
  unfold fetch
  simp only [Report.outcome_bind, Report.outcome_ofOutcome, Report.outcome_note,
    Report.outcome_ask, ok_bind]
  cases answered : network (Url.requested (addressOf address id)) with
  | status code reason => exact .inl ⟨_, rfl⟩
  | unreachable reason => exact .inl ⟨_, rfl⟩
  | interrupted text => exact .inl ⟨_, rfl⟩
  | body bytes =>
    refine Ends.bind ((ends_valueOfBody id bytes).mono (fun _ read => read) ?_) ?_
    · rintro failure (proper | ⟨text, digits, decoded, read, rfl⟩)
      · exact .inl proper
      · exact .inr ⟨_, rfl, .inl (.digits answered decoded read)⟩
    · rintro v ⟨text, decoded, read⟩
      refine (ends_invoiceOfValue id v).mono (fun _ same => same) ?_
      rintro failure (proper | ⟨fault, rfl, gap | ⟨_, long⟩⟩)
      · exact .inl proper
      · exact .inr ⟨_, rfl, .inl (.answer answered decoded read gap)⟩
      · -- what is read of a body can always be shown
        rw [Json.isShowable_of_read read] at long
        exact absurd long (by simp)

/-- What the failure to have a document means for the invoice in it. -/
def unreadable (id : PackageId) (p : Path) : Failure → Failure
  | .escaped fault =>
    if Document.isUnreadable fault then .fetch (.unreadable id p.text fault) else .escaped fault
  | failure => failure

/-- The invoice that the document at a path holds. -/
def invoiceAt (d : Disk) (id : PackageId) (p : Path) : Except Failure Invoice := do
  if !(← (d.isFile p).mapError .escaped) then throw (.fetch (.notStaged id p.text))
  invoiceOfValue id (.map (← (Document.entriesAt d p).outcome.mapError (unreadable id p)))

/-- A staged invoice is that of the document at its path. -/
theorem outcome_fetch_staged {directory p : Path} (place : Staging.invoiceOf directory id = p) :
    ((Source.staged directory).fetch network d id).outcome = invoiceAt d id p := by
  unfold fetch invoiceAt
  simp only [place, Report.outcome_bind, Report.outcome_ofOutcome, Report.outcome_note,
    Report.outcome_ite, Report.outcome_mapFailure, Report.outcome_fail, ok_bind]
  rfl

theorem invoiceAt_of_file {p : Path} {bytes : ByteArray} (found : d.stat p = .ok (.file bytes)) :
    invoiceAt d id p = (do
      let entries ← (Document.entriesAt d p).outcome.mapError (unreadable id p)
      invoiceOfValue id (.map entries)) := by
  unfold invoiceAt
  rw [Disk.isFile_of_stat found]
  rfl

theorem ends_invoiceAt (network : String → Answer) {directory p : Path}
    (place : Staging.invoiceOf directory id = p) :
    Ends (fun inv => inv.id = id)
      (Fails (Gap network d id (.staged directory)) (HoldsLong d id (.staged directory)))
      (invoiceAt d id p) := by
  rcases d.isFile_cases p with ⟨bytes, found⟩ | noFile | long
  · rw [invoiceAt_of_file found, Document.outcome_entriesAt found]
    cases held : Document.textAt d p with
    | error fault =>
      have foreseen := (Document.ends_textAt found).of_error held
      simp only [Except.mapError, unreadable, foreseen, if_true, error_bind]
      exact .inl ⟨_, rfl⟩
    | ok text =>
      dsimp only
      cases loads : Yaml.load text with
      | error fault =>
        simp only [Except.mapError, unreadable, error_bind]
        rcases Document.isUnreadable_or_unforeseen ((Yaml.ends_load text).of_error loads) with
          foreseen | unforeseen
        · rw [if_pos foreseen]
          exact .inl ⟨_, rfl⟩
        · rw [if_neg (by simp [Document.isUnreadable_of_unforeseen unforeseen])]
          exact .inr ⟨_, rfl, .inl (.scalar place found held loads unforeseen)⟩
      | ok v =>
        cases v with
        | map entries =>
          simp only [mapError_ok, ok_bind]
          refine (ends_invoiceOfValue id (.map entries)).mono (fun _ same => same) ?_
          rintro failure (proper | ⟨fault, rfl, gap | ⟨isLong, long⟩⟩)
          · exact .inl proper
          · exact .inr ⟨_, rfl, .inl (.document place found held loads gap)⟩
          · exact .inr ⟨_, rfl, .inr ⟨isLong, .document place held loads long⟩⟩
        | _ =>
          -- what is no mapping has no entries, so no package id
          exact .inl ⟨.invalid id .noPackageId, rfl⟩
  · unfold invoiceAt
    rw [noFile]
    exact .inl ⟨.notStaged id p.text, rfl⟩
  · unfold invoiceAt
    rw [Disk.isFile_of_tooLong long]
    exact .inr ⟨_, rfl, .inl (.path place long)⟩

theorem ends_fetch (network : String → Answer) (d : Disk) (id : PackageId) (source : Source) :
    Ends (fun inv => inv.id = id) (Fails (Gap network d id source) (HoldsLong d id source))
      (source.fetch network d id).outcome := by
  cases source with
  | server address timeout => exact ends_server network d id address timeout
  | staged directory =>
    -- the path is a digest, which nothing here should compute
    generalize place : Staging.invoiceOf directory id = p
    rw [outcome_fetch_staged place]
    exact ends_invoiceAt network place

theorem fetch_of_gap {source : Source} {fault : Fault} (gap : Gap network d id source fault) :
    (source.fetch network d id).outcome = .error (.escaped fault) := by
  cases gap with
  | digits answered decoded read =>
    unfold fetch
    simp only [Report.outcome_bind, Report.outcome_ofOutcome, Report.outcome_note,
      Report.outcome_ask, ok_bind, answered, valueOfAnswer, valueOfBody, decoded, read, error_bind]
  | answer answered decoded read gap =>
    unfold fetch
    simp only [Report.outcome_bind, Report.outcome_ofOutcome, Report.outcome_note,
      Report.outcome_ask, ok_bind, answered, valueOfAnswer, valueOfBody, decoded, read,
      invoiceOfValue_of_gap gap]
  | path place long =>
    rw [outcome_fetch_staged place]
    unfold invoiceAt
    rw [Disk.isFile_of_tooLong long]
    rfl
  | scalar place found held loads unforeseen =>
    rw [outcome_fetch_staged place, invoiceAt_of_file found, Document.outcome_entriesAt found, held]
    simp only [loads, Except.mapError, unreadable, Document.isUnreadable_of_unforeseen unforeseen,
      Bool.false_eq_true, if_false, error_bind]
  | document place found held loads gap =>
    rw [outcome_fetch_staged place, invoiceAt_of_file found, Document.outcome_entriesAt found, held]
    simp only [loads, mapError_ok, ok_bind, invoiceOfValue_of_gap gap]

theorem ne_longInteger_of_gap {source : Source} {fault : Fault}
    (gap : Gap network d id source fault) : fault ≠ .longInteger := by
  cases gap with
  | digits | path => simp
  | answer _ _ _ gap | document _ _ _ _ gap => exact Invoice.ne_longInteger_of_gap gap
  | scalar _ _ _ _ unforeseen => cases unforeseen <;> simp

/-- Reading an invoice gives one or says what is invalid, and asking a source for the invoice of
a package gives the invoice of that package or fails to fetch it.  Both let some faults of the
layers below pass, and these are exactly the faults of the gaps and that of an integer that is
too long to be shown.  The texts of values are made of characters, and so are those that a document
spells with escapes for halves of surrogate pairs: what could go wrong with such a half later, when
it is encoded, is not spoken of. -/
theorem contract_ofValue_and_fetch (network : String → Answer) (d : Disk) (id : PackageId) :
    (∀ v, Contract (fun _ => True) (fun failure => ∃ cause, failure = .invalid cause)
      (Invoice.Gap v) (v.isShowable = false) (Invoice.ofValue v)) ∧
    ∀ source : Source, Contract (fun inv => inv.id = id)
      (fun failure => ∃ cause, failure = .fetch cause) (Gap network d id source)
      (HoldsLong d id source) (source.fetch network d id).outcome :=
  ⟨Invoice.contract_ofValue, fun source =>
    .of_ends (ends_fetch network d id source) (fun _ => fetch_of_gap) (by simp)
      fun gap => ne_longInteger_of_gap gap rfl⟩

/-- Groups that are a number: the reader of invoices neither gives one nor says what is invalid. -/
theorem ofValue_numeric_groups :
    Invoice.ofValue (.map [(.text "package_id", .text "a/1"), (.text "group", .int 5)]) =
      .error (.escaped (.kindAsList "int")) := by
  rfl

end Source
end Consignment
