import Consignment.Source
import Consignment.Proofs.Expansion.Contents
import Consignment.Proofs.Invoice.Codec
import Consignment.Proofs.Staging.Writing
import Consignment.Proofs.Text.Utf8
import Consignment.Proofs.Value.Agreement
import Consignment.Proofs.Yaml.Keys
import Consignment.Proofs.Yaml.Printable

namespace Consignment

/-!
# Fetching what was staged

A package that was staged is fetched again, from the same staging directory and under the
id of its invoice, exactly under three conditions: the id is read back from its written
form, no parcel has features that are present and empty, and the document is not too
large to be read.  None of the three follows from the expansion.  A version may end in a
line feed or hold a slash, because neither a manifest nor the name of a user excludes it;
the features of a dependency are those that its package gave it; and the bound on the
size of documents holds for reading only.

Everything else agrees: the directory is named by the same digest in both directions, the
text is decoded from the bytes that encode it, and no line end is lost because none but
line feeds are written.
-/

namespace Document

variable {d : Disk} {p : Path}

/-- The text of a saved document is the text that was encoded, unless it is too large. -/
theorem textAt_of_saved {v : Value} (found : d.stat p = .ok (.file (Yaml.dump v).toUTF8)) :
    textAt d p =
      if maxSize < (Yaml.dump v).utf8ByteSize then
        .error (.tooLarge p.text (Yaml.dump v).utf8ByteSize maxSize)
      else .ok (Yaml.dump v).toList := by
  have size : (Yaml.dump v).toUTF8.size = (Yaml.dump v).utf8ByteSize := rfl
  have lines : '\r' ∉ (Yaml.dump v).toList := by
    intro mem
    exact absurd (Yaml.clean_dump v '\r' mem) (by decide)
  unfold textAt
  rw [found, Outcome.ok_bind]
  simp only [size, Text.decodeUtf8_toUTF8, Text.unifyLineEnds_eq_self lines]
  split <;> rfl

/-- A saved mapping that is undone by reading is read, unless it is too large. -/
theorem outcome_entriesAt_of_saved {entries : List (Value × Value)}
    (found : d.stat p = .ok (.file (Yaml.dump (.map entries)).toUTF8))
    (loads : Yaml.load (Yaml.dump (.map entries)).toList = .ok (.map entries)) :
    (entriesAt d p).outcome =
      if maxSize < (Yaml.dump (.map entries)).utf8ByteSize then
        .error (.escaped (.tooLarge p.text (Yaml.dump (.map entries)).utf8ByteSize maxSize))
      else .ok entries := by
  have held : d.holds p = .ok true := Disk.holds_eq_ok_true.mpr ⟨_, found⟩
  have text := textAt_of_saved found
  unfold entriesAt
  simp only [Report.outcome_bind, Report.outcome_ofOutcome, held, Except.mapError, Outcome.ok_bind,
    if_true]
  unfold valueAt
  rw [text]
  by_cases large : maxSize < (Yaml.dump (.map entries)).utf8ByteSize
  · rw [if_pos large, if_pos large]
    rfl
  · rw [if_neg large, if_neg large]
    simp only [loads]
    rfl

end Document

namespace Source

theorem invoiceOfValue_eq_ok {id : PackageId} {v : Value} {inv : Invoice} :
    invoiceOfValue id v = .ok inv ↔ Invoice.ofValue v = .ok inv ∧ inv.id = id := by
  unfold invoiceOfValue
  simp only [Outcome.bind_eq_ok, Outcome.mapError_eq_ok]
  constructor
  · rintro ⟨read, done, same⟩
    split at same
    · rename_i asked
      cases Outcome.pure_eq_ok.mp same
      exact ⟨done, asked⟩
    · exact absurd same (by simp)
  · rintro ⟨done, asked⟩
    exact ⟨inv, done, by rw [if_pos asked]; rfl⟩

/-- A saved invoice that is undone by reading is fetched when its document is not too large
and gives the invoice back. -/
theorem fetch_staged_of_saved {network : String → Answer} {d : Disk} {staging : Path}
    {inv : Invoice}
    (found : d.stat (Staging.invoiceOf staging inv.id) = .ok (.file (Yaml.dump inv.toValue).toUTF8))
    (loads : Yaml.load (Yaml.dump inv.toValue).toList = .ok inv.toValue) :
    ((Source.staged staging).fetch network d inv.id).outcome = .ok inv ↔
      Invoice.ofValue inv.toValue = .ok inv ∧
        (Yaml.dump inv.toValue).utf8ByteSize ≤ Document.maxSize := by
  have mapping : ∃ entries, inv.toValue = .map entries := ⟨_, rfl⟩
  rcases mapping with ⟨entries, value⟩
  have file := Disk.isFile_of_stat found
  rw [value] at found loads ⊢
  unfold fetch
  simp only [Report.outcome_bind, Report.outcome_ofOutcome, Report.outcome_ite,
    Report.outcome_mapFailure, Report.outcome_note, file, Except.mapError, Outcome.ok_bind,
    Bool.not_true, Bool.false_eq_true, if_false, Document.outcome_entriesAt_of_saved found loads]
  by_cases large : Document.maxSize < (Yaml.dump (.map entries)).utf8ByteSize
  · simp [large, Nat.not_le.mpr large]
  · simp only [large, if_false, Outcome.ok_bind, invoiceOfValue_eq_ok, and_true,
      Nat.not_lt.mp large]

end Source

namespace ExpansionContext

variable {c : ExpansionContext} {manifest : Manifest} {inv : Invoice}

/-- The features of an invoice that is given back by reading have distinct names, because
they are a mapping of a document. -/
theorem distinctFeatures_of_keyed (keyed : inv.toValue.Keyed) : inv.DistinctFeatures := by
  intro p mem features found
  rcases inv.lookup_toValue with ⟨fields, record, _, _, _, _, _, parcels, _⟩
  rcases p.lookup_toValue with ⟨parcelFields, parcelRecord, label, _⟩
  rcases p.label.lookup_toValue with ⟨labelFields, labelRecord, _, _, _, _, feature, _⟩
  have ofParcels : (Value.list (inv.parcels.map Parcel.toValue)).Keyed := by
    rw [record] at keyed
    exact keyed.of_lookup parcels
  have ofParcel : p.toValue.Keyed := ofParcels.of_mem_list (List.mem_map_of_mem mem)
  have ofLabel : p.label.toValue.Keyed := by
    rw [parcelRecord] at ofParcel
    exact ofParcel.of_lookup label
  cases features with
  | nil => exact List.nodup_nil
  | cons first rest =>
    have value : p.label.featureValue =
        .record ((first :: rest).map fun f => (f.1, Value.textMap f.2)) := by
      rw [Label.featureValue, found]
    rw [value] at feature
    cases held : labelFields.lookup "feature" with
    | none =>
      rw [held] at feature
      exact absurd feature (by simp [Value.record])
    | some v =>
      rw [held, Option.getD_some] at feature
      subst feature
      rw [labelRecord] at ofLabel
      have names := (ofLabel.of_lookup held).names
      rwa [List.map_map] at names

/-- Nothing that is present and empty can be lost but features. -/
theorem kept_iff_of_expand (expanded : (c.expand manifest).outcome = .ok inv) :
    (∀ p ∈ inv.parcels, p.kept = p) ↔ ∀ p ∈ inv.parcels, p.label.feature ≠ some [] := by
  rcases expand_eq_ok.mp expanded with ⟨parts, rfl⟩
  apply forall₂_congr
  intro p mem
  rcases parts.nonempty_of_mem mem with ⟨annotations, conditions⟩
  rw [Parcel.kept_eq_self]
  exact ⟨fun kept => kept.1.1, fun feature => ⟨⟨feature, annotations⟩, conditions⟩⟩

/-- A package that was staged is fetched again exactly when its id is read back from its
written form, no parcel has features that are present and empty, and its document is not
too large to be read. -/
theorem fetch_of_staged {d : Disk} {source staging directory : Path} {network : String → Answer}
    (expanded : (c.expand manifest).outcome = .ok inv)
    (loads : Yaml.load (Yaml.dump inv.toValue).toList = .ok inv.toValue)
    (staged : (Staging.write d source staging inv).2.outcome = .ok directory) :
    ((Source.staged staging).fetch network (Staging.write d source staging inv).1
        inv.id).outcome = .ok inv ↔
      inv.id.Rereadable ∧ (∀ p ∈ inv.parcels, p.label.feature ≠ some []) ∧
        (Yaml.dump inv.toValue).utf8ByteSize ≤ Document.maxSize := by
  have found : (Staging.write d source staging inv).1.stat (Staging.invoiceOf staging inv.id) =
      .ok (.file (Yaml.dump inv.toValue).toUTF8) := Staging.stat_of_staged staged
  have distinct : inv.DistinctFeatures := distinctFeatures_of_keyed (Yaml.keyed_load loads)
  rw [Source.fetch_staged_of_saved found loads, Invoice.ofValue_toValue_eq_self distinct,
    kept_iff_of_expand expanded, and_assoc]

/-- Whether reading gives back what was written of an invoice. -/
def readsBack (inv : Invoice) : Bool :=
  match Yaml.load (Yaml.dump inv.toValue).toList with
  | .ok v => v.agrees inv.toValue
  | .error _ => false

theorem loads_of_readsBack (reads : readsBack inv = true) :
    Yaml.load (Yaml.dump inv.toValue).toList = .ok inv.toValue := by
  unfold readsBack at reads
  split at reads
  · rename_i v loaded
    rw [loaded, Value.eq_of_agrees reads]
  · exact absurd reads (by simp)

/-- A package whose version was declared with a line feed at its end. -/
def forecast : Manifest where
  packageName := "forecast"
  packageVersion := "1\n"
  entries := [⟨.handler "m" "/", none, .always⟩]

/-- The module of the package on a disk. -/
def forecastContext : ExpansionContext where
  base := ⟨.root, ["app"]⟩
  disk := { nodes := [(["app"], .directory), (["app", "m"], .file ⟨#[1, 2]⟩)] }
  versioning := .production
  stamp := ⟨⟨⟨2024, 1, 2⟩, 3, 4, 5, 6, none⟩, none⟩

/-- The package is staged, and it is not fetched. -/
theorem fetch_of_staged_forecast :
    ∃ inv directory, (forecastContext.expand forecast).outcome = .ok inv ∧
      (Staging.write forecastContext.disk forecastContext.base ⟨.root, ["out"]⟩ inv).2.outcome =
        .ok directory ∧
      ((Source.staged ⟨.root, ["out"]⟩).fetch (fun _ => .unreachable "")
        (Staging.write forecastContext.disk forecastContext.base ⟨.root, ["out"]⟩ inv).1
        inv.id).outcome ≠ .ok inv := by
  have evaluated : ((forecastContext.expand forecast).outcome.map fun inv =>
      readsBack inv &&
        (Staging.write forecastContext.disk forecastContext.base ⟨.root, ["out"]⟩
          inv).2.outcome.toBool &&
        inv.id.version.toList.getLast? == some '\n').toOption = some true := by decide +kernel
  rcases Outcome.exists_of_toOption evaluated with ⟨inv, expanded, facts⟩
  simp only [Bool.and_eq_true, beq_iff_eq] at facts
  rcases facts with ⟨⟨reads, written⟩, last⟩
  rcases Outcome.exists_of_toBool written with ⟨directory, staged⟩
  refine ⟨inv, directory, expanded, staged, ?_⟩
  intro fetched
  have exact := (fetch_of_staged expanded (loads_of_readsBack reads) staged).mp fetched
  have visible := exact.1.2.2.2.2 '\n' last
  exact absurd visible (by decide)

end ExpansionContext
end Consignment
