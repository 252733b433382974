import Consignment.Staging
import Consignment.Proofs.Disk.Changing
import Consignment.Proofs.Path

namespace Consignment

/-!
# How a package is staged

Staging makes the directories, writes the contents, and replaces the invoice.  It succeeds
exactly when all three succeed, so an invoice stands in the staging directory only behind
the contents that it names.
-/

namespace Document

/-- A value without a text is not saved, and nothing is changed. -/
theorem save_of_long {d : Disk} {p : Path} {v : Value} (long : ¬ v.isShowable = true) :
    save d p v = (d, .fail (.escaped .longInteger)) := by
  rw [save, textOf, if_neg long]

/-- A value that has a text is saved when the text has replaced the document at the path. -/
theorem save_of_short {d : Disk} {p : Path} {v : Value} (short : v.isShowable = true) :
    (save d p v).1 = (d.replaceFile p (Yaml.dump v).toUTF8).1 ∧
      ((save d p v).2.outcome = .ok () ↔ (d.replaceFile p (Yaml.dump v).toUTF8).2 = .ok ()) := by
  rw [save, textOf, if_pos short]
  dsimp only
  rcases d.replaceFile p (Yaml.dump v).toUTF8 with ⟨after, fault | done⟩
  · cases fault <;> simp
  · simp

end Document

namespace Staging

/-- Staging goes through its steps: it ends where the directories cannot be made, behind the
contents that were written before a failure, or with the invoice. -/
theorem write_cases (d : Disk) (source staging : Path) (inv : Invoice) :
    (∃ made fault, d.ensureDirectory (contentsOf staging inv.id) = (made, .error fault) ∧
      write d source staging inv = (made, .fail (.escaped fault))) ∨
    (∃ made failure, d.ensureDirectory (contentsOf staging inv.id) = (made, .ok ()) ∧
      write d source staging inv =
        ((writeContents made source (contentsOf staging inv.id) inv.parcels).1,
          .fail failure)) ∨
    ∃ made filled count, d.ensureDirectory (contentsOf staging inv.id) = (made, .ok ()) ∧
      writeContents made source (contentsOf staging inv.id) inv.parcels = (filled, .ok count) ∧
      (write d source staging inv).1 =
        (filled.replaceFile (invoiceOf staging inv.id) (Yaml.dump inv.toValue).toUTF8).1 ∧
      ((∃ directory, (write d source staging inv).2.outcome = .ok directory) ↔
        (filled.replaceFile (invoiceOf staging inv.id) (Yaml.dump inv.toValue).toUTF8).2 =
          .ok ()) := by
  rcases ensured : d.ensureDirectory (contentsOf staging inv.id) with ⟨made, fault | done⟩
  · exact Or.inl ⟨made, fault, rfl, by simp only [write, ensured]⟩
  rcases contents : writeContents made source (contentsOf staging inv.id) inv.parcels with
    ⟨filled, failure | count⟩
  · refine Or.inr (Or.inl ⟨made, failure, rfl, ?_⟩)
    simp only [write, ensured, contents]
  by_cases short : inv.toValue.isShowable = true
  · have saved := Document.save_of_short (d := filled) (p := invoiceOf staging inv.id) short
    refine Or.inr (Or.inr ⟨made, filled, count, rfl, contents, ?_, ?_⟩)
    · simp only [write, ensured, contents]
      exact saved.1
    · rw [← saved.2]
      simp only [write, ensured, contents, Report.outcome_bind, Report.outcome_mapFailure,
        Outcome.bind_eq_ok, Outcome.mapError_eq_ok]
      constructor
      · rintro ⟨_, _, done, _⟩
        exact done
      · intro done
        exact ⟨_, _, done, _, rfl, rfl⟩
  · refine Or.inr (Or.inl ⟨made, .escaped .longInteger, rfl, ?_⟩)
    simp only [write, ensured, contents, Document.save_of_long short]
    rfl

theorem isName_invoice : Path.IsName "invoice.yml" := by
  unfold Path.IsName
  decide

theorem endsInName_invoiceOf (staging : Path) (id : PackageId) :
    Disk.EndsInName (invoiceOf staging id) := by
  intro name last
  rw [invoiceOf, Path.join_of_isName isName_invoice, List.getLast?_concat] at last
  cases Option.some.inj last
  decide

/-- A staged invoice is where it is looked for. -/
theorem stat_of_staged {d : Disk} {source staging directory : Path} {inv : Invoice}
    (staged : (write d source staging inv).2.outcome = .ok directory) :
    (write d source staging inv).1.stat (invoiceOf staging inv.id) =
      .ok (.file (Yaml.dump inv.toValue).toUTF8) := by
  rcases write_cases d source staging inv with ⟨made, fault, _, failed⟩ |
    ⟨made, failure, _, failed⟩ | ⟨made, filled, count, _, _, disk, succeeds⟩
  · rw [failed] at staged
    exact absurd staged (by simp)
  · rw [failed] at staged
    exact absurd staged (by simp)
  · have replaced := succeeds.mp ⟨directory, staged⟩
    rcases after : filled.replaceFile (invoiceOf staging inv.id) (Yaml.dump inv.toValue).toUTF8
      with ⟨last, outcome⟩
    rw [after] at disk replaced
    rw [disk]
    simp only at replaced
    rw [replaced] at after
    rcases Disk.replaceFile_eq_ok after with ⟨place, document⟩
    exact document.stat (endsInName_invoiceOf staging inv.id)

end Staging
end Consignment
