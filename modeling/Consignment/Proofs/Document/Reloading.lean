import Consignment.Proofs.Source.Refusing
import Consignment.Proofs.Staging.Fetching
import Consignment.Proofs.Yaml.RoundTrip

namespace Consignment
namespace Document

/-!
# Documents that are loaded again

A mapping that is saved is in the file at once, whatever was there before, so loading it is undoing
the writer.  Two things can keep the mapping from coming back.  Its text may be more than a reader
takes; the writer knows no bound.  Or a text in it is not restored from the lines that it is laid
out in, or a key has its colon too late; that it is loadable excludes both.

What is loadable is decided for each text by the column where it stands.  Ordinary values are
loadable at any column that they reach, so for these the size is the only condition.
-/

section

variable {d : Disk} {path : String} {entries : List (Value × Value)}

/-- A document that is saved can be written out, and is the file that its path leads to. -/
theorem stat_of_saved {v : Value} (saved : (save d (.ofText path) v).2.outcome = .ok ()) :
    v.isShowable = true ∧
      (save d (.ofText path) v).1.stat (.ofText path) = .ok (.file (Yaml.dump v).toUTF8) := by
  have ends : Disk.EndsInName (.ofText path) :=
    .of_proper fun part mem =>
      ⟨(Path.isName_of_mem_ofText mem).1, (Path.isName_of_mem_ofText mem).2.1⟩
  by_cases short : v.isShowable = true
  · rcases save_of_short (d := d) (p := .ofText path) short with ⟨disk, done⟩
    rcases replaced : d.replaceFile (.ofText path) (Yaml.dump v).toUTF8 with ⟨after, outcome⟩
    rw [replaced] at disk done
    obtain rfl := done.mp saved
    rcases Disk.replaceFile_eq_ok replaced with ⟨place, document⟩
    rw [disk]
    exact ⟨short, document.stat ends⟩
  · rw [save_of_long short] at saved
    exact absurd saved (by simp)

/-- A loadable mapping that was saved is loaded as it was, its entries in the same order, unless its
text is too large to be read. -/
theorem outcome_entriesAt_save (loadable : Yaml.Loadable none true (.map entries))
    (saved : (save d (.ofText path) (.map entries)).2.outcome = .ok ()) :
    (entriesAt (save d (.ofText path) (.map entries)).1 (.ofText path)).outcome =
      if maxSize < (Yaml.dump (.map entries)).utf8ByteSize then
        .error (.escaped (.tooLarge (Path.ofText path).text
          (Yaml.dump (.map entries)).utf8ByteSize maxSize))
      else .ok entries := by
  rcases stat_of_saved saved with ⟨shown, found⟩
  exact outcome_entriesAt_of_saved found (Yaml.load_dump loadable shown)

/-- On a disk without anything, a document is saved at the root. -/
theorem save_of_empty {v : Value} (shown : v.isShowable = true) :
    (save { nodes := [] } (.ofText "x") v).2.outcome = .ok () := by
  refine (save_of_short shown).2.mpr ?_
  generalize (Yaml.dump v).toUTF8 = bytes
  rfl

/-- Texts that look like something else, and a list without a mark of its own. -/
def stall : List (Value × Value) :=
  [(.text "a: b", .text " 12 "), (.text "yes", .list [.int 12, .text "12\n", .map []])]

theorem outcome_entriesAt_save_stall :
    Yaml.Loadable none true (.map stall) ∧
      (save { nodes := [] } (.ofText "x") (.map stall)).2.outcome = .ok () ∧
      (entriesAt (save { nodes := [] } (.ofText "x") (.map stall)).1 (.ofText "x")).outcome =
        .ok stall := by
  have items : ∀ item ∈ [Value.int 12, .text "12\n", .map []], Yaml.Ordinary 1 item := by
    rw [List.forall_mem_cons, List.forall_mem_cons, List.forall_mem_singleton]
    exact ⟨.int, .text (by decide), .map .nil (by simp) (by simp)⟩
  have ordinary : Yaml.Ordinary 3 (.map stall) := by
    refine .map (by simp [stall]) ?_ ?_
    · rw [stall, List.forall_mem_cons, List.forall_mem_singleton]
      exact ⟨⟨_, rfl, by decide⟩, ⟨_, rfl, by decide⟩⟩
    · rw [stall, List.forall_mem_cons, List.forall_mem_singleton]
      exact ⟨.text (by decide), .list items⟩
  have loadable : Yaml.Loadable none true (.map stall) :=
    Yaml.loadable_of_ordinary ordinary (by decide)
  have saved := save_of_empty (v := .map stall) (by decide +kernel)
  have small : ¬ maxSize < (Yaml.dump (.map stall)).utf8ByteSize := by decide +kernel
  have loaded := outcome_entriesAt_save loadable saved
  rw [if_neg small] at loaded
  exact ⟨loadable, saved, loaded⟩

/-- A text that has a next-line character in it, and is written in single quotes. -/
def lane : List (Value × Value) := [(.text "a", .text "x\u0085y")]

/-- The character is gone when the document is loaded. -/
theorem entriesAt_save_lane :
    (save { nodes := [] } (.ofText "x") (.map lane)).2.outcome = .ok () ∧
      (entriesAt (save { nodes := [] } (.ofText "x") (.map lane)).1 (.ofText "x")).outcome ≠
        .ok lane := by
  have saved : (save { nodes := [] } (.ofText "x") (.map lane)).2.outcome = .ok () :=
    save_of_empty (by decide)
  have written : ((Yaml.load (Yaml.dump (.map lane)).toList).map Yaml.dump).toOption =
      some "a: x y\n" := by decide +kernel
  have other : Yaml.dump (.map lane) ≠ "a: x y\n" := by decide +kernel
  have small : ¬ maxSize < (Yaml.dump (.map lane)).utf8ByteSize := by decide +kernel
  rcases stat_of_saved saved with ⟨shown, found⟩
  refine ⟨saved, ?_⟩
  rw [outcome_entriesAt found, textAt_of_saved found, if_neg small]
  dsimp only
  cases loads : Yaml.load (Yaml.dump (.map lane)).toList with
  | error fault => simp
  | ok v =>
    rw [loads] at written
    cases v with
    | map read =>
      intro same
      cases same
      exact other (Option.some.inj written)
    | _ => simp [lane]

end

end Document
end Consignment
