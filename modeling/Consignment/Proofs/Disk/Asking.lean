import Consignment.Disk.Write
import Consignment.Proofs.Ending

namespace Consignment
namespace Disk

open Outcome

/-!
# What the disk answers

A path is asked about before anything is done with it, and it is followed before its directories
are made.  The answers are few.  A path that leads nowhere is a plain no; one that is too long to
be followed is a fault of the question itself.  A path with a character that no path can hold is
refused wherever something is done with it, and a no where it is only asked about.
-/

variable {d : Disk} {p : Path} {fault : Fault}

/-! ## Following a path -/

theorem ends_walk (d : Disk) (place : Place) (names : List String) :
    Ends (fun _ => True)
      (fun refusal => refusal = .missing ∨ refusal = .notDirectory ∨ refusal = .nameTooLong)
      (d.walk place names) := by
  fun_induction d.walk place names <;> grind

theorem ends_locate (d : Disk) (p : Path) :
    Ends (fun _ => True)
      (fun refusal => refusal = .missing ∨ refusal = .notDirectory ∨ refusal = .nameTooLong)
      (d.locate p) := by
  unfold locate
  exact .ite (.inr (.inr rfl)) (ends_walk _ _ _)

def TooLong (d : Disk) (p : Path) : Prop :=
  p.hasNull = false ∧ d.locate p = .error .nameTooLong

theorem stat_of_tooLong (long : d.TooLong p) : d.stat p = refuse .nameTooLong p := by
  simp [stat, long.1, long.2]

theorem isFile_of_tooLong (long : d.TooLong p) :
    d.isFile p = .error (.disk ⟨.nameTooLong, p.text, none⟩) := by
  unfold isFile probe
  rw [stat_of_tooLong long]
  rfl

/-- A path leads to something, or nowhere, or is too long to be followed. -/
theorem stat_cases (d : Disk) (p : Path) :
    (∃ node, d.stat p = .ok node) ∨ d.stat p = .error .nullInPath ∨
      d.stat p = refuse .missing p ∨ d.stat p = refuse .notDirectory p ∨ d.TooLong p := by
  cases null : p.hasNull with
  | true => exact .inr (.inl (by simp [stat, null]))
  | false =>
    cases located : d.locate p with
    | error refusal =>
      have refused : d.stat p = refuse refusal p := by simp [stat, null, located]
      rcases (ends_locate d p).of_error located with rfl | rfl | rfl
      · exact .inr (.inr (.inl refused))
      · exact .inr (.inr (.inr (.inl refused)))
      · exact .inr (.inr (.inr (.inr ⟨null, located⟩)))
    | ok place =>
      cases held : d.node? place with
      | none => exact .inr (.inr (.inl (by simp [stat, null, located, held])))
      | some node => exact .inl ⟨node, by simp [stat, null, located, held]⟩

/-- Asked whether a path leads to a file, the answer is yes and there is one, or no, or the path
is too long for an answer. -/
theorem isFile_cases (d : Disk) (p : Path) :
    (∃ bytes, d.stat p = .ok (.file bytes)) ∨ d.isFile p = .ok false ∨ d.TooLong p := by
  unfold isFile probe
  rcases d.stat_cases p with ⟨_ | bytes, found⟩ | nowhere | nowhere | nowhere | long
  · exact .inr (.inl (by rw [found]))
  · exact .inl ⟨bytes, found⟩
  · exact .inr (.inl (by rw [nowhere]))
  · exact .inr (.inl (by rw [nowhere]; rfl))
  · exact .inr (.inl (by rw [nowhere]; rfl))
  · exact .inr (.inr long)

/-- Something is done with a path in vain because the path is impossible, or because the disk refuses
it. -/
theorem ends_stat (d : Disk) (p : Path) :
    Ends (fun _ => p.hasNull = false)
      (fun fault => p.hasNull = true ∧ fault = .nullInPath ∨
        p.hasNull = false ∧ fault.isDisk = true) (d.stat p) := by
  unfold stat
  split
  · rename_i null
    exact .inl ⟨null, rfl⟩
  · rename_i clean
    rw [Bool.not_eq_true] at clean
    split
    · exact .inr ⟨clean, rfl⟩
    · split
      · exact .inr ⟨clean, rfl⟩
      · exact clean

theorem ends_read (d : Disk) (p : Path) :
    Ends (fun _ => p.hasNull = false)
      (fun fault => p.hasNull = true ∧ fault = .nullInPath ∨
        p.hasNull = false ∧ fault.isDisk = true) (d.read p) := by
  unfold read
  refine (ends_stat d p).bind fun node clean => ?_
  split
  · exact clean
  · exact .inr ⟨clean, rfl⟩

/-- A question about a path has no answer exactly if the path is too long to be followed. -/
theorem probe_eq_error {ask : Node → Bool} :
    d.probe p ask = .error fault ↔ d.TooLong p ∧ fault = .disk ⟨.nameTooLong, p.text, none⟩ := by
  have answered {b : Bool} (answer : d.probe p ask = .ok b) (follows : ¬ d.TooLong p) :
      d.probe p ask = .error fault ↔
        d.TooLong p ∧ fault = .disk ⟨.nameTooLong, p.text, none⟩ := by
    rw [answer]
    exact iff_of_false (by simp) fun both => follows both.1
  have short {other : Except Fault Node} (found : d.stat p = other)
      (differs : other ≠ refuse .nameTooLong p) : ¬ d.TooLong p :=
    fun long => differs (found.symm.trans (stat_of_tooLong long))
  rcases d.stat_cases p with ⟨node, found⟩ | nowhere | nowhere | nowhere | long
  · exact answered (by rw [probe, found]) (short found (by simp [refuse]))
  · exact answered (by rw [probe, nowhere]) (short nowhere (by simp [refuse]))
  · exact answered (by rw [probe, nowhere]; rfl) (short nowhere (by simp [refuse]))
  · exact answered (by rw [probe, nowhere]; rfl) (short nowhere (by simp [refuse]))
  · rw [probe, stat_of_tooLong long]
    simp only [refuse, long, true_and, Except.error.injEq]
    exact eq_comm

/-! ## Making directories -/

/-- A path that stands on another one's way, or is that path. -/
inductive Above : Path → Path → Prop
  | self (p : Path) : Above p p
  | parent {p q : Path} (above : Above p.parent q) : Above p q

/-- Why a directory is not made: its path is impossible, or the disk refuses it or one on the way
to it. -/
def Unmade (p : Path) (fault : Fault) : Prop :=
  p.hasNull = true ∧ fault = .nullInPath ∨
    p.hasNull = false ∧ ∃ q refusal, Above p q ∧ fault = .disk ⟨refusal, q.text, none⟩

theorem Unmade.refused {p : Path} (clean : p.hasNull = false) (refusal : Refusal) :
    Unmade p (.disk ⟨refusal, p.text, none⟩) :=
  .inr ⟨clean, p, refusal, .self p, rfl⟩

theorem Unmade.isDisk {p : Path} (clean : p.hasNull = false) {fault : Fault}
    (unmade : Unmade p fault) : fault.isDisk = true := by
  rcases unmade with ⟨null, _⟩ | ⟨_, q, refusal, _, rfl⟩
  · rw [clean] at null
    cases null
  · rfl

theorem hasNull_parent {p : Path} (clean : p.hasNull = false) : p.parent.hasNull = false := by
  unfold Path.hasNull at clean ⊢
  rw [List.any_eq_false] at clean ⊢
  exact fun part mem => clean part (List.dropLast_subset _ mem)

theorem Unmade.of_parent {p : Path} (clean : p.hasNull = false) {fault : Fault}
    (unmade : Unmade p.parent fault) : Unmade p fault := by
  rcases unmade with ⟨null, _⟩ | ⟨_, q, refusal, above, rfl⟩
  · rw [hasNull_parent clean] at null
    cases null
  · exact .inr ⟨clean, q, refusal, .parent above, rfl⟩

theorem ends_makeDirectory (d : Disk) (p : Path) :
    Ends (fun _ => p.hasNull = false) (Unmade p) (d.makeDirectory p) := by
  unfold makeDirectory
  split
  · rename_i null
    exact .inl ⟨null, rfl⟩
  · rename_i clean
    rw [Bool.not_eq_true] at clean
    split
    · exact .refused clean _
    · exact clean

theorem ends_unlessDirectory (d : Disk) {p : Path} (clean : p.hasNull = false) {fault : Fault}
    (unmade : Unmade p fault) :
    Ends (fun _ => p.hasNull = false) (Unmade p) (d.unlessDirectory p fault) := by
  unfold unlessDirectory
  split
  · cases asked : d.isDirectory p with
    | error long =>
      rw [(probe_eq_error.mp asked).2]
      exact .refused clean _
    | ok there => exact .ite clean unmade
  · exact unmade

/-- A path that the disk refuses is possible. -/
theorem clean_of_refused {p : Path} {fault : DiskFault} (unmade : Unmade p (.disk fault)) :
    p.hasNull = false := by
  rcases unmade with ⟨_, same⟩ | ⟨clean, _⟩
  · cases same
  · exact clean

theorem ends_makeLast (d : Disk) (p : Path) :
    Ends (fun _ => p.hasNull = false) (Unmade p) (d.makeLast p).2 := by
  unfold makeLast
  have ends := ends_makeDirectory d p
  cases made : d.makeDirectory p with
  | ok after => exact ends.of_ok made
  | error fault =>
    have unmade := ends.of_error made
    cases fault with
    | disk refused =>
      dsimp only
      split
      · exact unmade
      · exact ends_unlessDirectory d (clean_of_refused unmade) unmade
    | _ => exact unmade

theorem ends_makeDirectories (d : Disk) (p : Path) (fuel : Nat) :
    Ends (fun _ => p.hasNull = false) (Unmade p) (d.makeDirectories p fuel).2 := by
  induction fuel generalizing p with
  | zero => exact ends_map.mpr (ends_makeDirectory d p)
  | succ fuel ih =>
    rw [makeDirectories]
    have ends := ends_makeDirectory d p
    cases made : d.makeDirectory p with
    | ok after => exact ends.of_ok made
    | error fault =>
      have unmade := ends.of_error made
      cases fault with
      | disk refused =>
        have clean := clean_of_refused unmade
        dsimp only
        split
        · split
          · exact unmade
          · have above := ih p.parent
            rcases ensured : d.makeDirectories p.parent fuel with ⟨after, fault | done⟩
            · rw [ensured] at above
              exact Unmade.of_parent clean above
            · exact ends_makeLast after p
        · exact ends_unlessDirectory d clean unmade
      | _ => exact unmade

/-- A directory is there afterwards unless its path is impossible, or the disk refuses it or one on
the way to it. -/
theorem ends_ensureDirectory (d : Disk) (p : Path) :
    Ends (fun _ => p.hasNull = false) (Unmade p) (d.ensureDirectory p).2 :=
  ends_makeDirectories d p _

/-! ## Writing files -/

/-- A copy fails for an impossible path, or because the disk refuses it. -/
theorem ends_copyFile (d : Disk) (source target : Path) :
    Ends (fun _ => True)
      (fun fault => (source.hasNull || target.hasNull) = true ∧ fault = .nullInPath ∨
        (source.hasNull || target.hasNull) = false ∧ fault.isDisk = true)
      (d.copyFile source target).2 := by
  unfold copyFile
  split
  · exact .inl ⟨‹_›, rfl⟩
  · rename_i clean
    rw [Bool.not_eq_true] at clean
    have readable : source.hasNull = false := (Bool.or_eq_false_iff.mp clean).1
    split
    · rename_i fault unread
      rcases (ends_read d source).of_error unread with ⟨null, _⟩ | ⟨_, refused⟩
      · rw [readable] at null
        cases null
      · exact .inr ⟨clean, refused⟩
    · split
      · exact .inr ⟨clean, rfl⟩
      · trivial

theorem rename_ne_impossible {d : Disk} {source : Place} {bytes : ByteArray} {p : Path}
    (clean : p.hasNull = false) : d.rename source bytes p ≠ .error none := by
  unfold rename
  rw [if_neg (by simp [clean])]
  split
  · simp
  · split <;> simp

/-- A document with a possible path is replaced unless the disk refuses it. -/
theorem ends_replaceFile (d : Disk) {p : Path} (clean : p.hasNull = false) (bytes : ByteArray) :
    Ends (fun _ => True) (fun fault => fault.isDisk = true) (d.replaceFile p bytes).2 := by
  have above := ends_ensureDirectory d p.parent
  unfold replaceFile
  rcases ensured : d.ensureDirectory p.parent with ⟨made, fault | done⟩
  · rw [ensured] at above
    exact Unmade.isDisk (hasNull_parent clean) above
  · dsimp only
    split
    · rfl
    · split
      · split
        · trivial
        · rename_i renamed
          exact absurd renamed (rename_ne_impossible clean)
        · rfl
      · rfl

end Disk
end Consignment
