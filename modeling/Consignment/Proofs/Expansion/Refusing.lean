import Consignment.Proofs.Disk.Asking
import Consignment.Proofs.Expansion.Failing
import Consignment.Proofs.Glob.Refusing

namespace Consignment

open Outcome

/-!
# Which faults an expansion lets pass

A module or a matched file that cannot be read is a failure of the packaging, and so is one outside
of the base, a name that clashes, and a handler that cannot be had.  The disk is also asked in ways
that nobody expects a fault of.  A path can hold a character that no path can hold, which opening
the file and listing a directory refuse in a way of their own.  And what a pattern matches can be
too long a path to be asked about.

`Gap` says when each of these comes up, with all that has to be in order before it.  No other fault
is let pass.
-/

def Role.modulePath? : Role → Option String
  | .handler modulePath _ | .exported modulePath _ => some modulePath
  | .imported _ _ => none

namespace ExpansionContext

variable {c : ExpansionContext} {manifest : Manifest} {fault : Fault}

/-! ## Modules and matched files -/

/-- The label of a local file lets pass that its path is impossible. -/
theorem localLabel_eq_escaped {role : Role} {path : Path} {feature : FeatureMap}
    {annotations : Option TextMap} :
    c.localLabel role path feature annotations = .error (.escaped fault) ↔
      path.hasNull = true ∧ fault = .nullInPath := by
  have ends := Disk.ends_read c.disk path
  unfold localLabel
  cases read : c.disk.read path with
  | ok bytes =>
    have clean := ends.of_ok read
    have named : c.nameOf path ≠ .error (.escaped fault) := by
      unfold nameOf
      split <;> simp
    simp only [clean, Bool.false_eq_true, false_and, iff_false]
    intro failed
    rcases bind_eq_error.mp failed with unnamed | ⟨name, _, finished⟩
    · exact named unnamed
    · cases finished
  | error other =>
    rcases ends.of_error read with ⟨null, rfl⟩ | ⟨clean, refused⟩
    · simp [null, eq_comm]
    · cases other with
      | disk refusal => simp [clean]
      | _ => simp [Fault.isDisk] at refused

theorem primaryParcel_eq_escaped {role : Role} :
    c.primaryParcel role = .error (.escaped fault) ↔
      (∃ modulePath, role.modulePath? = some modulePath ∧
        (c.base.join modulePath).hasNull = true) ∧ fault = .nullInPath := by
  cases role with
  | handler modulePath route =>
    simp [primaryParcel, localLabel_eq_escaped, Role.modulePath?]
  | exported modulePath exportId =>
    simp [primaryParcel, localLabel_eq_escaped, Role.modulePath?]
  | imported ref route =>
    simp [primaryParcel, externalSource_eq_error, Role.modulePath?]

theorem fileParcel_eq_escaped {role : Role} {path : Path} :
    c.fileParcel role path = .error (.escaped fault) ↔
      path.hasNull = true ∧ fault = .nullInPath := by
  simp [fileParcel, localLabel_eq_escaped]

/-- The dependencies of an entry let nothing pass. -/
theorem dependencyParcels_ne_escaped {role : Role} :
    (c.dependencyParcels role).outcome ≠ .error (.escaped fault) := by
  intro failed
  rcases cases_of_dependencyParcels failed with ⟨ref, _, unsourced⟩
  simp [externalSource_eq_error] at unsourced

/-! ## Patterns -/

/-- The faults that a pattern lets pass.  It comes to a directory with an impossible path, or what
it matches is too long a path to be asked about; of several such matches the first counts. -/
inductive PatternGap (c : ExpansionContext) (pattern : String) : Fault → Prop
  | listing (refused : Glob.matching c.disk c.base pattern = .error .nullInPath)
      (impossible : Glob.hasNull c.base.text = true ∨ Glob.hasNull pattern = true ∨
        c.disk.HoldsNull) :
    PatternGap c pattern .nullInPath
  | long {found : List String} {path : Path}
      (matching : Glob.matching c.disk c.base pattern = .ok found)
      (first : First (fun earlier => ¬ c.disk.TooLong earlier)
        (fun here => c.disk.TooLong here ∧ here = path) ((Text.sorted found).map c.base.join)) :
    PatternGap c pattern (.disk ⟨.nameTooLong, path.text, none⟩)

theorem isFile_answers {path : Path} :
    (∃ answer, c.disk.isFile path = .ok answer) ↔ ¬ c.disk.TooLong path := by
  constructor
  · rintro ⟨answer, asked⟩ long
    rw [Disk.isFile_of_tooLong long] at asked
    cases asked
  · intro short
    cases asked : c.disk.isFile path with
    | ok answer => exact ⟨answer, rfl⟩
    | error fault => exact absurd (Disk.probe_eq_error.mp asked).1 short

theorem matchedFiles_eq_escaped {pattern : String} :
    (c.matchedFiles pattern).outcome = .error (.escaped fault) ↔ c.PatternGap pattern fault := by
  have outcome : (c.matchedFiles pattern).outcome = .error (.escaped fault) ↔
      Glob.matching c.disk c.base pattern = .error fault ∨
        ∃ found, Glob.matching c.disk c.base pattern = .ok found ∧
          FirstFault c.disk.isFile ((Text.sorted found).map c.base.join) fault := by
    unfold matchedFiles
    simp only [Report.outcome_bind, Report.outcome_ofOutcome, bind_eq_error, mapError_eq_error,
      mapError_eq_ok, Failure.escaped.injEq, exists_eq_right, filterMapM_eq_error]
    refine or_congr Iff.rfl (exists_congr fun found => and_congr_right fun _ => ?_)
    refine or_iff_left ?_
    rintro ⟨files, _, noted⟩
    split at noted <;> simp at noted
  rw [outcome]
  constructor
  · rintro (refused | ⟨found, matching, first⟩)
    · rcases (Glob.ends_matching c.disk c.base pattern).of_error refused with ⟨rfl, impossible⟩
      exact .listing refused impossible
    · rw [firstFault_iff (fun path => isFile_answers) fun path => Disk.probe_eq_error] at first
      rcases first with ⟨before, path, after, divided, short, long, rfl⟩
      exact .long matching ⟨before, path, after, divided, short, long, rfl⟩
  · intro gap
    cases gap with
    | listing refused => exact .inl refused
    | long matching first =>
      refine .inr ⟨_, matching, ?_⟩
      rw [firstFault_iff (fun path => isFile_answers) fun path => Disk.probe_eq_error]
      rcases first with ⟨before, path, after, divided, short, long, rfl⟩
      exact ⟨before, path, after, divided, short, long, rfl⟩

/-- The patterns of an entry let pass what the first of them does that lets anything pass. -/
theorem givenPaths_eq_escaped {e : Entry} :
    c.givenPaths e = .error (.escaped fault) ↔
      First (fun pattern => ∃ files, (c.matchedFiles pattern).outcome = .ok files)
        (fun pattern => c.PatternGap pattern fault) (e.files.getD []) := by
  have outcome : c.givenPaths e = .error (.escaped fault) ↔
      FirstFault (fun pattern => (c.matchedFiles pattern).outcome) (e.files.getD [])
        (.escaped fault) := by
    unfold givenPaths entryFiles
    simp [bind_eq_error, Report.outcome_forAll, mapM_eq_error]
  rw [outcome]
  exact firstFault_iff (fun _ => Iff.rfl) fun _ => matchedFiles_eq_escaped

/-! ## The whole expansion -/

/-- The faults that an expansion lets pass.  The first module that cannot be had has an impossible
path; or all modules and dependencies can be had, and the first entry whose patterns cannot be
matched has one that lets a fault pass. -/
inductive Gap (c : ExpansionContext) (manifest : Manifest) : Fault → Prop
  | module
    (first : First (fun e => ∃ p, c.primaryParcel e.role = .ok p)
      (fun e => ∃ modulePath, e.role.modulePath? = some modulePath ∧
        (c.base.join modulePath).hasNull = true) (manifest.matching c.values)) :
    Gap c manifest .nullInPath
  | pattern {primary : List Parcel} {dependencies : List (List Parcel)} {fault : Fault}
    (modules : c.modules manifest = .ok primary) (closures : c.closures manifest = .ok dependencies)
    (first : First (fun e => ∃ given, c.givenPaths e = .ok given)
      (fun e => First (fun pattern => ∃ files, (c.matchedFiles pattern).outcome = .ok files)
        (fun pattern => c.PatternGap pattern fault) (e.files.getD [])) (manifest.matching c.values)) :
    Gap c manifest fault

theorem first_module_iff :
    FirstFault (fun e : Entry => c.primaryParcel e.role) (manifest.matching c.values)
        (.escaped fault) ↔
      First (fun e => ∃ p, c.primaryParcel e.role = .ok p)
        (fun e => ∃ modulePath, e.role.modulePath? = some modulePath ∧
          (c.base.join modulePath).hasNull = true) (manifest.matching c.values) ∧
        fault = .nullInPath := by
  rw [firstFault_iff (fun _ => Iff.rfl) fun _ => primaryParcel_eq_escaped]
  constructor
  · rintro ⟨before, e, after, divided, fine, impossible, same⟩
    exact ⟨⟨before, e, after, divided, fine, impossible⟩, same⟩
  · rintro ⟨⟨before, e, after, divided, fine, impossible⟩, same⟩
    exact ⟨before, e, after, divided, fine, impossible, same⟩

/-- A matched file is there, so that its path is possible. -/
theorem clean_of_mem_matched {matched : List (List (Role × Path))}
    (patterns : c.patterns manifest = .ok matched) {m : Role × Path} (mem : m ∈ matched.flatten) :
    m.2.hasNull = false := by
  have given := mapM_eq_ok.mp patterns
  simp only [givenPaths, bind_eq_ok, Except.ok.injEq] at given
  rcases (mem_flatten_entryFiles given).mp mem with ⟨e, _, pattern, _, path, gives, rfl⟩
  rcases gives with ⟨_, _, _, isFile⟩
  by_contra null
  rw [Bool.not_eq_false] at null
  have nowhere : c.disk.stat path = .error .nullInPath := by simp [Disk.stat, null]
  rw [Disk.isFile, Disk.probe, nowhere] at isFile
  cases isFile

theorem expand_eq_escaped :
    (c.expand manifest).outcome = .error (.escaped fault) ↔ c.Gap manifest fault := by
  rw [expand_eq_error]
  constructor
  · intro ends
    cases ends with
    | module first =>
      rcases first_module_iff.mp first with ⟨impossible, rfl⟩
      exact .module impossible
    | closure modules first =>
      rcases first.exists_mem with ⟨e, _, failing⟩
      exact absurd failing dependencyParcels_ne_escaped
    | pattern modules closures first =>
      rw [firstFault_iff (fun _ => Iff.rfl) fun _ => givenPaths_eq_escaped] at first
      exact .pattern modules closures first
    | file modules closures patterns first =>
      rcases first.exists_mem with ⟨m, mem, failing⟩
      have clean := clean_of_mem_matched patterns mem
      rw [(fileParcel_eq_escaped.mp failing).1] at clean
      cases clean
    | clash _ _ _ _ _ names => cases names
  · intro gap
    cases gap with
    | module first => exact .module (first_module_iff.mpr ⟨first, rfl⟩)
    | pattern modules closures first =>
      refine .pattern modules closures ?_
      rw [firstFault_iff (fun _ => Iff.rfl) fun _ => givenPaths_eq_escaped]
      exact first

end ExpansionContext
end Consignment
