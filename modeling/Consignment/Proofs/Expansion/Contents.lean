import Consignment.Proofs.Expansion.Merge
import Consignment.Proofs.Expansion.Parts
import Consignment.Proofs.Path

namespace Consignment

/-!
# What the parcels of an expanded invoice describe

A parcel describes a file below the base, by its name, its digest and its size, or it is a
reference to content of another package; there is nothing else in an expanded invoice.
A parcel that is staged is therefore found again under its name, with the content that was
digested, as long as the files stay as they are.

No parcel has an annotation map or conditions that are present and empty.
-/

theorem TextMap.lookup_put (name value : String) (texts : TextMap) :
    (TextMap.put name value texts).lookup name = some value := by
  induction texts with
  | nil => simp [TextMap.put]
  | cons first rest ih =>
    rcases first with ⟨k, v⟩
    rw [TextMap.put]
    split
    · rename_i same
      rw [same, List.lookup_cons_self]
    · rename_i differs
      have other : (name == k) = false := by
        rw [beq_eq_false_iff_ne]
        exact Ne.symm differs
      rw [List.lookup_cons, other]
      exact ih

theorem TextMap.lookup_put_of_ne {name other : String} (differs : other ≠ name) (value : String)
    (texts : TextMap) : (TextMap.put name value texts).lookup other = texts.lookup other := by
  have unlike : (other == name) = false := beq_eq_false_iff_ne.mpr differs
  induction texts with
  | nil => simp [TextMap.put, unlike]
  | cons first rest ih =>
    rcases first with ⟨k, v⟩
    rw [TextMap.put]
    split
    · rename_i same
      rw [List.lookup_cons, List.lookup_cons, same, unlike]
    · rw [List.lookup_cons, List.lookup_cons, ih]

theorem TextMap.put_ne_nil (name value : String) (texts : TextMap) :
    TextMap.put name value texts ≠ [] := by
  intro none
  have held := TextMap.lookup_put name value texts
  rw [none] at held
  exact absurd held (by simp)

namespace Parcel

theorem isReference_markedDoNotStage {p : Parcel} {label : Label}
    (marked : p.label = label.markedDoNotStage) : p.isReference = true := by
  have held := TextMap.lookup_put doNotStageKey "true" (label.annotations.getD [])
  simp [isReference, Label.hasAnnotation, Label.annotation?, marked, Label.markedDoNotStage, held]

/-- Conditions with a group are not empty. -/
theorem conditions_ne_of_memberGroups {p : Parcel} {group : String}
    (belongs : group ∈ p.memberGroups) : p.conditions ≠ some ⟨none, none⟩ := by
  intro none
  simp [memberGroups, none] at belongs

theorem conditions_requiring (label : Label) (role : Role) :
    (requiring label role.groupName).conditions ≠ some ⟨none, none⟩ := by
  simp [requiring, role.isEmpty_groupName]

end Parcel

namespace Role

def annotations : Role → Option TextMap
  | handler _ _ => none
  | imported _ _ => some [(doNotStageKey, "true")]
  | exported _ exportId => some [(handlerIdKey, exportId)]

theorem annotations_ne_nil (role : Role) : role.annotations ≠ some [] := by
  cases role <;> simp [annotations]

end Role

namespace ExpansionContext

variable {c : ExpansionContext}

/-- A label describes a file: its name leads from the base to it, and its digest and its
size are those of the content. -/
def DescribesFile (c : ExpansionContext) (label : Label) : Prop :=
  ∃ text bytes, c.disk.read (c.base.join text) = .ok bytes ∧
    c.nameOf (c.base.join text) = .ok label.name ∧
    label.sha256 = Digest.ofBytes bytes ∧ label.size = bytes.size

theorem describesFile_of_localLabel {role : Role} {text : String} {feature : FeatureMap}
    {annotations : Option TextMap} {label : Label}
    (labelled : c.localLabel role (c.base.join text) feature annotations = .ok label) :
    c.DescribesFile label := by
  rcases localLabel_eq_ok.mp labelled with ⟨bytes, name, read, named, rfl⟩
  exact ⟨text, bytes, read, named, rfl, rfl⟩

/-- The name of a label leads from the base to the file that the label describes. -/
theorem DescribesFile.read {label : Label} (describes : c.DescribesFile label) :
    ∃ bytes, c.disk.read (c.base.join label.name) = .ok bytes ∧
      label.sha256 = Digest.ofBytes bytes ∧ label.size = bytes.size := by
  rcases describes with ⟨text, bytes, read, named, digest, size⟩
  refine ⟨bytes, ?_, digest, size⟩
  unfold nameOf at named
  split at named
  · rename_i parts below
    rw [← Except.ok.inj named, Path.join_text_of_relativeTo? below]
    exact read
  · exact absurd named (by simp)

/-- What the annotations of a module say depends on the kind of its entry alone. -/
theorem annotations_of_primaryLabel {role : Role} {label : Label}
    (had : c.primaryLabel role = .ok label) : label.annotations = role.annotations := by
  cases role with
  | handler modulePath route =>
    rcases localLabel_eq_ok.mp had with ⟨_, _, _, _, rfl⟩
    rfl
  | imported ref route =>
    rcases Outcome.map_eq_ok.mp had with ⟨source, _, rfl⟩
    rfl
  | exported modulePath exportId =>
    rcases localLabel_eq_ok.mp had with ⟨_, _, _, _, rfl⟩
    rfl

/-- The module of an entry is a file, or content of another package. -/
theorem describesFile_of_primaryLabel {role : Role} {label : Label}
    (had : c.primaryLabel role = .ok label) :
    c.DescribesFile label ∨ label.annotations = some [(doNotStageKey, "true")] := by
  cases role with
  | handler modulePath route => exact Or.inl (describesFile_of_localLabel had)
  | imported ref route => exact Or.inr (annotations_of_primaryLabel had)
  | exported modulePath exportId => exact Or.inl (describesFile_of_localLabel had)

namespace Parts

variable {manifest : Manifest} (parts : c.Parts manifest)

theorem exists_of_mem_external {p : Parcel} (mem : p ∈ parts.external) :
    ∃ e ∈ manifest.matching c.values, ∃ q, c.DependsOnParcel e.role q ∧
      p.label = q.label.markedDoNotStage ∧ e.role.groupName ∈ p.memberGroups := by
  rcases Parcel.exists_of_mem_merge mem with ⟨copy, held, same, groups⟩
  rcases parts.mem_dependencies.mp held with ⟨e, kept, q, depends, rfl⟩
  exact ⟨e, kept, q, depends, same, groups (by simp)⟩

theorem exists_of_mem_matchedParcels {p : Parcel} (mem : p ∈ parts.matchedParcels) :
    ∃ e ∈ manifest.matching c.values, ∃ pattern ∈ e.files.getD [], ∃ path,
      c.PatternGives pattern path ∧
      c.localLabel e.role path (servingFeature none true) none = .ok p.label ∧
      e.role.groupName ∈ p.memberGroups := by
  rcases Parcel.exists_of_mem_merge mem with ⟨q, held, same, groups⟩
  rcases parts.mem_files.mp held with ⟨e, kept, pattern, asked, path, gives, had⟩
  rcases fileParcel_eq_ok.mp had with ⟨label, labelled, rfl⟩
  have named : p.label = label := same
  exact ⟨e, kept, pattern, asked, path, gives, named ▸ labelled, groups (by simp)⟩

/-- A parcel is the module of an entry, a dependency, or a matched file. -/
theorem cases_of_mem {p : Parcel} (mem : p ∈ parts.invoice.parcels) :
    (∃ role label, c.primaryLabel role = .ok label ∧ p = .requiring label role.groupName) ∨
      (∃ (role : Role) (label : Label), p.label = label.markedDoNotStage ∧
        role.groupName ∈ p.memberGroups) ∨
      ∃ (role : Role) (text : String), c.localLabel role (c.base.join text)
        (servingFeature none true) none = .ok p.label ∧ role.groupName ∈ p.memberGroups := by
  rcases List.mem_append.mp mem with front | file
  · rcases List.mem_append.mp front with primary | dependency
    · rcases Outcome.mem_of_forall₂ parts.primary_had primary with ⟨e, _, had⟩
      rcases primaryParcel_eq_ok.mp had with ⟨label, labelled, rfl⟩
      exact Or.inl ⟨e.role, label, labelled, rfl⟩
    · rcases parts.exists_of_mem_external dependency with ⟨e, _, q, _, marked, belongs⟩
      exact Or.inr (Or.inl ⟨e.role, q.label, marked, belongs⟩)
  · rcases parts.exists_of_mem_matchedParcels file with ⟨e, _, _, _, _, gives, labelled, belongs⟩
    rcases gives with ⟨_, _, ⟨text, _, rfl⟩, _⟩
    exact Or.inr (Or.inr ⟨e.role, text, labelled, belongs⟩)

/-- A parcel describes a file or is a reference. -/
theorem describesFile_or_isReference {p : Parcel} (mem : p ∈ parts.invoice.parcels) :
    c.DescribesFile p.label ∨ p.isReference = true := by
  rcases parts.cases_of_mem mem with
    ⟨role, label, had, rfl⟩ | ⟨role, q, marked, _⟩ | ⟨role, text, labelled, _⟩
  · rcases describesFile_of_primaryLabel had with file | marked
    · exact Or.inl file
    · refine Or.inr ?_
      simp [Parcel.isReference, Label.hasAnnotation, Label.annotation?, marked]
  · exact Or.inr (Parcel.isReference_markedDoNotStage marked)
  · exact Or.inl (describesFile_of_localLabel labelled)

/-- Nothing of a parcel is present and empty, but perhaps its features. -/
theorem nonempty_of_mem {p : Parcel} (mem : p ∈ parts.invoice.parcels) :
    p.label.annotations ≠ some [] ∧ p.conditions ≠ some ⟨none, none⟩ := by
  rcases parts.cases_of_mem mem with
    ⟨role, label, had, rfl⟩ | ⟨role, q, marked, belongs⟩ | ⟨role, text, labelled, belongs⟩
  · refine ⟨?_, Parcel.conditions_requiring label role⟩
    rw [Parcel.label_requiring, annotations_of_primaryLabel had]
    exact role.annotations_ne_nil
  · refine ⟨?_, Parcel.conditions_ne_of_memberGroups belongs⟩
    rw [marked]
    simpa [Label.markedDoNotStage] using TextMap.put_ne_nil _ _ _
  · refine ⟨?_, Parcel.conditions_ne_of_memberGroups belongs⟩
    rcases localLabel_eq_ok.mp labelled with ⟨_, _, _, _, label⟩
    rw [label]
    simp

end Parts

/-- What an expanded invoice does not merely refer to is a file. -/
theorem describesFile_of_expand {manifest : Manifest} {inv : Invoice}
    (expanded : (c.expand manifest).outcome = .ok inv) {p : Parcel} (mem : p ∈ inv.parcels)
    (own : p.isReference = false) : c.DescribesFile p.label := by
  rcases expand_eq_ok.mp expanded with ⟨parts, rfl⟩
  apply (parts.describesFile_or_isReference mem).resolve_right
  rw [own]
  exact Bool.false_ne_true

end ExpansionContext
end Consignment
