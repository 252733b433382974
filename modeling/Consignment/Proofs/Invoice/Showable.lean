import Consignment.Invoice.Encode
import Consignment.Proofs.Value.Showable

namespace Consignment

/-!
# Invoices that can be written out

An invoice is written out as texts and sizes, and with the description that its document had.  So
whether this can be done depends on the description and the sizes only.
-/

/-- A label is written out if its size can be. -/
theorem Label.isShowable_toValue (label : Label) :
    label.toValue.isShowable = true ↔ (Value.int label.size).isShowable = true := by
  have features (fs : FeatureMap) :
      (Value.record (fs.map fun f => (f.1, Value.textMap f.2))).isShowable = true := by
    rw [Value.isShowable_record, List.forall_mem_map]
    exact fun f _ => Value.isShowable_textMap f.2
  have alone {name : String} {v : Value} (shown : v.isShowable = true) :
      ∀ field ∈ [(name, v)], field.2.isShowable = true :=
    List.forall_mem_singleton.mpr shown
  have none {P : String × Value → Prop} : ∀ field ∈ [], P field := List.forall_mem_nil P
  unfold toValue
  simp only [Value.isShowable_record, List.forall_mem_append, List.forall_mem_cons,
    Value.isShowable_text, true_and]
  constructor
  · rintro ⟨⟨⟨size, _⟩, _⟩, _⟩
    exact size
  · intro size
    refine ⟨⟨⟨size, none⟩, ?_⟩, ?_⟩
    · split
      · exact none
      · exact none
      · exact alone (features _)
    · split
      · exact none
      · exact none
      · exact alone (Value.isShowable_textMap _)

theorem Membership.isShowable_fields (m : Membership) :
    ∀ field ∈ m.fields, field.2.isShowable = true := by
  have shown (name : String) (groups : List String) :
      ∀ field ∈ [(name, Value.texts groups)], field.2.isShowable = true :=
    List.forall_mem_singleton.mpr (Value.isShowable_texts groups)
  rcases m with ⟨_ | memberOf, _ | requires⟩
  · exact List.forall_mem_nil _
  · exact shown "requires" requires
  · exact shown "memberOf" memberOf
  · exact List.forall_mem_append.mpr ⟨shown "memberOf" memberOf, shown "requires" requires⟩

/-- A parcel is written out if its size can be. -/
theorem Parcel.isShowable_toValue (p : Parcel) :
    p.toValue.isShowable = true ↔ (Value.int p.label.size).isShowable = true := by
  rw [← Label.isShowable_toValue]
  unfold toValue
  rw [Value.isShowable_record, List.forall_mem_cons]
  refine and_iff_left ?_
  split
  · exact List.forall_mem_nil _
  · rename_i m _
    have fields := m.isShowable_fields
    split
    · exact List.forall_mem_nil _
    · exact List.forall_mem_singleton.mpr (Value.isShowable_record.mpr fields)

/-- An invoice is written out if its description and the sizes of its parcels can be. -/
theorem Invoice.isShowable_toValue (inv : Invoice) :
    inv.toValue.isShowable = true ↔ inv.description.isShowable = true ∧
      ∀ p ∈ inv.parcels, (Value.int p.label.size).isShowable = true := by
  have parcels : (Value.list (inv.parcels.map Parcel.toValue)).isShowable = true ↔
      ∀ p ∈ inv.parcels, (Value.int p.label.size).isShowable = true := by
    simp only [Value.isShowable_list, List.forall_mem_map, Parcel.isShowable_toValue]
  have groups : (Value.list (inv.groups.map fun name =>
      Value.record [("name", .text name)])).isShowable = true := by
    rw [Value.isShowable_list, List.forall_mem_map]
    exact fun name _ => rfl
  have none {P : String × Value → Prop} : ∀ field ∈ [], P field := List.forall_mem_nil P
  unfold toValue
  simp only [Value.isShowable_record, List.forall_mem_append, List.forall_mem_cons,
    Value.isShowable_text, true_and, parcels, groups]
  constructor
  · rintro ⟨⟨⟨⟨_, described⟩, _⟩, _⟩, sizes, _⟩
    refine ⟨?_, sizes⟩
    split at described
    · rename_i absent
      rw [absent]
      rfl
    · exact described _ (List.mem_singleton_self _)
  · rintro ⟨described, sizes⟩
    refine ⟨⟨⟨⟨none, ?_⟩, ?_⟩, ?_⟩, sizes, none⟩
    · split
      · exact none
      · exact List.forall_mem_singleton.mpr described
    · split
      · exact none
      · exact List.forall_mem_singleton.mpr (Value.isShowable_texts _)
    · split
      · exact none
      · exact List.forall_mem_singleton.mpr (Value.isShowable_textMap _)

end Consignment
