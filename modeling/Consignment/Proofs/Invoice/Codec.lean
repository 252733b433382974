import Consignment.Invoice.Decode
import Consignment.Invoice.Encode
import Consignment.Proofs.Invoice.Identity
import Consignment.Proofs.Outcome

namespace Consignment

/-!
# Reading back an invoice

Reading the document of an invoice gives the invoice back, but for two things.  The id is
what its written form denotes, which need not be the id.  And what a document does not
tell from absence is read as absent: `kept` is what remains.  Both are necessary and
sufficient, so the round trip is characterised exactly.

The features of a label are a mapping, so their names are taken to be distinct.
-/

namespace Value

/-- A record is looked up by its names. -/
@[simp] theorem field?_record (name : String) (fields : List (String × Value)) :
    field? name (fields.map fun field => (text field.1, field.2)) = fields.lookup name := by
  induction fields with
  | nil => rfl
  | cons first rest ih =>
    rw [List.map_cons, field?, List.lookup_cons, ih, BEq.comm]
    cases name == first.1 <;> rfl

theorem allTexts_texts (names : List String) : allTexts (names.map text) = some names := by
  induction names with
  | nil => rfl
  | cons name rest ih =>
    rw [List.map_cons, allTexts, ih]
    rfl

theorem allTextEntries_textMap (fields : List (String × String)) :
    allTextEntries (fields.map fun field => (text field.1, text field.2)) = some fields := by
  induction fields with
  | nil => rfl
  | cons field rest ih =>
    rw [List.map_cons, allTextEntries, ih]
    rfl

/-- A list of texts is read back, and so is the absence of one. -/
@[simp] theorem textList?_getD (field : String) (names : Option (List String)) :
    textList? field ((names.map texts).getD .null) = .ok names := by
  cases names with
  | none => rfl
  | some names => simp [textList?, texts, allTexts_texts]

@[simp] theorem textMap?_textMap (field : String) (fields : TextMap) :
    textMap? field (textMap fields) = .ok (some fields) := by
  have entries := allTextEntries_textMap fields
  simp [textMap?, textMap, record, Function.comp_def, entries]

@[simp] theorem textMap?_getD (field : String) (fields : Option TextMap) :
    textMap? field ((fields.map textMap).getD .null) = .ok fields := by
  cases fields with
  | none => rfl
  | some fields => exact textMap?_textMap field fields

/-! ## Features -/

theorem put_eq_append {name : String} {texts : TextMap} {done : FeatureMap}
    (fresh : name ∉ done.map Prod.fst) :
    featureEntries.put name texts done = done ++ [(name, texts)] := by
  induction done with
  | nil => rfl
  | cons first rest ih =>
    rcases first with ⟨other, held⟩
    rw [List.map_cons, List.mem_cons, not_or] at fresh
    rw [featureEntries.put, if_neg (Ne.symm fresh.1), ih fresh.2, List.cons_append]

theorem featureEntries_record (field : String) {features done : FeatureMap}
    (distinct : ((done ++ features).map Prod.fst).Nodup) :
    featureEntries field (features.map fun f => (text f.1, textMap f.2)) done =
      .ok (done ++ features) := by
  induction features generalizing done with
  | nil => rw [List.append_nil]; rfl
  | cons first rest ih =>
    have fresh : first.1 ∉ done.map Prod.fst := by
      rw [List.map_append, List.nodup_append] at distinct
      intro mem
      exact distinct.2.2 _ mem _ List.mem_cons_self rfl
    have joined : done ++ first :: rest = done ++ [first] ++ rest := by
      rw [List.append_assoc, List.singleton_append]
    rw [List.map_cons, featureEntries, written_text, Outcome.mapError_ok, Outcome.ok_bind,
      textMap?_textMap, Outcome.ok_bind, Option.getD_some, put_eq_append fresh, ih, joined]
    rwa [joined] at distinct

@[simp] theorem featureMap?_record (field : String) {features : FeatureMap}
    (distinct : (features.map Prod.fst).Nodup) :
    featureMap? field (record (features.map fun f => (f.1, textMap f.2))) =
      .ok (some features) := by
  have entries : featureEntries field (features.map fun f => (text f.1, textMap f.2)) [] =
      .ok features := featureEntries_record field distinct
  simp only [featureMap?, record, List.map_map, Function.comp_def, entries]
  rfl

end Value

/-- Leaving something out changes nothing when it is not there. -/
theorem filter_ne_eq_self {α : Type} [DecidableEq α] {left : α} {held : Option α} :
    held.filter (· ≠ left) = held ↔ held ≠ some left := by
  cases held with
  | none => simp
  | some a =>
    by_cases same : a = left
    · simp [same]
    · simp [same]

/-! ## Labels -/

namespace Label

/-- What a document keeps of a label. -/
def kept (label : Label) : Label :=
  { label with
    feature := label.feature.filter (· ≠ [])
    annotations := label.annotations.filter (· ≠ []) }

/-- The features of a label have distinct names. -/
def DistinctFeatures (label : Label) : Prop :=
  ∀ features, label.feature = some features → (features.map Prod.fst).Nodup

theorem kept_eq_self {label : Label} :
    label.kept = label ↔ label.feature ≠ some [] ∧ label.annotations ≠ some [] := by
  rcases label with ⟨name, sha256, mediaType, size, feature, annotations⟩
  rw [← filter_ne_eq_self, ← filter_ne_eq_self]
  simp [kept]

def featureValue (label : Label) : Value :=
  match label.feature with
  | none | some [] => .null
  | some features => .record (features.map fun f => (f.1, Value.textMap f.2))

def annotationsValue (label : Label) : Value :=
  match label.annotations with
  | none | some [] => .null
  | some texts => .textMap texts

theorem featureMap?_featureValue (field : String) {label : Label}
    (distinct : label.DistinctFeatures) :
    Value.featureMap? field label.featureValue = .ok (label.feature.filter (· ≠ [])) := by
  unfold featureValue
  cases found : label.feature with
  | none => rfl
  | some features =>
    cases features with
    | nil => rfl
    | cons first rest => exact Value.featureMap?_record field (distinct _ found)

theorem textMap?_annotationsValue (field : String) (label : Label) :
    Value.textMap? field label.annotationsValue = .ok (label.annotations.filter (· ≠ [])) := by
  unfold annotationsValue
  cases label.annotations with
  | none => rfl
  | some texts =>
    cases texts with
    | nil => rfl
    | cons first rest => exact Value.textMap?_textMap field _

/-- The fields of the document of a label. -/
theorem lookup_toValue (label : Label) :
    ∃ fields, label.toValue = .record fields ∧
      fields.lookup "name" = some (.text label.name) ∧
      fields.lookup "sha256" = some (.text label.sha256) ∧
      fields.lookup "mediaType" = some (.text label.mediaType) ∧
      fields.lookup "size" = some (.int label.size) ∧
      (fields.lookup "feature").getD .null = label.featureValue ∧
      (fields.lookup "annotations").getD .null = label.annotationsValue := by
  refine ⟨_, rfl, rfl, rfl, rfl, rfl, ?_, ?_⟩
  · rcases label with ⟨name, sha256, mediaType, size, _ | _ | _, _ | _ | _⟩ <;> rfl
  · rcases label with ⟨name, sha256, mediaType, size, _ | _ | _, _ | _ | _⟩ <;> rfl

theorem ofValue_toValue {label : Label} (distinct : label.DistinctFeatures) :
    ofValue label.toValue = .ok label.kept := by
  rcases label.lookup_toValue with
    ⟨fields, record, name, sha256, mediaType, size, feature, annotations⟩
  rw [record, Value.record, ofValue]
  simp only [Value.field?_record, Value.entryOrNull, name, sha256, mediaType, size, feature,
    annotations, Outcome.ok_bind, Option.getD_some, Value.written_text,
    Value.toInteger, Outcome.mapError_ok, featureMap?_featureValue _ distinct,
    textMap?_annotationsValue]
  rfl

end Label

/-! ## Parcels -/

namespace Parcel

/-- What a document keeps of a parcel. -/
def kept (p : Parcel) : Parcel :=
  ⟨p.label.kept, p.conditions.filter (· ≠ ⟨none, none⟩)⟩

theorem kept_eq_self {p : Parcel} :
    p.kept = p ↔ (p.label.feature ≠ some [] ∧ p.label.annotations ≠ some []) ∧
      p.conditions ≠ some ⟨none, none⟩ := by
  rw [← Label.kept_eq_self, ← filter_ne_eq_self]
  rcases p with ⟨label, conditions⟩
  simp [kept]

def conditionsValue (p : Parcel) : Value :=
  match p.conditions with
  | none | some ⟨none, none⟩ => .null
  | some m => .record m.fields

theorem membershipOfValue_fields {m : Membership} (some : m ≠ ⟨none, none⟩) :
    membershipOfValue (.record m.fields) = .ok (.some m) := by
  have memberOf : (m.fields.lookup "memberOf").getD .null =
      (m.memberOf.map Value.texts).getD .null := by
    rcases m with ⟨_ | _, _ | _⟩ <;> rfl
  have requires : (m.fields.lookup "requires").getD .null =
      (m.requires.map Value.texts).getD .null := by
    rcases m with ⟨_ | _, _ | _⟩ <;> rfl
  have full : (Value.record m.fields).isVoid = false := by
    rcases m with ⟨_ | _, _ | _⟩ <;> first | rfl | exact absurd rfl some
  unfold membershipOfValue
  rw [full, Value.record]
  simp only [Bool.false_eq_true, if_false, Value.entryOrNull, Value.field?_record, memberOf,
    requires, Value.textList?_getD, Outcome.ok_bind]
  rfl

theorem membershipOfValue_conditionsValue (p : Parcel) :
    membershipOfValue p.conditionsValue = .ok (p.conditions.filter (· ≠ ⟨none, none⟩)) := by
  unfold conditionsValue
  cases found : p.conditions with
  | none => rfl
  | some m =>
    by_cases empty : m = ⟨none, none⟩
    · rw [empty]
      rfl
    · have filtered : (some m).filter (· ≠ (⟨none, none⟩ : Membership)) = some m := by
        simp [empty]
      rw [filtered, ← membershipOfValue_fields empty]
      rcases m with ⟨_ | _, _ | _⟩ <;> rfl

theorem lookup_toValue (p : Parcel) :
    ∃ fields, p.toValue = .record fields ∧
      fields.lookup "label" = some p.label.toValue ∧
      (fields.lookup "conditions").getD .null = p.conditionsValue := by
  refine ⟨_, rfl, rfl, ?_⟩
  rcases p with ⟨label, _ | ⟨_ | _, _ | _⟩⟩ <;> rfl

theorem ofValue_toValue {p : Parcel} (distinct : p.label.DistinctFeatures) :
    ofValue p.toValue = .ok p.kept := by
  rcases p.lookup_toValue with ⟨fields, record, label, conditions⟩
  rw [record, Value.record, ofValue]
  simp only [Value.field?_record, Value.entryOrNull, label, conditions, Outcome.ok_bind,
    membershipOfValue_conditionsValue, Label.ofValue_toValue distinct]
  rfl

end Parcel

/-! ## Invoices -/

namespace Invoice

/-- What a document keeps of an invoice. -/
def kept (inv : Invoice) : Invoice :=
  { inv with parcels := inv.parcels.map Parcel.kept }

/-- The features of every label have distinct names. -/
def DistinctFeatures (inv : Invoice) : Prop :=
  ∀ p ∈ inv.parcels, p.label.DistinctFeatures

theorem lookup_toValue (inv : Invoice) :
    ∃ fields, inv.toValue = .record fields ∧
      fields.lookup "bindle" = none ∧
      fields.lookup "package_id" = some (.text inv.id.text) ∧
      (fields.lookup "description").getD .null = inv.description ∧
      (fields.lookup "authors").getD .null = (inv.authors.map Value.texts).getD .null ∧
      (fields.lookup "annotations").getD .null = (inv.annotations.map Value.textMap).getD .null ∧
      fields.lookup "parcel" = some (.list (inv.parcels.map Parcel.toValue)) ∧
      fields.lookup "group" =
        some (.list (inv.groups.map fun name => .record [("name", .text name)])) := by
  rcases inv with ⟨id, description, authors, annotations, parcels, groups⟩
  refine ⟨_, rfl, ?_, rfl, ?_, ?_, ?_, ?_, ?_⟩
  all_goals cases description <;> cases authors <;> cases annotations <;> rfl

theorem mapM_ofValue {parcels : List Parcel} (distinct : ∀ p ∈ parcels, p.label.DistinctFeatures) :
    (parcels.map Parcel.toValue).mapM Parcel.ofValue = .ok (parcels.map Parcel.kept) := by
  rw [Outcome.mapM_eq_ok, List.forall₂_map_left_iff, List.forall₂_map_right_iff,
    List.forall₂_same]
  intro p mem
  exact Parcel.ofValue_toValue (distinct p mem)

theorem mapM_groupOfValue (groups : List String) :
    (groups.map fun name => Value.record [("name", .text name)]).mapM groupOfValue =
      .ok groups := by
  rw [Outcome.mapM_eq_ok, List.forall₂_map_left_iff, List.forall₂_same]
  intro name _
  rfl

/-- The groups of a document are read back; where there are none, nothing is taken apart. -/
theorem groupsOf_eq_ok {fields : List (Value × Value)} {groups : List String}
    (held : Value.entryOrNull "group" fields =
      .list (groups.map fun name => .record [("name", .text name)])) :
    groupsOf fields = .ok groups := by
  unfold groupsOf
  rw [held]
  cases groups with
  | nil => rfl
  | cons first rest => exact mapM_groupOfValue (first :: rest)

/-- Reading the document of an invoice: what is kept of it, with the id that its written
form denotes. -/
theorem ofValue_toValue {inv : Invoice} (distinct : inv.DistinctFeatures) :
    ofValue inv.toValue =
      match PackageId.ofText? inv.id.text with
      | some id => .ok { inv.kept with id }
      | none => .error (.invalid (.packageId inv.id.text)) := by
  rcases inv.lookup_toValue with
    ⟨fields, record, header, id, description, authors, annotations, parcel, group⟩
  have noHeader : headerOf (fields.map fun field => (.text field.1, field.2)) = .ok [] := by
    simp only [headerOf, Value.entryOrNull, Value.field?_record, header]
    rfl
  have groups : groupsOf (fields.map fun field => (.text field.1, field.2)) = .ok inv.groups := by
    apply groupsOf_eq_ok
    simp only [Value.entryOrNull, Value.field?_record, group]
    rfl
  have items : parcelItemsOf (fields.map fun field => (.text field.1, field.2)) =
      .ok (inv.parcels.map Parcel.toValue) := by
    simp only [parcelItemsOf, Value.entryOrNull, Value.field?_record, parcel]
    rfl
  rw [record, Value.record, ofValue]
  simp only [noHeader, groups, items, Outcome.ok_bind, idOfEntries, Value.field?_record, id,
    Value.written_text, Outcome.mapError_ok]
  cases PackageId.ofText? inv.id.text with
  | none => rfl
  | some id =>
    -- nothing stands in the header
    have none (name : String) : Value.field? name [] = none := rfl
    simp only [pure_bind, fieldOrHeader, Value.field?_record, Value.entryOrNull, none,
      Option.getD_none, authors, annotations, description, Value.textList?_getD,
      Value.textMap?_getD, mapM_ofValue distinct, Outcome.ok_bind]
    rfl

theorem kept_eq_self {inv : Invoice} :
    inv.kept = inv ↔ ∀ p ∈ inv.parcels, p.kept = p := by
  have parcels : inv.kept = inv ↔ inv.parcels.map Parcel.kept = inv.parcels := by
    rcases inv with ⟨id, description, authors, annotations, parcels, groups⟩
    simp [kept]
  have each := List.map_inj_left (l := inv.parcels) (f := Parcel.kept) (g := fun p => p)
  rw [List.map_id'] at each
  rw [parcels, each]

/-- The document of an invoice is read back as the invoice exactly when the id is read back
from its written form and nothing that is present and empty is left out. -/
theorem ofValue_toValue_eq_self {inv : Invoice} (distinct : inv.DistinctFeatures) :
    ofValue inv.toValue = .ok inv ↔ inv.id.Rereadable ∧ ∀ p ∈ inv.parcels, p.kept = p := by
  rw [ofValue_toValue distinct, ← PackageId.ofText?_text, ← kept_eq_self]
  cases PackageId.ofText? inv.id.text with
  | none => simp
  | some id =>
    simp only [Except.ok.injEq, Option.some.injEq]
    constructor
    · intro same
      have sameId : id = inv.id := congrArg Invoice.id same
      subst sameId
      exact ⟨rfl, same⟩
    · rintro ⟨rfl, same⟩
      exact same

end Invoice
end Consignment
