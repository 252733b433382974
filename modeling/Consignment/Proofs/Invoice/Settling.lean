import Consignment.Proofs.Invoice.Codec

namespace Consignment

/-!
# Documents of invoices settle

The same invoice can be written down in many ways: a name may be a number, a size a text, a
feature null, the names of features anything, a condition empty, and the id may have blanks
around it.  Reading makes plain texts and numbers of all these, and it keeps some of what is
present and empty, which writing then leaves out.  So the document of an invoice need not be
the one that the invoice was read from, and reading it again need not give the same invoice.

It gives what a document keeps of the invoice, and that has the same document.  Two facts
carry this: reading never lists a feature twice, even where different keys are the same plain
text, and an id that was read from a text is read back from its written form.  The second
is why documents with an id are meant here.  A header gives name and version apart, and an id
that is put together from it need not be read back.
-/

namespace Value

variable {field name : String} {texts : TextMap} {done features : FeatureMap}

/-! ## Names of features -/

theorem mem_names_put {other : String} :
    other ∈ (featureEntries.put name texts done).map Prod.fst ↔
      other = name ∨ other ∈ done.map Prod.fst := by
  induction done with
  | nil => simp [featureEntries.put]
  | cons first rest ih =>
    rcases first with ⟨key, held⟩
    rw [featureEntries.put]
    split
    · rename_i same
      simp [same]
    · simp only [List.map_cons, List.mem_cons, ih]
      exact or_left_comm

theorem nodup_names_put (distinct : (done.map Prod.fst).Nodup) :
    ((featureEntries.put name texts done).map Prod.fst).Nodup := by
  induction done with
  | nil => simp [featureEntries.put]
  | cons first rest ih =>
    rcases first with ⟨key, held⟩
    rcases List.nodup_cons.mp distinct with ⟨fresh, later⟩
    rw [featureEntries.put]
    split
    · exact distinct
    · rename_i differs
      refine List.nodup_cons.mpr ⟨?_, ih later⟩
      rw [mem_names_put, not_or]
      exact ⟨differs, fresh⟩

/-- However the keys of a mapping are spelled, no feature is listed twice. -/
theorem nodup_names_of_featureEntries {entries : List (Value × Value)}
    (distinct : (done.map Prod.fst).Nodup) (read : featureEntries field entries done = .ok features) :
    (features.map Prod.fst).Nodup := by
  induction entries generalizing done with
  | nil =>
    cases read
    exact distinct
  | cons entry rest ih =>
    simp only [featureEntries, Outcome.bind_eq_ok] at read
    rcases read with ⟨_, _, _, _, others⟩
    exact ih (nodup_names_put distinct) others

theorem nodup_names_of_featureMap? {v : Value} (read : featureMap? field v = .ok (some features)) :
    (features.map Prod.fst).Nodup := by
  unfold featureMap? at read
  split at read
  · exact absurd read (by simp)
  · rcases Outcome.map_eq_ok.mp read with ⟨_, entries, same⟩
    cases same
    have none : (([] : FeatureMap).map Prod.fst).Nodup := List.nodup_nil
    exact nodup_names_of_featureEntries none entries
  · exact absurd read (by simp)

end Value

/-! ## What is read has distinct features, and what is kept has the same document -/

theorem Label.distinctFeatures_of_ofValue {v : Value} {label : Label}
    (read : ofValue v = .ok label) : label.DistinctFeatures := by
  unfold ofValue at read
  split at read
  · simp only [Outcome.bind_eq_ok, Outcome.pure_eq_ok] at read
    rcases read with ⟨_, _, _, _, _, _, _, _, found, feature, _, _, rfl⟩
    intro features held
    obtain rfl : found = some features := held
    exact Value.nodup_names_of_featureMap? feature
  · exact absurd read (by simp)

theorem Label.toValue_kept (label : Label) : label.kept.toValue = label.toValue := by
  rcases label with ⟨name, sha256, mediaType, size, _ | _ | _, _ | _ | _⟩ <;> rfl

theorem Parcel.distinctFeatures_of_ofValue {v : Value} {p : Parcel} (read : ofValue v = .ok p) :
    p.label.DistinctFeatures := by
  unfold ofValue at read
  split at read
  · split at read
    · exact absurd read (by simp)
    · simp only [Outcome.bind_eq_ok, Outcome.pure_eq_ok] at read
      rcases read with ⟨_, _, _, label, rfl⟩
      exact Label.distinctFeatures_of_ofValue label
  · exact absurd read (by simp)

theorem Parcel.toValue_kept (p : Parcel) : p.kept.toValue = p.toValue := by
  have labels := p.label.toValue_kept
  rcases p with ⟨label, _ | ⟨_ | _, _ | _⟩⟩ <;> simp only [kept, toValue] <;> rw [labels] <;> rfl

namespace Invoice

variable {entries : List (Value × Value)} {v : Value} {inv : Invoice}

theorem toValue_kept (inv : Invoice) : inv.kept.toValue = inv.toValue := by
  have parcels : (inv.parcels.map Parcel.kept).map Parcel.toValue =
      inv.parcels.map Parcel.toValue := by
    rw [List.map_map]
    exact List.map_congr_left fun p _ => p.toValue_kept
  unfold toValue
  simp only [kept, parcels]

theorem distinctFeatures_of_ofValue (read : ofValue v = .ok inv) : inv.DistinctFeatures := by
  unfold ofValue at read
  split at read
  · simp only [Outcome.bind_eq_ok, Outcome.pure_eq_ok, Outcome.mapM_eq_ok] at read
    rcases read with ⟨_, _, _, _, _, _, _, _, _, _, _, _, parcels, each, rfl⟩
    intro p mem
    rcases Outcome.mem_of_forall₂ each mem with ⟨item, _, had⟩
    exact Parcel.distinctFeatures_of_ofValue had
  · exact absurd read (by simp)

/-- An id that is written out is read back, whatever it was written in. -/
theorem rereadable_of_ofValue (named : (Value.field? "package_id" entries).isSome)
    (read : ofValue (.map entries) = .ok inv) : inv.id.Rereadable := by
  rcases Option.isSome_iff_exists.mp named with ⟨written, found⟩
  simp only [ofValue, Outcome.bind_eq_ok, Outcome.pure_eq_ok] at read
  rcases read with ⟨_, _, id, identified, _, _, _, _, _, _, _, _, _, _, rfl⟩
  simp only [idOfEntries, found, Outcome.bind_eq_ok] at identified
  rcases identified with ⟨text, _, parsed⟩
  split at parsed
  · rename_i known
    cases Outcome.pure_eq_ok.mp parsed
    exact PackageId.rereadable_of_ofText? known
  · exact absurd parsed (by simp)

/-- Reading the document of an invoice that was read gives what a document keeps of it. -/
theorem ofValue_toValue_of_ofValue (named : (Value.field? "package_id" entries).isSome)
    (read : ofValue (.map entries) = .ok inv) : ofValue inv.toValue = .ok inv.kept := by
  rw [ofValue_toValue (distinctFeatures_of_ofValue read),
    PackageId.ofText?_text.mpr (rereadable_of_ofValue named read)]
  rfl

/-! ## Passes -/

/-- A document after so many passes.  In each it is read, and the invoice is written. -/
def passes : Nat → Value → Except Failure Value
  | 0, v => .ok v
  | count + 1, v => do passes count (← ofValue v).toValue

/-- A document is settled: the invoice that is read from it has no other document. -/
def Settled (v : Value) : Prop :=
  ∃ inv, ofValue v = .ok inv ∧ inv.toValue = v

theorem Settled.passes (settled : Settled v) (count : Nat) : passes count v = .ok v := by
  rcases settled with ⟨inv, read, same⟩
  induction count with
  | zero => rfl
  | succ count ih => rw [Invoice.passes, read, Outcome.ok_bind, same, ih]

/-- A document with an id settles in one pass: the invoice that is read from it has a document
that is read again, as what a document keeps of the invoice, and that has the same document.
No later pass changes anything. -/
theorem settled_of_ofValue (named : (Value.field? "package_id" entries).isSome)
    (read : ofValue (.map entries) = .ok inv) :
    ofValue inv.toValue = .ok inv.kept ∧ inv.kept.toValue = inv.toValue ∧
      ∀ count, passes (count + 1) (.map entries) = .ok inv.toValue := by
  have again := ofValue_toValue_of_ofValue named read
  have settled : Settled inv.toValue := ⟨inv.kept, again, toValue_kept inv⟩
  refine ⟨again, toValue_kept inv, ?_⟩
  intro count
  rw [passes, read, Outcome.ok_bind]
  exact settled.passes count

/-- A document with blanks around the id, a number for a name, a text for a size, features of
which two have the same name and one is null, and with annotations and conditions that are
empty. -/
def sloppy : List (Value × Value) :=
  [(.text "package_id", .text " styles/1\n"),
    (.text "group", .list [.record [("name", .int 3)]]),
    (.text "parcel", .list [.record [
      ("label", .record [("name", .int 7), ("sha256", .text "ab"), ("size", .text " 1_0"),
        ("feature", .map [(.int 1, .null), (.text "1", .textMap [("a", "b")]), (.bool true, .null)]),
        ("annotations", .record [])]),
      ("conditions", .record [("memberOf", .null)])]])]

/-- The invoice that is read from it is not the one that is read back, and the document is. -/
theorem settled_of_ofValue_sloppy :
    ∃ inv, ofValue (.map sloppy) = .ok inv ∧
      inv.parcels.map (·.label.feature) = [some [("1", [("a", "b")]), ("True", [])]] ∧
      inv.kept.parcels ≠ inv.parcels ∧
      ofValue inv.toValue = .ok inv.kept ∧ inv.kept.toValue = inv.toValue ∧
      ∀ count, passes (count + 1) (.map sloppy) = .ok inv.toValue := by
  have evaluated : ((ofValue (.map sloppy)).map fun inv =>
      decide (inv.parcels.map (·.label.feature) = [some [("1", [("a", "b")]), ("True", [])]]) &&
        decide (inv.kept.parcels ≠ inv.parcels)).toOption = some true := by
    decide +kernel
  rcases Outcome.exists_of_toOption evaluated with ⟨inv, read, facts⟩
  rw [Bool.and_eq_true, decide_eq_true_eq, decide_eq_true_eq] at facts
  exact ⟨inv, read, facts.1, facts.2, settled_of_ofValue (by decide) read⟩

end Invoice
end Consignment
