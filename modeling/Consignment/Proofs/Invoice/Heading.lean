import Consignment.Invoice.Decode
import Consignment.Proofs.Invoice.Identity
import Consignment.Proofs.Outcome

namespace Consignment

/-!
# The two headings of an invoice

A document names its package in one text, or apart in a header, and the header can hold the
description and the authors as well.  The two are read in different ways: the text is trimmed and
divided at its last slash, and refused where a half is empty, while the parts of a header are taken
as they are.

Everything below the heading is read alike.  So one document is read as the other with the id that
the text denotes, and the two mean the same precisely where the id that was put together is read
back from its text.
-/

namespace Invoice

/-- What a heading says of a package. -/
structure Heading where
  id : PackageId
  description : Option Value := none
  authors : Option Value := none

namespace Heading

variable {h : Heading} {rest : List (Value × Value)}

def extras (h : Heading) : List (Value × Value) :=
  (h.description.map fun v => (.text "description", v)).toList ++
    (h.authors.map fun v => (.text "authors", v)).toList

/-- The header that gives name and version apart. -/
def header (h : Heading) : List (Value × Value) :=
  (.text "name", .text h.id.name) :: (.text "version", .text h.id.version) :: h.extras

def apart (h : Heading) (rest : List (Value × Value)) : List (Value × Value) :=
  (.text "bindle", .map h.header) :: rest

/-- A document with the same heading at its top, where the package is named in one text. -/
def joined (h : Heading) (rest : List (Value × Value)) : List (Value × Value) :=
  (.text "package_id", .text h.id.text) :: (h.extras ++ rest)

/-- Entries that leave room for a heading: they hold nothing of what it gives. -/
structure Fits (h : Heading) (rest : List (Value × Value)) : Prop where
  header : Value.field? "bindle" rest = none
  id : Value.field? "package_id" rest = none
  description : h.description.isSome → Value.field? "description" rest = none
  authors : h.authors.isSome → Value.field? "authors" rest = none

/-! ## The two documents -/

theorem field?_apart {name : String} (other : name ≠ "bindle") :
    Value.field? name (h.apart rest) = Value.field? name rest := by
  simp [apart, Value.field?, other.symm]

theorem field?_joined {name : String} (id : name ≠ "package_id")
    (description : name ≠ "description") (authors : name ≠ "authors") :
    Value.field? name (h.joined rest) = Value.field? name rest := by
  cases known : h.description <;> cases signed : h.authors <;>
    simp [joined, extras, known, signed, Value.field?, id.symm, description.symm, authors.symm]

theorem headerOf_apart : headerOf (h.apart rest) = .ok h.header := rfl

theorem headerOf_joined (fits : h.Fits rest) : headerOf (h.joined rest) = .ok [] := by
  rw [headerOf, Value.entryOrNull, field?_joined (by decide) (by decide) (by decide), fits.header]
  rfl

theorem idOfEntries_apart (fits : h.Fits rest) (named : h.id.name ≠ "")
    (versioned : h.id.version ≠ "") : idOfEntries (h.apart rest) h.header = .ok h.id := by
  have parts : idOfEntries (h.apart rest) h.header =
      if (Value.text h.id.name).isVoid || (Value.text h.id.version).isVoid then
        .error (.invalid .noPackageId) else .ok h.id := by
    rw [idOfEntries, field?_apart (by decide), fits.id]
    rfl
  rw [parts, if_neg (by simp [Value.isVoid, named, versioned])]

theorem idOfEntries_joined :
    idOfEntries (h.joined rest) [] =
      match PackageId.ofText? h.id.text with
      | some id => .ok id
      | none => .error (.invalid (.packageId h.id.text)) := rfl

theorem description_joined (fits : h.Fits rest) :
    fieldOrHeader "description" (h.joined rest) [] =
      fieldOrHeader "description" (h.apart rest) h.header := by
  have free := fits.description
  cases known : h.description <;> cases signed : h.authors <;>
    simp_all [fieldOrHeader, joined, apart, header, extras, Value.field?, Value.entryOrNull]

theorem authors_joined (fits : h.Fits rest) :
    fieldOrHeader "authors" (h.joined rest) [] =
      fieldOrHeader "authors" (h.apart rest) h.header := by
  have free := fits.authors
  cases known : h.description <;> cases signed : h.authors <;>
    simp_all [fieldOrHeader, joined, apart, header, extras, Value.field?, Value.entryOrNull]

/-! ## Reading them -/

/-- The document with a text is read as the one with a header, but for the id, which is what the
text denotes. -/
theorem ofValue_joined (fits : h.Fits rest) (named : h.id.name ≠ "")
    (versioned : h.id.version ≠ "") :
    ofValue (.map (h.joined rest)) =
      match PackageId.ofText? h.id.text with
      | some id => (ofValue (.map (h.apart rest))).map ({ · with id })
      | none => .error (.invalid (.packageId h.id.text)) := by
  have groups : groupsOf (h.joined rest) = groupsOf (h.apart rest) := by
    rw [groupsOf, groupsOf, Value.entryOrNull, Value.entryOrNull,
      field?_joined (by decide) (by decide) (by decide), field?_apart (by decide)]
  have items : parcelItemsOf (h.joined rest) = parcelItemsOf (h.apart rest) := by
    rw [parcelItemsOf, parcelItemsOf, Value.entryOrNull, Value.entryOrNull,
      field?_joined (by decide) (by decide) (by decide), field?_apart (by decide)]
  have annotations : Value.entryOrNull "annotations" (h.joined rest) =
      Value.entryOrNull "annotations" (h.apart rest) := by
    rw [Value.entryOrNull, Value.entryOrNull,
      field?_joined (by decide) (by decide) (by decide), field?_apart (by decide)]
  simp only [ofValue, headerOf_joined fits, headerOf_apart, idOfEntries_joined,
    idOfEntries_apart fits named versioned, groups, items, annotations, description_joined fits,
    authors_joined fits, Outcome.ok_bind]
  cases PackageId.ofText? h.id.text with
  | none => rfl
  | some id =>
    cases groupsOf (h.apart rest) with
    | error => rfl
    | ok groups =>
    cases parcelItemsOf (h.apart rest) with
    | error => rfl
    | ok items =>
    simp only [Outcome.ok_bind]
    cases Value.textList? "authors" (fieldOrHeader "authors" (h.apart rest) h.header) with
    | error => rfl
    | ok authors =>
    cases Value.textMap? "annotations" (Value.entryOrNull "annotations" (h.apart rest)) with
    | error => rfl
    | ok annotations =>
    simp only [Outcome.ok_bind]
    cases items.mapM Parcel.ofValue <;> rfl

/-- The id of a header is taken as it is. -/
theorem id_of_apart {inv : Invoice} (fits : h.Fits rest) (named : h.id.name ≠ "")
    (versioned : h.id.version ≠ "") (read : ofValue (.map (h.apart rest)) = .ok inv) :
    inv.id = h.id := by
  simp only [ofValue, headerOf_apart, idOfEntries_apart fits named versioned, Outcome.ok_bind,
    Outcome.bind_eq_ok, Outcome.pure_eq_ok] at read
  rcases read with ⟨_, _, _, _, _, _, _, _, _, _, rfl⟩
  rfl

end Heading

/-- Two readings of a package have the same meaning: one invoice, or a refusal of the document. -/
def Agree (first second : Except Failure Invoice) : Prop :=
  (∃ inv, first = .ok inv ∧ second = .ok inv) ∨
    ∃ input other, first = .error (.invalid input) ∧ second = .error (.invalid other)

theorem agree_renamed {inv : Invoice} {id : PackageId} :
    Agree (.ok inv) (.ok { inv with id }) ↔ id = inv.id := by
  constructor
  · rintro (⟨_, same, renamed⟩ | ⟨_, _, failed, _⟩)
    · cases same
      exact congrArg Invoice.id (Except.ok.inj renamed)
    · cases failed
  · rintro rfl
    exact .inl ⟨inv, rfl, rfl⟩

/-- What the two headings of a package mean.  If the id is read back from its text, they are read
alike altogether.  They agree exactly if the document is refused already with the header, or it
is read and the id is read back. -/
theorem agree_headings {h : Heading} {rest : List (Value × Value)} (fits : h.Fits rest)
    (named : h.id.name ≠ "") (versioned : h.id.version ≠ "") :
    (h.id.Rereadable → ofValue (.map (h.joined rest)) = ofValue (.map (h.apart rest))) ∧
      (Agree (ofValue (.map (h.apart rest))) (ofValue (.map (h.joined rest))) ↔
        (∃ input, ofValue (.map (h.apart rest)) = .error (.invalid input)) ∨
          (∃ inv, ofValue (.map (h.apart rest)) = .ok inv) ∧ h.id.Rereadable) := by
  have joined := Heading.ofValue_joined fits named versioned
  have taken := fun inv => @Heading.id_of_apart h rest inv fits named versioned
  generalize ofValue (.map (h.apart rest)) = first at joined taken
  rw [joined, ← PackageId.ofText?_text]
  constructor
  · intro rereadable
    rw [rereadable]
    cases first with
    | error failure => rfl
    | ok inv => simp [Except.map, ← taken inv rfl]
  · cases first with
    | error failure =>
      cases PackageId.ofText? h.id.text <;> simp [Agree, Except.map]
    | ok inv =>
      have same := taken inv rfl
      cases denoted : PackageId.ofText? h.id.text with
      | none => simp [Agree]
      | some id =>
        have renamed : Agree (.ok inv) (Except.map ({ · with id }) (.ok inv)) ↔ id = inv.id :=
          agree_renamed
        rw [renamed, same, Option.some.injEq]
        simp

/-- A heading with a description. -/
def harvest : Heading where
  id := ⟨"shared/wheat", "1.0.0"⟩
  description := some (.text "d")

/-- A parcel to stand below it. -/
def sheaf : List (Value × Value) :=
  [(.text "parcel", .list [.record [("label", .record [("name", .text "a"),
    ("sha256", .text "s"), ("size", .int 1)])]])]

theorem agree_headings_harvest :
    harvest.Fits sheaf ∧
      Agree (ofValue (.map (harvest.apart sheaf))) (ofValue (.map (harvest.joined sheaf))) := by
  have fits : harvest.Fits sheaf := by constructor <;> decide
  have rereadable : harvest.id.Rereadable := PackageId.ofText?_text.mp (by decide +kernel)
  have agree := (agree_headings fits (by decide) (by decide)).2
  exact ⟨fits, agree.mpr (.inr ⟨⟨_, rfl⟩, rereadable⟩)⟩

/-- A heading whose version holds a slash. -/
def slashed : Heading where
  id := ⟨"a", "b/c"⟩

/-- The text divides the id at another place than the header does. -/
theorem not_agree_slashed :
    slashed.Fits [] ∧ slashed.id.name ≠ "" ∧ slashed.id.version ≠ "" ∧
      ¬ Agree (ofValue (.map (slashed.apart []))) (ofValue (.map (slashed.joined []))) := by
  have fits : slashed.Fits [] := by constructor <;> decide
  have named : slashed.id.name ≠ "" := by decide
  have versioned : slashed.id.version ≠ "" := by decide
  have divided : PackageId.ofText? slashed.id.text = some ⟨"a/b", "c"⟩ := by decide +kernel
  refine ⟨fits, named, versioned, ?_⟩
  rw [Heading.ofValue_joined fits named versioned, divided]
  exact fun agree => absurd (agree_renamed.mp agree) (by decide)

end Invoice
end Consignment
