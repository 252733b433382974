import Consignment.Manifest.Decode
import Consignment.Proofs.Invoice.Codec

namespace Consignment

/-!
# The fields of a manifest

Each field of a manifest is read by one of a few functions.  For each of them a lemma says
when it succeeds and with what: the document holds, in the place of the field, what the result
is written as.  An absent result is written as null, and a field that is not there counts as
null, so that nothing else can be read as absent.
-/

namespace Value

theorem allTexts_eq_some {items : List Value} {names : List String} :
    allTexts items = some names ↔ items = names.map text := by
  constructor
  · intro read
    induction items generalizing names with
    | nil =>
      cases read
      rfl
    | cons item rest ih =>
      cases item with
      | text s =>
        rcases Option.map_eq_some_iff.mp read with ⟨others, readRest, rfl⟩
        rw [ih readRest, List.map_cons]
      | _ => cases read
  · rintro rfl
    exact allTexts_texts names

/-- A list is written from names exactly when these are the texts that it holds. -/
theorem list_eq_texts {items : List Value} {names : List String} :
    list items = texts names ↔ allTexts items = some names := by
  rw [allTexts_eq_some, texts, list.injEq]

theorem allTextEntries_eq_some {entries : List (Value × Value)} {fields : List (String × String)} :
    allTextEntries entries = some fields ↔
      entries = fields.map fun field => (text field.1, text field.2) := by
  constructor
  · intro read
    induction entries generalizing fields with
    | nil =>
      cases read
      rfl
    | cons entry rest ih =>
      rcases entry with ⟨key, value⟩
      cases key with
      | text name =>
        cases value with
        | text s =>
          rcases Option.map_eq_some_iff.mp read with ⟨others, readRest, rfl⟩
          rw [ih readRest, List.map_cons]
        | _ => cases read
      | _ => cases read
  · rintro rfl
    exact allTextEntries_textMap fields

/-- A mapping is written from texts exactly when these are what it holds. -/
theorem map_eq_textMap {entries : List (Value × Value)} {fields : List (String × String)} :
    map entries = textMap fields ↔ allTextEntries entries = some fields := by
  rw [allTextEntries_eq_some, textMap, record, map.injEq, List.map_map]
  rfl

end Value

namespace Manifest

variable {field label : String} {table : Table}

def OnlyFields (names : List String) (table : Table) : Prop :=
  ∀ entry ∈ table, ∃ name ∈ names, entry.1 = .text name

theorem isField_iff {names : List String} {key : Value} :
    isField names key = true ↔ ∃ name ∈ names, key = .text name := by
  cases key <;> simp [isField]

theorem checkFields_eq_ok {names : List String} {done : Unit} :
    checkFields names label table = .ok done ↔ OnlyFields names table := by
  have unknown : (table.map Prod.fst).filter (!isField names ·) = [] ↔ OnlyFields names table := by
    rw [List.filter_eq_nil_iff]
    simp [OnlyFields, ← isField_iff]
  unfold checkFields
  rw [← unknown]
  split
  · rename_i none
    simp [none]
  · rename_i other
    exact iff_of_false (by simp) other

/-- A text that may be absent is what its field holds. -/
theorem optionalText_eq_ok {held : Option String} :
    optionalText field label table = .ok held ↔
      Value.entryOrNull field table = (held.map Value.text).getD .null := by
  unfold optionalText
  cases Value.entryOrNull field table with
  | null => cases held <;> simp
  | text s => cases held <;> simp
  | _ => cases held <;> simp

/-- A required text is there and is not empty. -/
theorem requiredText_eq_ok {s : String} :
    requiredText field label table = .ok s ↔
      Value.field? field table = some (.text s) ∧ s ≠ "" := by
  have empty (s : String) : s.isEmpty = true ↔ s = "" := String.isEmpty_iff
  unfold requiredText
  cases found : Value.field? field table with
  | none => simp
  | some v =>
    have entry : Value.entryOrNull field table = v := by simp [Value.entryOrNull, found]
    simp only [Outcome.bind_eq_ok, optionalText_eq_ok, entry]
    constructor
    · rintro ⟨held, rfl, kept⟩
      cases held with
      | none => cases kept
      | some t =>
        simp only [empty] at kept
        split at kept
        · cases kept
        · rename_i full
          cases kept
          exact ⟨rfl, full⟩
    · rintro ⟨same, full⟩
      refine ⟨some s, Option.some.inj same, ?_⟩
      simp only [empty, if_neg full]
      rfl

/-- A list of texts that may be absent is what its field holds. -/
theorem optionalTexts_eq_ok {held : Option (List String)} :
    optionalTexts field label table = .ok held ↔
      Value.entryOrNull field table = (held.map Value.texts).getD .null := by
  unfold optionalTexts
  cases Value.entryOrNull field table with
  | null => cases held <;> simp [Value.texts]
  | list items =>
    dsimp only
    cases held with
    | none => cases Value.allTexts items <;> simp
    | some names =>
      simp only [Option.map_some, Option.getD_some, Value.list_eq_texts]
      cases Value.allTexts items <;> simp
  | _ => cases held <;> simp [Value.texts]

/-- A map of texts that may be absent is what its field holds. -/
theorem optionalTextMap_eq_ok {held : Option (List (String × String))} :
    optionalTextMap field table = .ok held ↔
      Value.entryOrNull field table = (held.map Value.textMap).getD .null := by
  unfold optionalTextMap
  cases Value.entryOrNull field table with
  | null => cases held <;> simp [Value.textMap, Value.record]
  | map entries =>
    dsimp only
    cases held with
    | none => cases Value.allTextEntries entries <;> simp
    | some fields =>
      simp only [Option.map_some, Option.getD_some, Value.map_eq_textMap]
      cases Value.allTextEntries entries <;> simp
  | _ => cases held <;> simp [Value.textMap, Value.record]

theorem allTables_eq_some {items : List Value} {found : List Table} :
    allTables items = some found ↔ items = found.map .map := by
  constructor
  · intro read
    induction items generalizing found with
    | nil =>
      cases read
      rfl
    | cons item rest ih =>
      cases item with
      | map entries =>
        rcases Option.map_eq_some_iff.mp read with ⟨others, readRest, rfl⟩
        rw [ih readRest, List.map_cons]
      | _ => cases read
  · rintro rfl
    induction found with
    | nil => rfl
    | cons table rest ih =>
      rw [List.map_cons, allTables, ih]
      rfl

/-- Tables are what a value holds that is a list of them, and a null holds none. -/
def HoldsTables (v : Value) (found : List Table) : Prop :=
  (v = .null ∧ found = []) ∨ v = .list (found.map .map)

theorem tables_eq_ok {found : List Table} :
    tables field table = .ok found ↔ HoldsTables (Value.entryOrNull field table) found := by
  unfold tables HoldsTables
  cases Value.entryOrNull field table with
  | null => simp [eq_comm]
  | list items =>
    simp only [reduceCtorEq, false_and, false_or, Value.list.injEq, ← allTables_eq_some]
    cases allTables items <;> simp
  | _ => simp

theorem atSource_eq_ok {α : Type} {source : String} {checked : Except ManifestFault α} {a : α} :
    atSource source checked = .ok a ↔ checked = .ok a :=
  Outcome.mapError_eq_ok

/-- The condition of a table is what its text says; without one it always holds. -/
theorem conditionOf_eq_ok {source : String} {condition : Condition} :
    conditionOf source label table = .ok condition ↔
      ∃ text : Option String,
        Value.entryOrNull "condition" table = (text.map Value.text).getD .null ∧
        Condition.read text = .ok condition := by
  simp only [conditionOf, Outcome.bind_eq_ok, atSource_eq_ok, optionalText_eq_ok,
    Outcome.mapError_eq_ok]

end Manifest
end Consignment
