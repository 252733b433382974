import Consignment.Proofs.Manifest.Fields

namespace Consignment

/-!
# Which documents are manifests, and of what

Two descriptions of manifest documents, both in terms of what the document holds under its
fields and neither of them in terms of checks.  `Schema` says which documents are manifests.
`Declares` says which manifest a document is: every text, list and map of the manifest is what
stands in the document, and the entries are the handler tables in their order followed by the
export tables in theirs, one entry for each table.

A document is read exactly when it has the schema, and what is read is exactly what it
declares.  No order of checks can therefore accept a document or lose a part of it.

A field that is null and one that is not there are the same, except for a field that is
required: an empty text there, a null and nothing are all refused.
-/

namespace Value

def TextOrNull (v : Value) : Prop :=
  v = .null ∨ ∃ s, v = .text s

def TextsOrNull (v : Value) : Prop :=
  v = .null ∨ ∃ items, v = .list items ∧ ∀ item ∈ items, ∃ s, item = .text s

def TextMapOrNull (v : Value) : Prop :=
  v = .null ∨ ∃ entries, v = .map entries ∧
    ∀ entry ∈ entries, (∃ name, entry.1 = .text name) ∧ ∃ s, entry.2 = .text s

def TablesOrNull (v : Value) : Prop :=
  v = .null ∨ ∃ items, v = .list items ∧ ∀ item ∈ items, ∃ table, item = .map table

end Value

namespace Manifest

open Value (entryOrNull field?)

/-- A field holds a text that is not empty. -/
def HoldsText (field : String) (table : Table) (s : String) : Prop :=
  field? field table = some (.text s) ∧ s ≠ ""

/-! ## The schema -/

structure ReferenceSchema (table : Table) : Prop where
  fields : OnlyFields ["package_id", "handler_id"] table
  package : ∃ s, HoldsText "package_id" table s ∧ ∃ id, PackageId.ofText? s = some id
  handlerId : ∃ s, HoldsText "handler_id" table s

/-- A condition that can be read, null or nothing. -/
def ConditionSchema (v : Value) : Prop :=
  v = .null ∨ ∃ s condition, v = .text s ∧ Condition.read (some s) = .ok condition

structure HandlerSchema (table : Table) : Prop where
  fields : OnlyFields ["name", "external", "route", "files", "condition"] table
  route : ∃ s, HoldsText "route" table s
  exactlyOne : entryOrNull "name" table ≠ .null ↔ entryOrNull "external" table = .null
  name : entryOrNull "name" table ≠ .null → ∃ s, HoldsText "name" table s
  external : entryOrNull "external" table ≠ .null →
    ∃ held, entryOrNull "external" table = .map held ∧ ReferenceSchema held
  files : (entryOrNull "files" table).TextsOrNull
  condition : ConditionSchema (entryOrNull "condition" table)

structure ExportSchema (table : Table) : Prop where
  fields : OnlyFields ["name", "id", "files", "condition"] table
  name : ∃ s, HoldsText "name" table s
  id : ∃ s, HoldsText "id" table s
  files : (entryOrNull "files" table).TextsOrNull
  condition : ConditionSchema (entryOrNull "condition" table)

structure PackageSchema (table : Table) : Prop where
  fields : OnlyFields ["name", "version", "description", "authors"] table
  name : ∃ s, HoldsText "name" table s
  version : ∃ s, HoldsText "version" table s
  description : (entryOrNull "description" table).TextOrNull
  authors : (entryOrNull "authors" table).TextsOrNull

/-- A table stands in the list under a field. -/
def HasTable (field : String) (whole table : Table) : Prop :=
  ∃ items, entryOrNull field whole = .list items ∧ .map table ∈ items

structure WholeSchema (whole : Table) : Prop where
  fields : OnlyFields ["package", "annotations", "handler", "export"] whole
  package : ∃ table, entryOrNull "package" whole = .map table ∧ PackageSchema table
  annotations : (entryOrNull "annotations" whole).TextMapOrNull
  handlers : (entryOrNull "handler" whole).TablesOrNull
  exports : (entryOrNull "export" whole).TablesOrNull
  some : ∃ table, HasTable "handler" whole table ∨ HasTable "export" whole table
  handler : ∀ table, HasTable "handler" whole table → HandlerSchema table
  exported : ∀ table, HasTable "export" whole table → ExportSchema table

/-- A document is a manifest. -/
def Schema (v : Value) : Prop :=
  ∃ whole, v = .map whole ∧ WholeSchema whole

/-! ## What a document declares -/

structure DeclaresReference (table : Table) (ref : ExternalRef) : Prop where
  fields : OnlyFields ["package_id", "handler_id"] table
  package : ∃ s, HoldsText "package_id" table s ∧ PackageId.ofText? s = some ref.package
  handlerId : HoldsText "handler_id" table ref.handlerId

def DeclaresCondition (table : Table) (condition : Condition) : Prop :=
  ∃ text : Option String, entryOrNull "condition" table = (text.map Value.text).getD .null ∧
    Condition.read text = .ok condition

structure DeclaresHandler (table : Table) (e : Entry) : Prop where
  fields : OnlyFields ["name", "external", "route", "files", "condition"] table
  role : ∃ route, HoldsText "route" table route ∧
    ((∃ path, entryOrNull "external" table = .null ∧ HoldsText "name" table path ∧
        e.role = .handler path route) ∨
      ∃ held ref, entryOrNull "name" table = .null ∧ entryOrNull "external" table = .map held ∧
        DeclaresReference held ref ∧ e.role = .imported ref route)
  files : entryOrNull "files" table = (e.files.map Value.texts).getD .null
  condition : DeclaresCondition table e.condition

/-- A table of an export is that of an entry.  An export without patterns has none. -/
structure DeclaresExport (table : Table) (e : Entry) : Prop where
  fields : OnlyFields ["name", "id", "files", "condition"] table
  role : ∃ path id, HoldsText "name" table path ∧ HoldsText "id" table id ∧
    e.role = .exported path id
  files : ∃ held : Option (List String),
    entryOrNull "files" table = (held.map Value.texts).getD .null ∧ e.files = some (held.getD [])
  condition : DeclaresCondition table e.condition

structure DeclaresPackage (table : Table) (m : Manifest) : Prop where
  fields : OnlyFields ["name", "version", "description", "authors"] table
  name : HoldsText "name" table m.packageName
  version : HoldsText "version" table m.packageVersion
  description : entryOrNull "description" table = (m.description.map Value.text).getD .null
  authors : entryOrNull "authors" table = (m.authors.map Value.texts).getD .null

structure DeclaresWhole (whole : Table) (m : Manifest) : Prop where
  fields : OnlyFields ["package", "annotations", "handler", "export"] whole
  package : ∃ table, entryOrNull "package" whole = .map table ∧ DeclaresPackage table m
  annotations : entryOrNull "annotations" whole = (m.annotations.map Value.textMap).getD .null
  entries : ∃ handlers exports entries others,
    HoldsTables (entryOrNull "handler" whole) handlers ∧
    HoldsTables (entryOrNull "export" whole) exports ∧
    List.Forall₂ DeclaresHandler handlers entries ∧ List.Forall₂ DeclaresExport exports others ∧
    m.entries = entries ++ others
  some : m.entries ≠ []

/-- A document declares a manifest. -/
def Declares (v : Value) (m : Manifest) : Prop :=
  ∃ whole, v = .map whole ∧ DeclaresWhole whole m

/-! ## Reading gives what is declared -/

variable {source label : String} {table : Table} {v : Value}

theorem externalOf_eq_ok {ref : ExternalRef} :
    externalOf label v = .ok ref ↔ ∃ table, v = .map table ∧ DeclaresReference table ref := by
  cases v with
  | map table =>
    simp only [externalOf, Outcome.bind_eq_ok, checkFields_eq_ok, requiredText_eq_ok]
    constructor
    · rintro ⟨_, fields, text, held, read⟩
      cases package : PackageId.ofText? text with
      | none => simp [package] at read
      | some id =>
        simp only [package, Outcome.bind_eq_ok, requiredText_eq_ok, Outcome.pure_eq_ok] at read
        rcases read with ⟨handlerId, heldToo, rfl⟩
        exact ⟨table, rfl, fields, ⟨text, held, package⟩, heldToo⟩
    · rintro ⟨_, same, fields, ⟨text, held, package⟩, heldToo⟩
      cases same
      refine ⟨(), fields, text, held, ?_⟩
      simp only [package, Outcome.bind_eq_ok, requiredText_eq_ok, Outcome.pure_eq_ok]
      exact ⟨ref.handlerId, heldToo, rfl⟩
  | _ => simp [externalOf]

theorem entryOrNull_of_holdsText {field s : String} (held : HoldsText field table s) :
    entryOrNull field table = .text s := by
  rw [entryOrNull, held.1]
  rfl

theorem handlerOf_eq_ok {e : Entry} : handlerOf source table = .ok e ↔ DeclaresHandler table e := by
  simp only [handlerOf, Outcome.bind_eq_ok, atSource_eq_ok, requiredText_eq_ok, checkFields_eq_ok]
  constructor
  · rintro ⟨route, held, _, fields, read⟩
    split at read
    · cases read
    · rename_i name _
      simp only [Outcome.bind_eq_ok, atSource_eq_ok, conditionOf_eq_ok, optionalTexts_eq_ok,
        externalOf_eq_ok, Outcome.pure_eq_ok] at read
      rcases read with ⟨condition, conditioned, files, listed, ref, ⟨inner, external, refers⟩, rfl⟩
      exact ⟨fields, ⟨route, held, Or.inr ⟨inner, ref, name, external, refers, rfl⟩⟩, listed,
        conditioned⟩
    · rename_i external _
      simp only [Outcome.bind_eq_ok, atSource_eq_ok, conditionOf_eq_ok, optionalTexts_eq_ok,
        requiredText_eq_ok, Outcome.pure_eq_ok] at read
      rcases read with ⟨condition, conditioned, files, listed, path, named, rfl⟩
      exact ⟨fields, ⟨route, held, Or.inl ⟨path, external, named, rfl⟩⟩, listed, conditioned⟩
    · cases read
  · rintro ⟨fields, ⟨route, held, kind⟩, listed, conditioned⟩
    refine ⟨route, held, (), fields, ?_⟩
    rcases e with ⟨role, files, condition⟩
    rcases kind with ⟨path, external, named, rfl⟩ | ⟨inner, ref, name, external, refers, rfl⟩
    · rw [external, entryOrNull_of_holdsText named]
      simp only [Outcome.bind_eq_ok, atSource_eq_ok, conditionOf_eq_ok, optionalTexts_eq_ok,
        requiredText_eq_ok, Outcome.pure_eq_ok]
      exact ⟨condition, conditioned, files, listed, path, named, rfl⟩
    · rw [external, name]
      simp only [Outcome.bind_eq_ok, atSource_eq_ok, conditionOf_eq_ok, optionalTexts_eq_ok,
        externalOf_eq_ok, Outcome.pure_eq_ok]
      exact ⟨condition, conditioned, files, listed, ref, ⟨inner, rfl, refers⟩, rfl⟩

theorem exportOf_eq_ok {e : Entry} : exportOf source table = .ok e ↔ DeclaresExport table e := by
  simp only [exportOf, Outcome.bind_eq_ok, atSource_eq_ok, requiredText_eq_ok, checkFields_eq_ok,
    optionalTexts_eq_ok, conditionOf_eq_ok, Outcome.pure_eq_ok]
  constructor
  · rintro ⟨_, fields, path, named, id, known, files, listed, condition, conditioned, rfl⟩
    exact ⟨fields, ⟨path, id, named, known, rfl⟩, ⟨files, listed, rfl⟩, conditioned⟩
  · rintro ⟨fields, ⟨path, id, named, known, role⟩, ⟨files, listed, kept⟩, conditioned⟩
    rcases e with ⟨_, _, condition⟩
    cases role
    cases kept
    exact ⟨(), fields, path, named, id, known, files, listed, condition, conditioned, rfl⟩

theorem ofValue_eq_ok {m : Manifest} : ofValue source v = .ok m ↔ Declares v m := by
  cases v with
  | map whole =>
    simp only [ofValue, Outcome.bind_eq_ok, atSource_eq_ok, checkFields_eq_ok]
    constructor
    · rintro ⟨_, fields, read⟩
      split at read
      · rename_i package packaged
        simp only [pure_bind, Outcome.bind_eq_ok, atSource_eq_ok, checkFields_eq_ok,
          optionalTexts_eq_ok, tables_eq_ok, Outcome.mapM_eq_ok, handlerOf_eq_ok, exportOf_eq_ok]
          at read
        rcases read with ⟨_, packageFields, authors, listed, handlers, handlerTables, entries,
          handlersRead, exports, exportTables, others, exportsRead, read⟩
        split at read
        · cases read
        · rename_i some
          simp only [Outcome.bind_eq_ok, atSource_eq_ok, requiredText_eq_ok, optionalText_eq_ok,
            optionalTextMap_eq_ok, Outcome.pure_eq_ok] at read
          rcases read with ⟨name, named, version, versioned, description, described, annotations,
            annotated, rfl⟩
          exact ⟨whole, rfl, fields,
            ⟨package, packaged, packageFields, named, versioned, described, listed⟩, annotated,
            ⟨handlers, exports, entries, others, handlerTables, exportTables, handlersRead,
              exportsRead, rfl⟩, fun none => some (List.isEmpty_iff.mpr none)⟩
      · cases read
    · rintro ⟨_, same, declared⟩
      cases same
      rcases declared.package with ⟨package, packaged, isPackage⟩
      rcases declared.entries with ⟨handlers, exports, entries, others, handlerTables, exportTables,
        handlersRead, exportsRead, joined⟩
      have some : ¬ (entries ++ others).isEmpty = true := by
        rw [← joined, List.isEmpty_iff]
        exact declared.some
      rcases m with ⟨name, version, _, description, authors, annotations⟩
      cases joined
      refine ⟨(), declared.fields, ?_⟩
      simp only [packaged, pure_bind, Outcome.bind_eq_ok, atSource_eq_ok, checkFields_eq_ok,
        optionalTexts_eq_ok, tables_eq_ok, Outcome.mapM_eq_ok, handlerOf_eq_ok, exportOf_eq_ok]
      refine ⟨(), isPackage.fields, authors, isPackage.authors, handlers, handlerTables, entries,
        handlersRead, exports, exportTables, others, exportsRead, ?_⟩
      rw [if_neg some]
      simp only [Outcome.bind_eq_ok, atSource_eq_ok, requiredText_eq_ok, optionalText_eq_ok,
        optionalTextMap_eq_ok, Outcome.pure_eq_ok]
      exact ⟨name, isPackage.name, version, isPackage.version, description, isPackage.description,
        annotations, declared.annotations, rfl⟩
  | _ => simp [ofValue, Declares]

/-! ## What can be declared is what has the schema -/

theorem textOrNull_iff :
    v.TextOrNull ↔ ∃ held : Option String, v = (held.map Value.text).getD .null := by
  constructor
  · rintro (rfl | ⟨s, rfl⟩)
    · exact ⟨none, rfl⟩
    · exact ⟨some s, rfl⟩
  · rintro ⟨_ | s, rfl⟩
    · exact Or.inl rfl
    · exact Or.inr ⟨s, rfl⟩

/-- Items that all have a form are the forms of something. -/
theorem forall_exists_iff {α β : Type} {form : α → β} {items : List β} :
    (∀ item ∈ items, ∃ a, item = form a) ↔ ∃ held : List α, items = held.map form := by
  constructor
  · intro each
    induction items with
    | nil => exact ⟨[], rfl⟩
    | cons item rest ih =>
      rcases each item List.mem_cons_self with ⟨a, rfl⟩
      rcases ih fun other mem => each other (List.mem_cons_of_mem _ mem) with ⟨held, rfl⟩
      exact ⟨a :: held, rfl⟩
  · rintro ⟨held, rfl⟩ item mem
    rcases List.mem_map.mp mem with ⟨a, _, rfl⟩
    exact ⟨a, rfl⟩

theorem textsOrNull_iff :
    v.TextsOrNull ↔ ∃ held : Option (List String), v = (held.map Value.texts).getD .null := by
  simp only [Value.TextsOrNull, forall_exists_iff]
  constructor
  · rintro (rfl | ⟨_, rfl, names, rfl⟩)
    · exact ⟨none, rfl⟩
    · exact ⟨some names, rfl⟩
  · rintro ⟨_ | names, rfl⟩
    · exact Or.inl rfl
    · exact Or.inr ⟨_, rfl, names, rfl⟩

theorem textMapOrNull_iff :
    v.TextMapOrNull ↔
      ∃ held : Option (List (String × String)), v = (held.map Value.textMap).getD .null := by
  have form (entry : Value × Value) :
      ((∃ name, entry.1 = .text name) ∧ ∃ s, entry.2 = .text s) ↔
        ∃ field : String × String, entry = (.text field.1, .text field.2) := by
    rcases entry with ⟨key, value⟩
    simp
  simp only [Value.TextMapOrNull, form, forall_exists_iff]
  constructor
  · rintro (rfl | ⟨_, rfl, fields, rfl⟩)
    · exact ⟨none, rfl⟩
    · refine ⟨some fields, ?_⟩
      simp [Value.textMap, Value.record]
  · rintro ⟨_ | fields, rfl⟩
    · exact Or.inl rfl
    · refine Or.inr ⟨_, rfl, fields, ?_⟩
      rw [List.map_map]
      rfl

theorem tablesOrNull_iff : v.TablesOrNull ↔ ∃ found, HoldsTables v found := by
  simp only [Value.TablesOrNull, forall_exists_iff, HoldsTables]
  constructor
  · rintro (rfl | ⟨_, rfl, found, rfl⟩)
    · exact ⟨[], Or.inl ⟨rfl, rfl⟩⟩
    · exact ⟨found, Or.inr rfl⟩
  · rintro ⟨found, ⟨rfl, _⟩ | rfl⟩
    · exact Or.inl rfl
    · exact Or.inr ⟨_, rfl, found, rfl⟩

theorem conditionSchema_iff :
    ConditionSchema (entryOrNull "condition" table) ↔
      ∃ condition, DeclaresCondition table condition := by
  unfold ConditionSchema DeclaresCondition
  constructor
  · rintro (null | ⟨s, condition, held, read⟩)
    · exact ⟨.always, none, null, rfl⟩
    · exact ⟨condition, some s, held, read⟩
  · rintro ⟨condition, _ | s, held, read⟩
    · exact Or.inl held
    · exact Or.inr ⟨s, condition, held, read⟩

theorem referenceSchema_iff : ReferenceSchema table ↔ ∃ ref, DeclaresReference table ref := by
  constructor
  · rintro ⟨fields, ⟨s, held, id, package⟩, handlerId, heldToo⟩
    exact ⟨⟨id, handlerId⟩, fields, ⟨s, held, package⟩, heldToo⟩
  · rintro ⟨ref, fields, ⟨s, held, package⟩, heldToo⟩
    exact ⟨fields, ⟨s, held, _, package⟩, _, heldToo⟩

theorem handlerSchema_iff : HandlerSchema table ↔ ∃ e, DeclaresHandler table e := by
  constructor
  · rintro ⟨fields, ⟨route, routed⟩, one, named, referred, files, condition⟩
    rcases textsOrNull_iff.mp files with ⟨listed, files⟩
    rcases conditionSchema_iff.mp condition with ⟨condition, conditioned⟩
    by_cases external : entryOrNull "external" table = .null
    · rcases named (one.mpr external) with ⟨path, held⟩
      exact ⟨⟨.handler path route, listed, condition⟩, fields,
        ⟨route, routed, Or.inl ⟨path, external, held, rfl⟩⟩, files, conditioned⟩
    · rcases referred external with ⟨held, here, reference⟩
      rcases referenceSchema_iff.mp reference with ⟨ref, refers⟩
      have unnamed : entryOrNull "name" table = .null :=
        Classical.not_not.mp fun name => external (one.mp name)
      exact ⟨⟨.imported ref route, listed, condition⟩, fields,
        ⟨route, routed, Or.inr ⟨held, ref, unnamed, here, refers, rfl⟩⟩, files, conditioned⟩
  · rintro ⟨e, fields, ⟨route, routed, kind⟩, files, conditioned⟩
    have listed := textsOrNull_iff.mpr ⟨_, files⟩
    have condition := conditionSchema_iff.mpr ⟨_, conditioned⟩
    rcases kind with ⟨path, external, named, _⟩ | ⟨held, ref, unnamed, external, refers, _⟩
    · have name : entryOrNull "name" table ≠ .null := by simp [entryOrNull_of_holdsText named]
      exact ⟨fields, ⟨route, routed⟩, iff_of_true name external, fun _ => ⟨path, named⟩,
        fun other => absurd external other, listed, condition⟩
    · have referred : entryOrNull "external" table ≠ .null := by simp [external]
      exact ⟨fields, ⟨route, routed⟩, iff_of_false (not_not.mpr unnamed) referred,
        fun other => absurd unnamed other,
        fun _ => ⟨held, external, referenceSchema_iff.mpr ⟨ref, refers⟩⟩, listed, condition⟩

theorem exportSchema_iff : ExportSchema table ↔ ∃ e, DeclaresExport table e := by
  constructor
  · rintro ⟨fields, ⟨path, named⟩, ⟨id, known⟩, files, condition⟩
    rcases textsOrNull_iff.mp files with ⟨listed, files⟩
    rcases conditionSchema_iff.mp condition with ⟨condition, conditioned⟩
    exact ⟨⟨.exported path id, some (listed.getD []), condition⟩, fields,
      ⟨path, id, named, known, rfl⟩, ⟨listed, files, rfl⟩, conditioned⟩
  · rintro ⟨e, fields, ⟨path, id, named, known, _⟩, ⟨listed, files, _⟩, conditioned⟩
    exact ⟨fields, ⟨path, named⟩, ⟨id, known⟩, textsOrNull_iff.mpr ⟨listed, files⟩,
      conditionSchema_iff.mpr ⟨_, conditioned⟩⟩

theorem hasTable_iff {field : String} {whole : Table} {found : List Table}
    (holds : HoldsTables (entryOrNull field whole) found) :
    HasTable field whole table ↔ table ∈ found := by
  rcases holds with ⟨null, rfl⟩ | listed
  · simp [HasTable, null]
  · simp [HasTable, listed]

/-- Every item has a result exactly when there is a list of results. -/
theorem exists_forall₂_iff {α β : Type} {R : α → β → Prop} {items : List α} :
    (∃ results, List.Forall₂ R items results) ↔ ∀ item ∈ items, ∃ result, R item result := by
  constructor
  · rintro ⟨results, related⟩ item mem
    rcases Outcome.exists_mem_of_forall₂ related mem with ⟨result, _, here⟩
    exact ⟨result, here⟩
  · intro each
    induction items with
    | nil => exact ⟨[], .nil⟩
    | cons item rest ih =>
      rcases each item List.mem_cons_self with ⟨result, here⟩
      rcases ih fun other mem => each other (List.mem_cons_of_mem _ mem) with ⟨results, related⟩
      exact ⟨result :: results, .cons here related⟩

theorem wholeSchema_of_declares {whole : Table} {m : Manifest} (declared : DeclaresWhole whole m) :
    WholeSchema whole := by
  rcases declared with ⟨fields, ⟨package, packaged, isPackage⟩, annotated,
    ⟨handlers, exports, entries, others, handlerTables, exportTables, handlersRead, exportsRead,
      joined⟩, some⟩
  rw [joined] at some
  refine ⟨fields, ⟨package, packaged, ?package⟩, textMapOrNull_iff.mpr ⟨_, annotated⟩,
    tablesOrNull_iff.mpr ⟨_, handlerTables⟩, tablesOrNull_iff.mpr ⟨_, exportTables⟩, ?some,
    ?handler, ?exported⟩
  case package =>
    exact ⟨isPackage.fields, ⟨_, isPackage.name⟩, ⟨_, isPackage.version⟩,
      textOrNull_iff.mpr ⟨_, isPackage.description⟩, textsOrNull_iff.mpr ⟨_, isPackage.authors⟩⟩
  case some =>
    rcases List.exists_mem_of_ne_nil _ some with ⟨e, mem⟩
    rcases List.mem_append.mp mem with handler | exported
    · rcases Outcome.mem_of_forall₂ handlersRead handler with ⟨table, listed, _⟩
      exact ⟨table, Or.inl ((hasTable_iff handlerTables).mpr listed)⟩
    · rcases Outcome.mem_of_forall₂ exportsRead exported with ⟨table, listed, _⟩
      exact ⟨table, Or.inr ((hasTable_iff exportTables).mpr listed)⟩
  case handler =>
    intro table listed
    rw [hasTable_iff handlerTables] at listed
    exact handlerSchema_iff.mpr (exists_forall₂_iff.mp ⟨_, handlersRead⟩ table listed)
  case exported =>
    intro table listed
    rw [hasTable_iff exportTables] at listed
    exact exportSchema_iff.mpr (exists_forall₂_iff.mp ⟨_, exportsRead⟩ table listed)

theorem exists_declares_of_wholeSchema {whole : Table} (schema : WholeSchema whole) :
    ∃ m, DeclaresWhole whole m := by
  rcases schema.package with ⟨package, packaged, isPackage⟩
  rcases isPackage.name with ⟨name, named⟩
  rcases isPackage.version with ⟨version, versioned⟩
  rcases textOrNull_iff.mp isPackage.description with ⟨description, described⟩
  rcases textsOrNull_iff.mp isPackage.authors with ⟨authors, listed⟩
  rcases textMapOrNull_iff.mp schema.annotations with ⟨annotations, annotated⟩
  rcases tablesOrNull_iff.mp schema.handlers with ⟨handlers, handlerTables⟩
  rcases tablesOrNull_iff.mp schema.exports with ⟨exports, exportTables⟩
  have handlersRead : ∃ entries, List.Forall₂ DeclaresHandler handlers entries :=
    exists_forall₂_iff.mpr fun table mem =>
      handlerSchema_iff.mp (schema.handler table ((hasTable_iff handlerTables).mpr mem))
  have exportsRead : ∃ entries, List.Forall₂ DeclaresExport exports entries :=
    exists_forall₂_iff.mpr fun table mem =>
      exportSchema_iff.mp (schema.exported table ((hasTable_iff exportTables).mpr mem))
  rcases handlersRead with ⟨entries, handlersRead⟩
  rcases exportsRead with ⟨others, exportsRead⟩
  have some : entries ++ others ≠ [] := by
    rcases schema.some with ⟨table, handler | exported⟩
    · rw [hasTable_iff handlerTables] at handler
      rcases Outcome.exists_mem_of_forall₂ handlersRead handler with ⟨e, mem, _⟩
      exact List.ne_nil_of_mem (List.mem_append_left _ mem)
    · rw [hasTable_iff exportTables] at exported
      rcases Outcome.exists_mem_of_forall₂ exportsRead exported with ⟨e, mem, _⟩
      exact List.ne_nil_of_mem (List.mem_append_right _ mem)
  exact ⟨⟨name, version, entries ++ others, description, authors, annotations⟩, schema.fields,
    ⟨package, packaged, isPackage.fields, named, versioned, described, listed⟩, annotated,
    ⟨handlers, exports, entries, others, handlerTables, exportTables, handlersRead, exportsRead,
      rfl⟩, some⟩

theorem schema_iff : Schema v ↔ ∃ m, Declares v m := by
  constructor
  · rintro ⟨whole, rfl, schema⟩
    rcases exists_declares_of_wholeSchema schema with ⟨m, declared⟩
    exact ⟨m, whole, rfl, declared⟩
  · rintro ⟨m, whole, rfl, declared⟩
    exact ⟨whole, rfl, wholeSchema_of_declares declared⟩

/-- A document is read as a manifest exactly when it has the schema, and then as the manifest
that it declares, wherever it comes from. -/
theorem reads_iff_schema (source : String) (v : Value) :
    ((∃ m, ofValue source v = .ok m) ↔ Schema v) ∧
      ∀ m, ofValue source v = .ok m ↔ Declares v m := by
  refine ⟨?_, fun m => ofValue_eq_ok⟩
  rw [schema_iff]
  exact exists_congr fun m => ofValue_eq_ok

end Manifest
end Consignment
