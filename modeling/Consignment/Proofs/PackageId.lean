import Consignment.Proofs.Invoice.Identity
import Consignment.Proofs.Manifest.Schema
import Consignment.Proofs.Packaging.Building
import Consignment.Proofs.Staging.Growing
import Consignment.Proofs.Text.Utf8

namespace Consignment

/-!
# Package ids as names

The written form of an id names the directory in which its package is staged, and it is how
manifests refer to the package.  Ids that are put together from a name and a version can be
written alike although they differ, because only the last slash of what is written separates.
Reading never gives two such ids: the version of an id that was read has no slash, so the slash
in the middle is the last one, however many the name has.

A staged package is found by the digest of its id's written form.  That two ids share a directory
only if they are the same cannot be promised of digests.  What is promised is that nothing else
than two messages with one digest makes them share it.
-/

namespace Text

/-- What is left of a text without the blanks at its ends. -/
structure Stripped (cs bare : List Char) : Prop where
  around : ∃ front back, cs = front ++ bare ++ back ∧
    (∀ c ∈ front, isBlank c = true) ∧ ∀ c ∈ back, isBlank c = true
  front : FrontVisible bare
  back : BackVisible bare

theorem trimStart_of_blank {front : List Char} (blank : ∀ c ∈ front, isBlank c = true)
    (rest : List Char) : trimStart (front ++ rest) = trimStart rest :=
  List.dropWhile_append_of_pos blank

theorem trimEnd_of_blank {back : List Char} (blank : ∀ c ∈ back, isBlank c = true)
    (rest : List Char) : trimEnd (rest ++ back) = trimEnd rest := by
  have reversed : ∀ c ∈ back.reverse, isBlank c = true :=
    fun c mem => blank c (List.mem_reverse.mp mem)
  rw [trimEnd, List.reverse_append, List.dropWhile_append_of_pos reversed, trimEnd]

/-- There is one way to strip a text, which is to trim it. -/
theorem stripped_iff {cs bare : List Char} : Stripped cs bare ↔ trim cs = bare := by
  constructor
  · rintro ⟨⟨front, back, rfl, before, behind⟩, first, last⟩
    rw [List.append_assoc, trim, trimStart_of_blank before]
    by_cases nothing : bare = []
    · -- All of the text is blank, and the blanks behind are dropped at the front.
      have dropped := trimStart_of_blank behind []
      rw [List.append_nil] at dropped
      rw [nothing, List.nil_append, dropped]
      rfl
    · have visible : FrontVisible (bare ++ back) := by
        intro c head
        rw [List.head?_append_of_ne_nil _ nothing] at head
        exact first c head
      rw [trimStart_eq_self.mpr visible, trimEnd_of_blank behind, trimEnd_eq_self.mpr last]
  · rintro rfl
    refine ⟨⟨cs.takeWhile isBlank, ((trimStart cs).reverse.takeWhile isBlank).reverse, ?whole,
      fun c mem => List.mem_takeWhile_imp mem,
      fun c mem => List.mem_takeWhile_imp (List.mem_reverse.mp mem)⟩,
      (frontVisible_trimStart cs).trimEnd, backVisible_trimEnd _⟩
    rw [List.append_assoc, trim, trimEnd_append_reverse_takeWhile, takeWhile_append_trimStart]

end Text

namespace Digest

/-- Two messages that differ and have one digest. -/
def Collide (m m' : List UInt8) : Prop :=
  m ≠ m' ∧ ofList m = ofList m'

end Digest

namespace PackageId

/-! ## Reading divides at the last slash -/

/-- The last slash of a text divides it, and something stands on either side. -/
structure Divided (cs before after : List Char) : Prop where
  whole : cs = before ++ '/' :: after
  last : '/' ∉ after
  named : before ≠ []
  versioned : after ≠ []

variable {text : String} {id id' : PackageId}

theorem divided_text :
    Divided id.text.toList id.name.toList id.version.toList ↔
      id.name ≠ "" ∧ id.version ≠ "" ∧ '/' ∉ id.version.toList := by
  have nothing (s : String) : s.toList ≠ [] ↔ s ≠ "" := by simp
  constructor
  · rintro ⟨_, plain, named, versioned⟩
    exact ⟨(nothing _).mp named, (nothing _).mp versioned, plain⟩
  · rintro ⟨named, versioned, plain⟩
    exact ⟨toList_text id, plain, (nothing _).mpr named, (nothing _).mpr versioned⟩

/-- A text denotes an id when what is left of it without the blanks at its ends is the written
form of the id, and is divided into the two halves of the id. -/
theorem ofText?_iff_divided :
    ofText? text = some id ↔
      Text.Stripped text.toList id.text.toList ∧
        Divided id.text.toList id.name.toList id.version.toList := by
  rw [ofText?_eq_some, Text.stripped_iff, divided_text]

theorem exists_ofText?_iff :
    (∃ id, ofText? text = some id) ↔
      ∃ bare before after, Text.Stripped text.toList bare ∧ Divided bare before after := by
  constructor
  · rintro ⟨id, read⟩
    exact ⟨_, _, _, ofText?_iff_divided.mp read⟩
  · rintro ⟨bare, before, after, stripped, divided⟩
    let id : PackageId := ⟨String.ofList before, String.ofList after⟩
    have written : id.text.toList = bare := by
      rw [toList_text, divided.whole, String.toList_ofList, String.toList_ofList]
    refine ⟨id, ofText?_iff_divided.mpr ?_⟩
    rw [written, String.toList_ofList, String.toList_ofList]
    exact ⟨stripped, divided⟩

/-! ## Ids that come from reading -/

/-- An id that some text denotes. -/
def Denoted (id : PackageId) : Prop :=
  ∃ text, ofText? text = some id

theorem denoted_iff : id.Denoted ↔ ofText? id.text = some id := by
  constructor
  · rintro ⟨text, read⟩
    exact ofText?_text.mpr (rereadable_of_ofText? read)
  · intro read
    exact ⟨_, read⟩

/-- The written form tells ids apart that come from reading. -/
theorem text_inj (known : id.Denoted) (known' : id'.Denoted) : id.text = id'.text ↔ id = id' := by
  constructor
  · intro same
    have read := denoted_iff.mp known
    rw [same, denoted_iff.mp known'] at read
    exact (Option.some.inj read).symm
  · rintro rfl
    rfl

/-- Put together, two ids can be written alike. -/
example : (⟨"a", "b/c"⟩ : PackageId).text = (⟨"a/b", "c"⟩ : PackageId).text := by
  decide

/-! ## The directory of a package -/

/-- The message whose digest names the directory of a package. -/
def message (id : PackageId) : List UInt8 :=
  Text.encodeUtf8 id.text.toList

theorem message_inj : id.message = id'.message ↔ id.text = id'.text := by
  rw [message, message, Text.encodeUtf8_inj, String.toList_inj]

/-- One digest for two ids that come from reading: they are the same, or their messages collide. -/
theorem digest_eq_iff (known : id.Denoted) (known' : id'.Denoted) :
    Digest.ofText id.text = Digest.ofText id'.text ↔
      id = id' ∨ Digest.Collide id.message id'.message := by
  have named (id : PackageId) : Digest.ofText id.text = Digest.ofList id.message := rfl
  rw [named, named]
  constructor
  · intro same
    by_cases equal : id = id'
    · exact Or.inl equal
    · rw [← text_inj known known', ← message_inj] at equal
      exact Or.inr ⟨equal, same⟩
  · rintro (rfl | ⟨_, same⟩)
    · rfl
    · exact same

end PackageId

/-- The written forms of all paths below a base begin alike. -/
theorem Path.exists_text_below (base : Path) :
    ∃ front, ∀ way ≠ [],
      text ⟨base.anchor, base.parts ++ way⟩ = front ++ String.intercalate "/" way := by
  by_cases none : base.parts = []
  · refine ⟨base.anchor.text, fun way some => ?_⟩
    rw [text, none, List.nil_append, if_neg fun empty => some empty.2]
  · refine ⟨base.anchor.text ++ String.intercalate "/" base.parts ++ "/", fun way some => ?_⟩
    rw [text, if_neg fun empty => none (List.append_eq_nil_iff.mp empty.2).1,
      String.intercalate_append_of_ne_nil none some]
    simp only [String.append_assoc]

namespace Staging

/-- What decides on the directory of a package, and on the place of its invoice, is one digest. -/
theorem text_directoryOf_inj (staging : Path) (id id' : PackageId) :
    ((directoryOf staging id).text = (directoryOf staging id').text ↔
      Digest.ofText id.text = Digest.ofText id'.text) ∧
    ((invoiceOf staging id).text = (invoiceOf staging id').text ↔
      Digest.ofText id.text = Digest.ofText id'.text) := by
  rcases staging.exists_text_below with ⟨front, below⟩
  have directory (id : PackageId) :
      (directoryOf staging id).text = front ++ Digest.ofText id.text := by
    rw [directoryOf_eq, below _ (List.cons_ne_nil _ _), String.intercalate_singleton]
  have invoice (id : PackageId) :
      (invoiceOf staging id).text = front ++ (Digest.ofText id.text ++ "/" ++ "invoice.yml") := by
    rw [invoiceOf_eq, List.append_assoc, List.singleton_append, below _ (List.cons_ne_nil _ _),
      String.intercalate_cons_cons, String.intercalate_singleton]
  simp only [directory, invoice, ← String.toList_inj, String.toList_append,
    List.append_cancel_left_eq, List.append_cancel_right_eq, and_self]

end Staging

/-! ## The table of foreign invoices -/

/-- A table of invoices with the written forms of the ids as its keys. -/
def byText (table : List (PackageId × Invoice)) : List (String × Invoice) :=
  table.map fun entry => (entry.1.text, entry.2)

theorem lookup_byText {table : List (PackageId × Invoice)}
    (keys : ∀ entry ∈ table, entry.1.Denoted) {id : PackageId} (known : id.Denoted) :
    (byText table).lookup id.text = table.lookup id := by
  induction table with
  | nil => rfl
  | cons entry rest ih =>
    have here : (id.text == entry.1.text) = (id == entry.1) := by
      rw [Bool.eq_iff_iff, beq_iff_eq, beq_iff_eq,
        PackageId.text_inj known (keys entry List.mem_cons_self)]
    have later := ih fun other mem => keys other (List.mem_cons_of_mem _ mem)
    rw [byText] at later ⊢
    rw [List.map_cons, List.lookup_cons, List.lookup_cons, here, later]

/-- A manifest refers to packages by ids that come from reading. -/
theorem Manifest.denoted_of_ofValue {source : String} {v : Value} {manifest : Manifest}
    (read : ofValue source v = .ok manifest) {values : Values} {ref : ExternalRef}
    (mem : ref ∈ manifest.references values) : ref.package.Denoted := by
  rcases mem_references.mp mem with ⟨e, taken, refers⟩
  rcases ofValue_eq_ok.mp read with ⟨whole, rfl, declared⟩
  rcases declared.entries with
    ⟨handlers, exports, entries, others, _, _, handlersRead, exportsRead, joined⟩
  have held : e ∈ entries ++ others := joined ▸ (List.mem_filter.mp taken).1
  rcases List.mem_append.mp held with handler | exported
  · rcases Outcome.mem_of_forall₂ handlersRead handler with ⟨table, _, form⟩
    rcases form.role with ⟨route, _, ⟨path, _, _, role⟩ | ⟨inner, known, _, _, reference, role⟩⟩
    · rw [role] at refers
      cases refers
    · rw [role] at refers
      cases refers
      rcases reference.package with ⟨text, _, denotes⟩
      exact ⟨text, denotes⟩
  · rcases Outcome.mem_of_forall₂ exportsRead exported with ⟨table, _, form⟩
    rcases form.role with ⟨path, exportId, _, _, role⟩
    rw [role] at refers
    cases refers

/-- The texts of the packages that a manifest refers to are the keys of the table that is asked
for, each once. -/
theorem nodup_byText_of_prefetch {source : String} {v : Value} {manifest : Manifest}
    (read : Manifest.ofValue source v = .ok manifest) {values : Values}
    {fetch : PackageId → Report Invoice} {pool : Pool} {table : List (PackageId × Invoice)}
    (fetched : (prefetch fetch pool (manifest.references values)).outcome = .ok table) :
    (∀ entry ∈ table, entry.1.Denoted) ∧ ((byText table).map Prod.fst).Nodup := by
  have keys := keys_of_prefetch fetched
  have known : ∀ id ∈ table.map Prod.fst, id.Denoted := by
    intro id mem
    rw [keys] at mem
    rcases ExternalRef.mem_packages.mp mem with ⟨ref, referred, rfl⟩
    exact Manifest.denoted_of_ofValue read referred
  have texts : (byText table).map Prod.fst = (table.map Prod.fst).map PackageId.text := by
    rw [byText, List.map_map, List.map_map]
    rfl
  have apart : (table.map Prod.fst).Nodup := keys ▸ ExternalRef.nodup_packages _
  refine ⟨fun entry mem => known _ (List.mem_map_of_mem mem), ?_⟩
  rw [texts]
  exact apart.map_on fun id mem id' mem' same =>
    (PackageId.text_inj (known id mem) (known id' mem')).mp same

namespace PackageId

/-! ## What a name promises -/

/-- The written form of an id stands for the id, among all ids that come from reading: as a text,
as the message that names a directory, in the paths of the directory and of the invoice, and as
the key of a table. -/
structure Faithful (id : PackageId) : Prop where
  reread : ofText? id.text = some id
  texts : ∀ id' : PackageId, id'.Denoted → (id.text = id'.text ↔ id = id')
  messages : ∀ id' : PackageId, id'.Denoted → (id.message = id'.message ↔ id = id')
  directories : ∀ (staging : Path) (id' : PackageId), id'.Denoted →
    ((Staging.directoryOf staging id).text = (Staging.directoryOf staging id').text ↔
      id = id' ∨ Digest.Collide id.message id'.message)
  invoices : ∀ (staging : Path) (id' : PackageId), id'.Denoted →
    ((Staging.invoiceOf staging id).text = (Staging.invoiceOf staging id').text ↔
      id = id' ∨ Digest.Collide id.message id'.message)
  keys : ∀ table : List (PackageId × Invoice), (∀ entry ∈ table, entry.1.Denoted) →
    (byText table).lookup id.text = table.lookup id

theorem Denoted.faithful {id : PackageId} (known : id.Denoted) : id.Faithful where
  reread := denoted_iff.mp known
  texts := fun _ known' => text_inj known known'
  messages := fun _ known' => message_inj.trans (text_inj known known')
  directories := fun staging id' known' =>
    (Staging.text_directoryOf_inj staging id id').1.trans (digest_eq_iff known known')
  invoices := fun staging id' known' =>
    (Staging.text_directoryOf_inj staging id id').2.trans (digest_eq_iff known known')
  keys := fun _ keys => lookup_byText keys known

/-- **The written form of an id that was read stands for the id.**  A text denotes an id exactly
when, without the blanks at its ends, it has a slash and the last one has something on either side.
What is left of the text is then the written form of the id, which is divided there into name and
version and is read back as the same id.  Whatever is found by the written form of such an id is
found for no other, but for messages with one digest.  The table of invoices for a manifest that
was read from a document has each written form as a key at most once. -/
theorem divided_and_faithful (text : String) :
    ((∃ id, ofText? text = some id) ↔
      ∃ bare before after, Text.Stripped text.toList bare ∧ Divided bare before after) ∧
    (∀ id, ofText? text = some id →
      Text.Stripped text.toList id.text.toList ∧
      Divided id.text.toList id.name.toList id.version.toList ∧ id.Faithful) ∧
    ∀ (source : String) (v : Value) (manifest : Manifest) (values : Values)
      (fetch : PackageId → Report Invoice) (pool : Pool) (table : List (PackageId × Invoice)),
      Manifest.ofValue source v = .ok manifest →
      (prefetch fetch pool (manifest.references values)).outcome = .ok table →
      (∀ entry ∈ table, entry.1.Denoted) ∧ ((byText table).map Prod.fst).Nodup := by
  refine ⟨exists_ofText?_iff, fun id read => ?_,
    fun _ _ _ _ _ _ _ read fetched => nodup_byText_of_prefetch read fetched⟩
  have known : id.Denoted := ⟨text, read⟩
  rcases ofText?_iff_divided.mp read with ⟨stripped, divided⟩
  exact ⟨stripped, divided, known.faithful⟩

/-- A name with slashes side by side, and a version with a blank in front. -/
def appleTree : PackageId :=
  ⟨"/apple//tree", " 1"⟩

/-- The same but for one slash. -/
def appleTrees : PackageId :=
  ⟨"/apple/tree", " 1"⟩

/-- A handler that is imported from a package. -/
def importedFrom (package route : String) : Value :=
  .record [("external", .record [("package_id", .text package), ("handler_id", .text "h")]),
    ("route", .text route)]

/-- A document that refers to two packages, and to one of them a second time with blanks around. -/
def orchard : Value :=
  .record [("package", .record [("name", .text "orchard"), ("version", .text "1")]),
    ("handler", .list [importedFrom "/apple//tree/ 1" "a", importedFrom "/apple/tree/ 1" "b",
      importedFrom "\u3000/apple//tree/ 1\n" "c"])]

def orchardManifest : Manifest where
  packageName := "orchard"
  packageVersion := "1"
  entries := [⟨.imported ⟨appleTree, "h"⟩ "a", none, .always⟩,
    ⟨.imported ⟨appleTrees, "h"⟩ "b", none, .always⟩,
    ⟨.imported ⟨appleTree, "h"⟩ "c", none, .always⟩]

/-- A source that has an empty invoice for each package. -/
def emptyInvoice (id : PackageId) : Report Invoice :=
  pure { id }

/-- Two of the references are to one package, and the third is to another. -/
theorem divided_and_faithful_orchard :
    ofText? "\u3000/apple//tree/ 1\n" = some appleTree ∧ appleTree.Faithful ∧
      (Staging.directoryOf (.ofText "st") appleTree).text ≠
        (Staging.directoryOf (.ofText "st") appleTrees).text ∧
      ∃ table, Manifest.ofValue "" orchard = .ok orchardManifest ∧
        (prefetch emptyInvoice {} (orchardManifest.references [])).outcome = .ok table ∧
        (byText table).map Prod.fst = ["/apple//tree/ 1", "/apple/tree/ 1"] ∧
        ((byText table).map Prod.fst).Nodup ∧
        (byText table).lookup appleTree.text = table.lookup appleTree := by
  have read : ofText? "\u3000/apple//tree/ 1\n" = some appleTree := by decide +kernel
  have other : appleTrees.Denoted := ⟨appleTrees.text, by decide +kernel⟩
  have apart : ¬ (appleTree = appleTrees ∨
      Digest.Collide appleTree.message appleTrees.message) := by
    rw [Digest.Collide]
    decide +kernel
  have declared : Manifest.ofValue "" orchard = .ok orchardManifest := rfl
  have fetched : (prefetch emptyInvoice {} (orchardManifest.references [])).outcome =
      .ok [(appleTree, { id := appleTree }), (appleTrees, { id := appleTrees })] := rfl
  rcases divided_and_faithful "\u3000/apple//tree/ 1\n" with ⟨-, ofRead, ofTables⟩
  rcases ofRead appleTree read with ⟨-, -, faithful⟩
  rcases ofTables "" orchard orchardManifest [] emptyInvoice {} _ declared fetched with ⟨keys, once⟩
  exact ⟨read, faithful, (faithful.directories _ _ other).not.mpr apart, _, declared, fetched,
    by decide, once, faithful.keys _ keys⟩

end PackageId
end Consignment
