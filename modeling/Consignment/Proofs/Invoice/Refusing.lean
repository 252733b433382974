import Consignment.Invoice.Decode
import Consignment.Proofs.Ending
import Consignment.Proofs.Value.Showable

namespace Consignment

open Outcome

/-!
# Which documents the reader of invoices refuses

Whatever document an invoice is read from, there should be an invoice or a refusal that says
what is invalid.  Each level of the decoder is followed once, with a statement of how it ends:
it is refused, or it lets a fault of the layers below pass.

There are two faults that are let pass wherever the rest of the document is in order, and for
these `Gap` says of each level which documents have them.  The third is that of an integer too
long to be written out.  It can be anywhere that a text is made of a value, be it for the invoice
or for a refusal, so that only the other direction is stated: it takes such an integer.
-/

namespace Value

/-! ## Parts of a document that are refused -/

/-- How a part of a document fails that is no fault of a layer below: it is refused, unless an
integer in it is too long for the message. -/
def Refused (v : Value) (failure : Failure) : Prop :=
  (∃ cause, failure = .invalid cause) ∨ failure = .escaped .longInteger ∧ v.isShowable = false

/-- A part of a document is refused as a part of the whole. -/
theorem Refused.of_part {part whole : Value} {failure : Failure} (refused : part.Refused failure)
    (shown : whole.isShowable = true → part.isShowable = true) : whole.Refused failure := by
  rcases refused with proper | ⟨escaped, long⟩
  · exact .inl proper
  · refine .inr ⟨escaped, ?_⟩
    by_contra short
    rw [shown (Bool.not_eq_false _ ▸ short)] at long
    exact absurd long (by simp)

theorem refused_failure {v : Value} {cause : InvalidInput} (shows : cause.value? = some v) :
    v.Refused cause.failure := by
  unfold InvalidInput.failure
  rw [shows, Option.all_some]
  split
  · exact .inl ⟨cause, rfl⟩
  · rename_i long
    exact .inr ⟨rfl, Bool.not_eq_true _ ▸ long⟩

/-- What is taken as plain text is short enough for that, or too long to be shown. -/
theorem ends_written (v : Value) :
    Ends (fun _ => v.isShowable = true)
      (fun fault => fault = .longInteger ∧ v.isShowable = false) v.written := by
  unfold written
  split
  · rfl
  · split
    · assumption
    · rename_i long
      exact ⟨rfl, Bool.not_eq_true _ ▸ long⟩

theorem exists_written {v : Value} (short : v.isShowable = true) : ∃ text, v.written = .ok text := by
  cases done : v.written with
  | ok text => exact ⟨text, rfl⟩
  | error fault =>
    have long := ((ends_written v).of_error done).2
    rw [short] at long
    exact absurd long (by simp)

theorem ends_plainText (v : Value) :
    Ends (fun _ => v.isShowable = true) v.Refused (v.written.mapError .escaped) := by
  refine ends_mapError.mpr ((ends_written v).mono (fun _ => id) ?_)
  rintro _ ⟨rfl, long⟩
  exact .inr ⟨rfl, long⟩

theorem ends_textList? (field : String) (v : Value) :
    Ends (fun _ => True) v.Refused (textList? field v) := by
  unfold textList?
  split
  · trivial
  · split
    · trivial
    · exact refused_failure rfl
  · exact refused_failure rfl

theorem ends_textMap? (field : String) (v : Value) :
    Ends (fun _ => True) v.Refused (textMap? field v) := by
  unfold textMap?
  split
  · trivial
  · split
    · trivial
    · exact refused_failure rfl
  · exact refused_failure rfl

theorem ends_featureEntries (field : String) {whole entries : List (Value × Value)}
    (part : entries ⊆ whole) (done : FeatureMap) :
    Ends (fun _ => True) (map whole).Refused (featureEntries field entries done) := by
  induction entries generalizing done with
  | nil => trivial
  | cons entry rest ih =>
    have shown (short : (map whole).isShowable = true) :
        entry.1.isShowable = true ∧ entry.2.isShowable = true :=
      isShowable_map.mp short entry (part List.mem_cons_self)
    have key : Ends (fun _ => True) (map whole).Refused (entry.1.written.mapError .escaped) :=
      (ends_plainText entry.1).mono (fun _ _ => trivial)
        fun _ refused => refused.of_part fun short => (shown short).1
    have texts (name : String) :
        Ends (fun _ => True) (map whole).Refused (textMap? (field ++ "." ++ name) entry.2) :=
      (ends_textMap? _ entry.2).mono (fun _ => id)
        fun _ refused => refused.of_part fun short => (shown short).2
    rw [featureEntries]
    refine key.bind_any fun name => (texts name).bind_any fun texts => ?_
    exact ih (fun entry mem => part (List.mem_cons_of_mem _ mem)) _

theorem ends_featureMap? (field : String) (v : Value) :
    Ends (fun _ => True) v.Refused (featureMap? field v) := by
  unfold featureMap?
  split
  · trivial
  · exact (ends_featureEntries field (List.Subset.refl _) []).map_any
  · exact refused_failure rfl

/-! ## Fields -/

theorem mem_of_field? {name : String} {entries : List (Value × Value)} {v : Value}
    (found : field? name entries = some v) : (text name, v) ∈ entries := by
  fun_induction field? name entries with
  | case1 => exact absurd found (by simp)
  | case2 key value rest same =>
    cases found
    cases beq_iff_eq.mp same
    exact List.mem_cons_self
  | case3 key value rest differs ih => exact List.mem_cons_of_mem _ (ih found)
  | case4 entry rest noText ih => exact List.mem_cons_of_mem _ (ih found)

/-- What a document has under a name can be shown when the document can. -/
theorem isShowable_of_field? {name : String} {entries : List (Value × Value)} {v : Value}
    (found : field? name entries = some v) (short : (map entries).isShowable = true) :
    v.isShowable = true :=
  (isShowable_map.mp short _ (mem_of_field? found)).2

theorem isShowable_getD_field? {name : String} {entries : List (Value × Value)} {default : Value}
    (other : default.isShowable = true) (short : (map entries).isShowable = true) :
    ((field? name entries).getD default).isShowable = true := by
  cases found : field? name entries with
  | none => exact other
  | some v => exact isShowable_of_field? found short

theorem isShowable_entryOrNull {name : String} {entries : List (Value × Value)} :
    (map entries).isShowable = true → (entryOrNull name entries).isShowable = true :=
  isShowable_getD_field? rfl

/-- How a part of a document fails that can let some faults pass. -/
def Fails (gap : Fault → Prop) (v : Value) (failure : Failure) : Prop :=
  v.Refused failure ∨ ∃ fault, failure = .escaped fault ∧ gap fault

/-- What is refused in a part is refused in the whole. -/
theorem ends_part {α : Type} {Q : α → Prop} {gap : Fault → Prop} {part whole : Value}
    {outcome : Except Failure α} (ends : Ends Q part.Refused outcome)
    (shown : whole.isShowable = true → part.isShowable = true) :
    Ends Q (whole.Fails gap) outcome :=
  ends.mono (fun _ => id) fun _ refused => .inl (refused.of_part shown)

theorem ends_fails {α : Type} {Q : α → Prop} {gap : Fault → Prop} {v : Value}
    {outcome : Except Failure α} (ends : Ends Q v.Refused outcome) : Ends Q (v.Fails gap) outcome :=
  ends.mono (fun _ => id) fun _ => .inl

/-! ## Sizes and items -/

/-- A value that has no items: a truth value, a number, or a point in time. -/
inductive Itemless : Value → Prop
  | null : Itemless .null
  | bool (b : Bool) : Itemless (.bool b)
  | int (n : Int) : Itemless (.int n)
  | float (x : Float) : Itemless (.float x)
  | date (d : Date) : Itemless (.date d)
  | moment (t : Moment) : Itemless (.moment t)

theorem items_eq_error {v : Value} {fault : Fault} :
    v.items = .error fault ↔ v.Itemless ∧ fault = .kindAsList v.qualifiedKindName := by
  constructor
  · intro failed
    cases v <;> cases failed <;> exact ⟨by constructor, rfl⟩
  · rintro ⟨itemless, rfl⟩
    cases itemless <;> rfl

/-- What a value has as items can be shown when the value can. -/
theorem isShowable_items {v : Value} {items : List Value} (read : v.items = .ok items)
    (short : v.isShowable = true) : ∀ item ∈ items, item.isShowable = true := by
  cases v with
  | list members | set members =>
    cases read
    exact isShowable_list.mp short
  | map entries =>
    cases read
    intro key mem
    rcases List.mem_map.mp mem with ⟨entry, held, rfl⟩
    exact (isShowable_map.mp short entry held).1
  | pair first second =>
    cases read
    simpa [isShowable] using short
  | text s =>
    cases read
    intro item mem
    rcases List.mem_map.mp mem with ⟨c, _, rfl⟩
    rfl
  | bytes b =>
    cases read
    intro item mem
    rcases List.mem_map.mp mem with ⟨byte, _, rfl⟩
    exact isShowable_byte byte
  | enclosing isMap =>
    cases read
    exact fun item mem => absurd mem List.not_mem_nil
  | _ => cases read

/-- An infinite number. -/
def Infinite (v : Value) : Prop :=
  ∃ x negative, v = .float x ∧ Number.parts x = .infinite negative

theorem toInteger_eq_infinity {v : Value} :
    v.toInteger = .error .infinityAsInteger ↔ v.Infinite := by
  constructor
  · intro failed
    cases v with
    | float x =>
      rw [toInteger] at failed
      split at failed
      · cases failed
      · rename_i negative parts
        exact ⟨x, negative, rfl, parts⟩
      · cases failed
    | text s =>
      rcases mapError_eq_error.mp failed with ⟨fault, _, other⟩
      cases other
    | bytes b =>
      rcases mapError_eq_error.mp failed with ⟨fault, _, other⟩
      cases other
    | _ => cases failed
  · rintro ⟨x, negative, rfl, parts⟩
    rw [toInteger, parts]

end Value

/-! ## Labels -/

namespace Label

/-- The fault that reading a label lets pass: its size is infinite, and what is read before
the size is there and short enough. -/
inductive Gap : Value → Fault → Prop
  | size {entries : List (Value × Value)} {name digest size : Value}
      (named : Value.field? "name" entries = some name) (nameShort : name.isShowable = true)
      (digested : Value.field? "sha256" entries = some digest)
      (digestShort : digest.isShowable = true)
      (sized : Value.field? "size" entries = some size) (infinite : size.Infinite) :
      Gap (.map entries) .infinityAsInteger

theorem ofValue_of_gap {v : Value} {fault : Fault} (gap : Gap v fault) :
    ofValue v = .error (.escaped fault) := by
  rcases gap with ⟨named, nameShort, digested, digestShort, sized, infinite⟩
  rcases Value.exists_written nameShort with ⟨nameText, nameWritten⟩
  rcases Value.exists_written digestShort with ⟨digestText, digestWritten⟩
  have failed := Value.toInteger_eq_infinity.mpr infinite
  rw [ofValue]
  simp only [named, digested, sized, nameWritten, digestWritten, failed, Option.getD_some,
    Outcome.mapError_ok, Outcome.ok_bind]
  rfl

theorem refused_fieldFailure {whole : Value} {fault : Fault} (finite : fault ≠ .infinityAsInteger) :
    whole.Refused (fieldFailure whole fault) := by
  unfold fieldFailure
  split
  · exact absurd rfl finite
  · exact Value.refused_failure rfl

/-- A text that a label has to have. -/
theorem ends_need (whole : Value) (entries : List (Value × Value)) (name : String) :
    Ends (fun _ => ∃ v, Value.field? name entries = some v ∧ v.isShowable = true) whole.Refused
      (match Value.field? name entries with
      | some value => value.written.mapError (fieldFailure whole)
      | none => .error (fieldFailure whole (.missingField name))) := by
  split
  · rename_i value found
    refine ends_mapError.mpr ((Value.ends_written value).mono ?_ ?_)
    · exact fun _ short => ⟨value, found, short⟩
    · rintro _ ⟨rfl, _⟩
      exact refused_fieldFailure (by simp)
  · exact refused_fieldFailure (by simp)

/-- The size of a label is infinite, or what is wrong with it makes the label invalid. -/
theorem ends_size (whole : Value) (entries : List (Value × Value)) :
    Ends (fun _ => True)
      (fun failure => whole.Refused failure ∨ failure = .escaped .infinityAsInteger ∧
        ∃ size, Value.field? "size" entries = some size ∧ size.Infinite)
      (((Value.field? "size" entries).getD (.int 0)).toInteger.mapError (fieldFailure whole)) := by
  cases failed : ((Value.field? "size" entries).getD (.int 0)).toInteger with
  | ok n => trivial
  | error fault =>
    by_cases infinite : fault = .infinityAsInteger
    · subst infinite
      cases sized : Value.field? "size" entries with
      | none =>
        rw [sized] at failed
        cases failed
      | some size =>
        rw [sized] at failed
        exact .inr ⟨rfl, size, rfl, Value.toInteger_eq_infinity.mp failed⟩
    · exact .inl (refused_fieldFailure infinite)

theorem ends_ofValue (v : Value) : Ends (fun _ => True) (v.Fails (Gap v)) (ofValue v) := by
  unfold ofValue
  split
  · rename_i entries
    refine (Value.ends_fails (ends_need _ entries "name")).bind fun name named => ?_
    refine (Value.ends_fails (ends_need _ entries "sha256")).bind fun digest digested => ?_
    rcases named with ⟨name, named, nameShort⟩
    rcases digested with ⟨digest, digested, digestShort⟩
    refine Ends.bind_any ((ends_size _ entries).mono (fun _ => id) ?_) fun size => ?_
    · rintro failure (refused | ⟨rfl, size, sized, infinite⟩)
      · exact .inl refused
      · exact .inr ⟨_, rfl, .size named nameShort digested digestShort sized infinite⟩
    refine (Value.ends_part (Value.ends_plainText _) (Value.isShowable_getD_field? rfl)).bind
      fun mediaType _ => ?_
    refine (Value.ends_part (Value.ends_featureMap? _ _) Value.isShowable_entryOrNull).bind_any
      fun feature => ?_
    exact (Value.ends_part (Value.ends_textMap? _ _) Value.isShowable_entryOrNull).bind_any
      fun annotations => trivial
  · exact .inl (Value.refused_failure rfl)

end Label

/-! ## Parcels -/

namespace Parcel

/-- The faults that reading a parcel lets pass: those of its label, if the conditions can be
read, which are read first. -/
inductive Gap : Value → Fault → Prop
  | label {entries : List (Value × Value)} {label : Value} {fault : Fault}
      (found : Value.field? "label" entries = some label)
      (conditions : ∃ m, membershipOfValue (Value.entryOrNull "conditions" entries) = .ok m)
      (gap : Label.Gap label fault) : Gap (.map entries) fault

theorem ofValue_of_gap {v : Value} {fault : Fault} (gap : Gap v fault) :
    ofValue v = .error (.escaped fault) := by
  rcases gap with ⟨found, ⟨m, conditions⟩, gap⟩
  simp only [ofValue, found, conditions, Label.ofValue_of_gap gap, Outcome.ok_bind,
    Outcome.error_bind]

theorem ends_membershipOfValue (v : Value) :
    Ends (fun _ => True) v.Refused (membershipOfValue v) := by
  unfold membershipOfValue
  refine .ite trivial ?_
  split
  · rename_i entries
    have texts (name field : String) : Ends (fun _ => True) (Value.map entries).Refused
        (Value.textList? field (Value.entryOrNull name entries)) :=
      (Value.ends_textList? _ _).mono (fun _ => id)
        fun _ refused => refused.of_part Value.isShowable_entryOrNull
    exact (texts _ _).bind_any fun memberOf => (texts _ _).bind_any fun requires => trivial
  · exact Value.refused_failure rfl

theorem ends_ofValue (v : Value) : Ends (fun _ => True) (v.Fails (Gap v)) (ofValue v) := by
  unfold ofValue
  split
  · split
    · exact .inl (Value.refused_failure rfl)
    · rename_i entries _ label found
      refine (Value.ends_part (ends_membershipOfValue _) Value.isShowable_entryOrNull).known.bind
        fun m conditions => ?_
      refine Ends.bind_any ((Label.ends_ofValue label).mono (fun _ => id) ?_) fun label => trivial
      rintro failure (refused | ⟨fault, rfl, gap⟩)
      · exact .inl (refused.of_part (Value.isShowable_of_field? found))
      · exact .inr ⟨fault, rfl, .label found ⟨m, conditions.1⟩ gap⟩
  · exact .inl (Value.refused_failure rfl)

end Parcel

/-! ## Invoices -/

namespace Invoice

variable {entries header : List (Value × Value)}

/-- The faults that reading an invoice lets pass.  The groups are a value without items, or
the first parcel that cannot be read lets a fault pass; what is read before can be read. -/
inductive Gap : Value → Fault → Prop
  | group {entries header : List (Value × Value)} {id : PackageId}
      (heads : headerOf entries = .ok header) (identified : idOfEntries entries header = .ok id)
      (present : (Value.entryOrNull "group" entries).isVoid = false)
      (itemless : (Value.entryOrNull "group" entries).Itemless) :
      Gap (.map entries) (.kindAsList (Value.entryOrNull "group" entries).qualifiedKindName)
  | parcel {entries header : List (Value × Value)} {id : PackageId} {groups : List String}
      {before after : List Value} {parcel : Value} {authors : Option (List String)}
      {annotations : Option TextMap} {fault : Fault}
      (heads : headerOf entries = .ok header) (identified : idOfEntries entries header = .ok id)
      (grouped : groupsOf entries = .ok groups)
      (listed : Value.entryOrNull "parcel" entries = .list (before ++ parcel :: after))
      (written : Value.textList? "authors" (fieldOrHeader "authors" entries header) = .ok authors)
      (annotated : Value.textMap? "annotations" (Value.entryOrNull "annotations" entries) =
        .ok annotations)
      (earlier : ∀ p ∈ before, ∃ read, Parcel.ofValue p = .ok read)
      (gap : Parcel.Gap parcel fault) : Gap (.map entries) fault

theorem ends_headerOf (entries : List (Value × Value)) :
    Ends
      (fun header => (Value.map entries).isShowable = true → (Value.map header).isShowable = true)
      (Value.map entries).Refused (headerOf entries) := by
  unfold headerOf
  split
  · rename_i header found
    exact fun short => found ▸ Value.isShowable_entryOrNull short
  · refine .ite (fun _ => rfl) ?_
    exact (Value.refused_failure rfl).of_part Value.isShowable_entryOrNull

section

variable (shown : (Value.map entries).isShowable = true → (Value.map header).isShowable = true)
include shown

theorem isShowable_fieldOrHeader {name : String}
    (short : (Value.map entries).isShowable = true) :
    (fieldOrHeader name entries header).isShowable = true :=
  Value.isShowable_getD_field? (Value.isShowable_entryOrNull (shown short)) short

theorem ends_idOfEntries :
    Ends (fun _ => True) (Value.map entries).Refused (idOfEntries entries header) := by
  unfold idOfEntries
  split
  · rename_i value found
    refine Ends.bind_any ((Value.ends_plainText value).mono (fun _ _ => trivial) ?_) fun text => ?_
    · exact fun _ refused => refused.of_part (Value.isShowable_of_field? found)
    · split
      · trivial
      · exact .inl ⟨_, rfl⟩
  · have text (name : String) : Ends (fun _ => True) (Value.map entries).Refused
        ((Value.entryOrNull name header).written.mapError Failure.escaped) :=
      (Value.ends_plainText _).mono (fun _ _ => trivial) fun _ refused =>
        refused.of_part fun short => Value.isShowable_entryOrNull (shown short)
    refine .ite (.inl ⟨_, rfl⟩) ?_
    exact (text "name").bind_any fun name => (text "version").bind_any fun version => trivial

end

theorem ends_groupOfValue (v : Value) : Ends (fun _ => True) v.Refused (groupOfValue v) := by
  unfold groupOfValue
  split
  · split
    · rename_i entries _ name found
      refine (Value.ends_plainText name).mono (fun _ _ => trivial) fun _ refused => ?_
      exact refused.of_part (Value.isShowable_of_field? found)
    · exact Value.refused_failure rfl
  · exact Value.refused_failure rfl

/-- The groups are read, unless they are refused or a value without items. -/
theorem ends_groupsOf (entries : List (Value × Value)) :
    Ends (fun _ => True)
      (fun failure => (Value.map entries).Refused failure ∨
        failure = .escaped (.kindAsList (Value.entryOrNull "group" entries).qualifiedKindName) ∧
          (Value.entryOrNull "group" entries).isVoid = false ∧
          (Value.entryOrNull "group" entries).Itemless)
      (groupsOf entries) := by
  unfold groupsOf
  dsimp only
  split
  · trivial
  · rename_i present
    cases read : (Value.entryOrNull "group" entries).items with
    | error fault =>
      rcases Value.items_eq_error.mp read with ⟨itemless, rfl⟩
      exact .inr ⟨rfl, Bool.not_eq_true _ ▸ present, itemless⟩
    | ok items =>
      refine .mapM_any fun item mem => (ends_groupOfValue item).mono (fun _ _ => trivial) ?_
      refine fun _ refused => .inl (refused.of_part fun short => ?_)
      exact Value.isShowable_items read (Value.isShowable_entryOrNull short) item mem

theorem ends_parcelItemsOf (entries : List (Value × Value)) :
    Ends (fun items => Value.entryOrNull "parcel" entries = .list items ∨ items = [])
      (Value.map entries).Refused (parcelItemsOf entries) := by
  unfold parcelItemsOf
  split
  · rename_i items found
    exact .inl found
  · refine .ite (.inr rfl) ?_
    exact (Value.refused_failure rfl).of_part Value.isShowable_entryOrNull

/-- The parcels are read, unless the first that is not is refused or lets a fault pass. -/
theorem ends_parcels {items : List Value}
    (listed : Value.entryOrNull "parcel" entries = .list items ∨ items = []) :
    Ends (fun _ => True)
      (fun failure => (Value.map entries).Refused failure ∨ ∃ before parcel after fault,
        failure = .escaped fault ∧
          Value.entryOrNull "parcel" entries = .list (before ++ parcel :: after) ∧
          (∀ p ∈ before, ∃ read, Parcel.ofValue p = .ok read) ∧ Parcel.Gap parcel fault)
      (items.mapM Parcel.ofValue) := by
  cases failed : items.mapM Parcel.ofValue with
  | ok read => trivial
  | error failure =>
    rcases mapM_eq_error.mp failed with ⟨before, parcel, after, rfl, earlier, here⟩
    have list : Value.entryOrNull "parcel" entries = .list (before ++ parcel :: after) :=
      listed.resolve_right (by simp)
    rcases (Parcel.ends_ofValue parcel).of_error here with refused | ⟨fault, rfl, gap⟩
    · refine .inl (refused.of_part fun short => ?_)
      have each := Value.isShowable_list.mp (list ▸ Value.isShowable_entryOrNull short)
      exact each parcel (List.mem_append_right _ List.mem_cons_self)
    · exact .inr ⟨before, parcel, after, fault, rfl, list, earlier, gap⟩

theorem ends_ofValue (v : Value) : Ends (fun _ => True) (v.Fails (Gap v)) (ofValue v) := by
  unfold ofValue
  split
  · rename_i entries
    refine (Value.ends_fails (ends_headerOf entries)).known.bind fun header heads => ?_
    refine (Value.ends_fails (ends_idOfEntries heads.2)).known.bind fun id identified => ?_
    have groups : Ends (fun _ => True) ((Value.map entries).Fails (Gap (.map entries)))
        (groupsOf entries) := by
      refine (ends_groupsOf entries).mono (fun _ _ => trivial) ?_
      rintro failure (refused | ⟨rfl, present, itemless⟩)
      · exact .inl refused
      · exact .inr ⟨_, rfl, .group heads.1 identified.1 present itemless⟩
    refine groups.known.bind fun groups grouped => ?_
    refine (Value.ends_fails (ends_parcelItemsOf entries)).bind fun items listed => ?_
    refine (Value.ends_part (Value.ends_textList? _ _)
      (isShowable_fieldOrHeader heads.2)).known.bind fun authors written => ?_
    refine (Value.ends_part (Value.ends_textMap? _ _)
      Value.isShowable_entryOrNull).known.bind fun annotations annotated => ?_
    refine Ends.bind_any ((ends_parcels listed).mono (fun _ _ => trivial) ?_) fun parcels => trivial
    rintro failure (refused | ⟨before, parcel, after, fault, rfl, list, earlier, gap⟩)
    · exact .inl refused
    · exact .inr ⟨fault, rfl,
        .parcel heads.1 identified.1 grouped.1 list written.1 annotated.1 earlier gap⟩
  · exact .inl (.inl ⟨_, rfl⟩)

theorem groupsOf_of_itemless (present : (Value.entryOrNull "group" entries).isVoid = false)
    (itemless : (Value.entryOrNull "group" entries).Itemless) :
    groupsOf entries =
      .error (.escaped (.kindAsList (Value.entryOrNull "group" entries).qualifiedKindName)) := by
  have failed := Value.items_eq_error.mpr ⟨itemless, rfl⟩
  simp only [groupsOf, present, failed]
  rfl

theorem mapM_of_gap {before after : List Value} {parcel : Value} {fault : Fault}
    (earlier : ∀ p ∈ before, ∃ read, Parcel.ofValue p = .ok read) (gap : Parcel.Gap parcel fault) :
    (before ++ parcel :: after).mapM Parcel.ofValue = .error (.escaped fault) :=
  mapM_eq_error.mpr ⟨before, parcel, after, rfl, earlier, Parcel.ofValue_of_gap gap⟩

theorem ofValue_of_gap {v : Value} {fault : Fault} (gap : Gap v fault) :
    ofValue v = .error (.escaped fault) := by
  cases gap with
  | group heads identified present itemless =>
    simp only [ofValue, heads, identified, groupsOf_of_itemless present itemless, Outcome.ok_bind,
      Outcome.error_bind]
  | parcel heads identified grouped listed written annotated earlier gap =>
    simp only [ofValue, heads, identified, grouped, parcelItemsOf, listed, written, annotated,
      mapM_of_gap earlier gap, Outcome.ok_bind, Outcome.error_bind]

theorem ne_longInteger_of_gap {v : Value} {fault : Fault} (gap : Gap v fault) :
    fault ≠ .longInteger := by
  cases gap with
  | group => simp
  | parcel _ _ _ _ _ _ _ gap =>
    rcases gap with ⟨_, _, gap⟩
    cases gap
    simp

/-- Reading an invoice keeps its contract but for the faults of `Gap`. -/
theorem contract_ofValue (v : Value) :
    Contract (fun _ => True) (fun failure => ∃ cause, failure = .invalid cause) (Gap v)
      (v.isShowable = false) (ofValue v) := by
  refine .of_ends ((ends_ofValue v).mono (fun _ _ => trivial) ?_) (fun _ => ofValue_of_gap)
    (by simp) fun gap => ne_longInteger_of_gap gap rfl
  rintro failure ((proper | ⟨rfl, long⟩) | ⟨fault, rfl, gap⟩)
  · exact .inl proper
  · exact .inr ⟨_, rfl, .inr ⟨rfl, long⟩⟩
  · exact .inr ⟨fault, rfl, .inl gap⟩

end Invoice
end Consignment
