import Consignment.Proofs.Outcome
import Consignment.Yaml.Load

namespace Consignment

/-!
# Keys of documents

In the value of a document no mapping has two entries with the same key, at any depth: a
mapping is filled entry by entry, and an entry with a known key takes the place of the
earlier one.
-/

/-- Every mapping in a value has distinct keys. -/
inductive Value.Keyed : Value → Prop
  | list {items : List Value} (each : ∀ item ∈ items, Keyed item) : Keyed (.list items)
  | map {entries : List (Value × Value)}
      (distinct : entries.Pairwise fun a b => Value.sameKey a.1 b.1 = false)
      (each : ∀ entry ∈ entries, Keyed entry.2) : Keyed (.map entries)
  | other {v : Value} (noList : ∀ items, v ≠ .list items) (noMap : ∀ entries, v ≠ .map entries) :
      Keyed v

namespace Value

theorem Keyed.of_mem_list {items : List Value} (keyed : Keyed (.list items)) {item : Value}
    (mem : item ∈ items) : Keyed item := by
  cases keyed with
  | list each => exact each item mem
  | other noList _ => exact absurd rfl (noList items)

theorem Keyed.of_mem_map {entries : List (Value × Value)} (keyed : Keyed (.map entries))
    {entry : Value × Value} (mem : entry ∈ entries) : Keyed entry.2 := by
  cases keyed with
  | map _ each => exact each entry mem
  | other _ noMap => exact absurd rfl (noMap entries)

theorem Keyed.distinct {entries : List (Value × Value)} (keyed : Keyed (.map entries)) :
    entries.Pairwise fun a b => sameKey a.1 b.1 = false := by
  cases keyed with
  | map distinct _ => exact distinct
  | other _ noMap => exact absurd rfl (noMap entries)

/-! ## Filling a mapping -/

/-- The keys of a mapping do not change when an entry is put into it, except that a new
one is added. -/
theorem mem_putEntry {key value : Value} {done : List (Value × Value)} {entry : Value × Value}
    (mem : entry ∈ putEntry key value done) :
    (∃ old ∈ done, old.1 = entry.1 ∧ (entry.2 = old.2 ∨ entry.2 = value)) ∨
      entry = (key, value) := by
  induction done with
  | nil => exact Or.inr (List.mem_singleton.mp mem)
  | cons first rest ih =>
    rcases first with ⟨k, v⟩
    rw [putEntry] at mem
    split at mem
    · rcases List.mem_cons.mp mem with rfl | later
      · exact Or.inl ⟨_, List.mem_cons_self, rfl, Or.inr rfl⟩
      · exact Or.inl ⟨_, List.mem_cons_of_mem _ later, rfl, Or.inl rfl⟩
    · rcases List.mem_cons.mp mem with rfl | later
      · exact Or.inl ⟨_, List.mem_cons_self, rfl, Or.inl rfl⟩
      · rcases ih later with ⟨old, held, same⟩ | new
        · exact Or.inl ⟨old, List.mem_cons_of_mem _ held, same⟩
        · exact Or.inr new

theorem distinct_putEntry {key value : Value} {done : List (Value × Value)}
    (distinct : done.Pairwise fun a b => sameKey a.1 b.1 = false) :
    (putEntry key value done).Pairwise fun a b => sameKey a.1 b.1 = false := by
  induction done with
  | nil => exact List.pairwise_singleton _ _
  | cons first rest ih =>
    rcases first with ⟨k, v⟩
    rcases List.pairwise_cons.mp distinct with ⟨before, later⟩
    rw [putEntry]
    split
    · exact List.pairwise_cons.mpr ⟨before, later⟩
    · rename_i differs
      refine List.pairwise_cons.mpr ⟨?_, ih later⟩
      intro entry mem
      rcases mem_putEntry mem with ⟨old, held, same, _⟩ | rfl
      · rw [← same]
        exact before old held
      · exact Bool.not_eq_true _ ▸ differs

/-- A mapping has the values of its entries and distinct keys. -/
theorem keyed_mapOf {entries : List (Value × Value)} (each : ∀ entry ∈ entries, Keyed entry.2) :
    Keyed (.map (mapOf entries)) := by
  have filled (done : List (Value × Value))
      (distinct : done.Pairwise fun a b => sameKey a.1 b.1 = false)
      (held : ∀ entry ∈ done, Keyed entry.2) :
      Keyed (.map (entries.foldl (fun done entry => putEntry entry.1 entry.2 done) done)) := by
    induction entries generalizing done with
    | nil => exact .map distinct held
    | cons first rest ih =>
      apply ih (fun entry mem => each entry (List.mem_cons_of_mem _ mem)) _
        (distinct_putEntry distinct)
      intro entry mem
      rcases mem_putEntry mem with ⟨old, before, _, same | same⟩ | rfl
      · rw [same]
        exact held old before
      · rw [same]
        exact each first List.mem_cons_self
      · exact each first List.mem_cons_self
  exact filled [] List.Pairwise.nil fun entry mem => absurd mem List.not_mem_nil

/-- An entry with a new text as its key stands at the end. -/
theorem putEntry_new {s : String} {value : Value} {done : List (Value × Value)}
    (keys : ∀ entry ∈ done, ∃ t, entry.1 = .text t ∧ t ≠ s) :
    putEntry (.text s) value done = done ++ [(.text s, value)] := by
  induction done with
  | nil => rfl
  | cons entry rest ih =>
    rcases entry with ⟨key, v⟩
    rcases keys _ List.mem_cons_self with ⟨t, rfl, other⟩
    rw [putEntry, if_neg (by simpa [sameKey] using other),
      ih fun entry mem => keys entry (List.mem_cons_of_mem _ mem)]
    rfl

theorem foldl_putEntry_texts {done entries : List (Value × Value)}
    (distinct : ((done ++ entries).map Prod.fst).Nodup)
    (keys : ∀ entry ∈ done ++ entries, ∃ s, entry.1 = .text s) :
    entries.foldl (fun done entry => putEntry entry.1 entry.2 done) done = done ++ entries := by
  induction entries generalizing done with
  | nil => exact (List.append_nil done).symm
  | cons entry rest ih =>
    rcases entry with ⟨key, value⟩
    rcases keys (key, value) (List.mem_append_right _ List.mem_cons_self) with ⟨s, same⟩
    obtain rfl : key = .text s := same
    have split : done ++ (.text s, value) :: rest = (done ++ [(.text s, value)]) ++ rest := by simp
    have new : ∀ entry ∈ done, ∃ t, entry.1 = .text t ∧ t ≠ s := by
      intro entry mem
      rcases keys entry (List.mem_append_left _ mem) with ⟨t, same⟩
      refine ⟨t, same, ?_⟩
      rintro rfl
      rw [List.map_append, List.nodup_append] at distinct
      exact distinct.2.2 _ (List.mem_map_of_mem mem) _ List.mem_cons_self same
    rw [List.foldl_cons, putEntry_new new, split]
    rw [split] at distinct keys
    exact ih distinct keys

/-- A mapping from distinct texts has each of its entries. -/
theorem mapOf_texts {entries : List (Value × Value)} (distinct : (entries.map Prod.fst).Nodup)
    (keys : ∀ entry ∈ entries, ∃ s, entry.1 = .text s) : mapOf entries = entries :=
  @foldl_putEntry_texts [] entries distinct keys

/-- What a record has under a name. -/
theorem Keyed.of_lookup {fields : List (String × Value)} (keyed : Keyed (.record fields))
    {name : String} {v : Value} (found : fields.lookup name = some v) : Keyed v := by
  rcases List.lookup_eq_some_iff.mp found with ⟨before, after, whole, _⟩
  have held : (name, v) ∈ fields := by
    rw [whole]
    exact List.mem_append_right _ List.mem_cons_self
  exact keyed.of_mem_map (List.mem_map_of_mem held)

/-- The names of a record are distinct. -/
theorem Keyed.names {fields : List (String × Value)} (keyed : Keyed (.record fields)) :
    (fields.map Prod.fst).Nodup := by
  have distinct := keyed.distinct
  rw [List.pairwise_map] at distinct
  rw [List.Nodup, List.pairwise_map]
  apply distinct.imp
  intro first second differs same
  simp [sameKey, same] at differs

end Value

namespace Yaml

theorem keyed_of_map {α : Type} {kind : α → Value} {outcome : Except Fault α} {v : Value}
    (scalar : ∀ a, (kind a).Keyed) (read : outcome.map kind = .ok v) : v.Keyed := by
  rcases Outcome.map_eq_ok.mp read with ⟨a, _, rfl⟩
  exact scalar a

theorem keyed_readTimestamp {text : List Char} {v : Value} (read : readTimestamp text = .ok v) :
    v.Keyed := by
  unfold readTimestamp at read
  split at read
  · exact absurd read (by simp)
  · split at read
    · exact keyed_of_map (fun d => .other (by simp) (by simp)) read
    · exact keyed_of_map (fun t => .other (by simp) (by simp)) read

theorem keyed_scalarValue {tag : Tag} {text : List Char} {v : Value}
    (read : scalarValue tag text = .ok v) : v.Keyed := by
  cases tag with
  | null =>
    cases read
    exact .other (by simp) (by simp)
  | bool => exact keyed_of_map (fun b => .other (by simp) (by simp)) read
  | int => exact keyed_of_map (fun n => .other (by simp) (by simp)) read
  | float => exact keyed_of_map (fun x => .other (by simp) (by simp)) read
  | binary => exact keyed_of_map (fun b => .other (by simp) (by simp)) read
  | timestamp => exact keyed_readTimestamp read
  | text =>
    cases read
    exact .other (by simp) (by simp)
  | sequence | mapping | set | orderedPairs | pairs | merge | value | other _ =>
    exact absurd read (by simp [scalarValue])

theorem keyed_singleValue {node : Node} {v : Value} (read : singleValue node = .ok v) :
    v.Keyed := by
  simp only [singleValue, Outcome.bind_eq_ok] at read
  rcases read with ⟨text, _, read⟩
  split at read
  · cases read
  · exact keyed_scalarValue read

theorem mem_pairsOf {values : List Value} {v : Value} (mem : v ∈ pairsOf values) :
    ∃ first second, v = .pair first second := by
  fun_induction pairsOf values with
  | case1 key value rest ih =>
    rcases List.mem_cons.mp mem with rfl | later
    · exact ⟨key, value, rfl⟩
    · exact ih later
  | case2 => exact absurd mem List.not_mem_nil

theorem mem_entriesOf {values : List Value} {entry : Value × Value}
    (mem : entry ∈ entriesOf values) : entry.2 ∈ values := by
  fun_induction entriesOf values with
  | case1 key value rest ih =>
    rcases List.mem_cons.mp mem with rfl | later
    · exact List.mem_cons_of_mem _ List.mem_cons_self
    · exact List.mem_cons_of_mem _ (List.mem_cons_of_mem _ (ih later))
  | case2 => exact absurd mem List.not_mem_nil

theorem keyed_valueOf {fuel : Nat} {node : Node} {v : Value} (done : valueOf fuel node = .ok v) :
    v.Keyed := by
  induction fuel generalizing node v with
  | zero => exact keyed_singleValue done
  | succ fuel ih =>
    rw [valueOf.eq_def] at done
    simp only at done
    split at done
    · cases done
      exact .other (by simp) (by simp)
    · split at done
      · simp only [Outcome.bind_eq_ok, Outcome.pure_eq_ok, Outcome.mapM_eq_ok] at done
        rcases done with ⟨parts, _, values, had, rfl⟩
        have each : ∀ value ∈ values, value.Keyed := by
          intro value mem
          rcases Outcome.mem_of_forall₂ had mem with ⟨part, _, filled⟩
          cases part with
          | item inner => exact ih filled
          | key inner => exact ih filled
          | misplaced => exact absurd filled (by simp [malformed])
        split
        · exact .list each
        · refine .list fun item mem => ?_
          rcases mem_pairsOf mem with ⟨first, second, rfl⟩
          exact .other (by simp) (by simp)
        · refine .list fun item mem => ?_
          rcases mem_pairsOf mem with ⟨first, second, rfl⟩
          exact .other (by simp) (by simp)
        · exact .other (by simp) (by simp)
        · exact Value.keyed_mapOf fun entry mem => each _ (mem_entriesOf mem)
      · exact keyed_singleValue done

/-- Every mapping of a document has distinct keys. -/
theorem keyed_load {text : List Char} {v : Value} (loaded : load text = .ok v) : v.Keyed := by
  simp only [load, Outcome.bind_eq_ok] at loaded
  rcases loaded with ⟨root?, _, rest⟩
  cases root? with
  | none =>
    cases Outcome.pure_eq_ok.mp rest
    exact .other (fun _ => Value.noConfusion) (fun _ => Value.noConfusion)
  | some root =>
    simp only [Outcome.bind_eq_ok] at rest
    rcases rest with ⟨_, _, done⟩
    exact keyed_valueOf done

end Yaml
end Consignment
