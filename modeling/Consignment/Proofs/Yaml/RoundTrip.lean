import Consignment.Proofs.Value.Showable
import Consignment.Proofs.Yaml.Keys
import Consignment.Proofs.Yaml.Reading
import Consignment.Proofs.Yaml.Values

namespace Consignment
namespace Yaml

open Outcome

/-!
# Values that come back

The node of a value is filled with that value again.  Two things could go wrong with a node that is
no scalar.  A mapping takes up other mappings under a merge key, but the keys of such nodes are
texts, and a text is none.  And an entry takes the place of another one with the same key, so the
keys have to be distinct.

An integer is read from its decimal digits, if there are not too many of them.
-/

/-- A value of texts, integers that are short enough, lists, and mappings from distinct texts. -/
inductive Common : Value → Prop
  | text (s : String) : Common (.text s)
  | int {n : Int} (short : (Value.int n).isShowable = true) : Common (.int n)
  | list {items : List Value} (each : ∀ item ∈ items, Common item) : Common (.list items)
  | map {entries : List (Value × Value)} (distinct : (entries.map Prod.fst).Nodup)
      (keys : ∀ entry ∈ entries, ∃ s, entry.1 = .text s)
      (values : ∀ entry ∈ entries, Common entry.2) : Common (.map entries)

theorem common_of_loadable {indent : Option Nat} {compact : Bool} {v : Value}
    (loadable : Loadable indent compact v) (shown : v.isShowable = true) : Common v := by
  induction loadable with
  | text => exact .text _
  | int => exact .int shown
  | list each common =>
    have shown := Value.isShowable_list.mp shown
    exact .list fun item mem => common item mem (shown item mem)
  | map distinct keys values common =>
    have shown := Value.isShowable_map.mp shown
    refine .map distinct (fun entry mem => ?_) fun entry mem => common entry mem (shown entry mem).2
    rcases keys entry mem with ⟨s, same, _⟩
    exact ⟨s, same⟩

/-! ## Parts -/

@[simp] theorem nodesOf_eq_map (items : List Value) : nodesOf items = items.map nodeOf := by
  induction items with
  | nil => rfl
  | cons item rest ih => rw [nodesOf, ih, List.map_cons]

@[simp] theorem entryNodes_eq_map (entries : List (Value × Value)) :
    entryNodes entries = entries.map fun entry => (nodeOf entry.1, nodeOf entry.2) := by
  induction entries with
  | nil => rfl
  | cons entry rest ih => rw [entryNodes, ih, List.map_cons]

theorem parts_list (items : List Value) :
    parts (nodeOf (.list items)) = .ok (items.map fun item => .item (nodeOf item)) := by
  have whole : parts (nodeOf (.list items)) = .ok ((nodesOf items).map .item) := rfl
  rw [whole, nodesOf_eq_map, List.map_map]
  rfl

/-- A mapping from texts takes up no other entries. -/
theorem flattened_texts {entries : List (Value × Value)}
    (keys : ∀ entry ∈ entries, ∃ s, entry.1 = .text s) :
    flattened (entryNodes entries) = .ok ([], entryNodes entries) := by
  induction entries with
  | nil => rfl
  | cons entry rest ih =>
    rcases entry with ⟨key, value⟩
    rcases keys _ List.mem_cons_self with ⟨s, rfl⟩
    rw [entryNodes]
    show (flattened (entryNodes rest) >>= _) = _
    rw [ih fun entry mem => keys entry (List.mem_cons_of_mem _ mem)]
    rfl

theorem parts_map {entries : List (Value × Value)}
    (keys : ∀ entry ∈ entries, ∃ s, entry.1 = .text s) :
    parts (nodeOf (.map entries)) =
      .ok (entries.flatMap fun entry => [.key (nodeOf entry.1), .item (nodeOf entry.2)]) := by
  have all : allEntries (entryNodes entries) = .ok (entryNodes entries) := by
    rw [allEntries, flattened_texts keys]
    rfl
  have whole : parts (nodeOf (.map entries)) = (do
      return (← allEntries (entryNodes entries)).flatMap fun entry => [.key entry.1, .item entry.2]) :=
    rfl
  rw [whole, all, Outcome.ok_bind, entryNodes_eq_map, List.flatMap_map]
  rfl

/-! ## The way through a document -/

/-- A part that is the node of a value, and that of a text where it is a key. -/
inductive CommonPart : Part → Prop
  | item {v : Value} (common : Common v) : CommonPart (.item (nodeOf v))
  | key (s : String) : CommonPart (.key (nodeOf (.text s)))

/-- The value of a node that is no collection. -/
theorem singleValue_nodeOf {v : Value} (common : Common v)
    (single : isCollection (nodeTag (nodeOf v)) = false) : singleValue (nodeOf v) = .ok v := by
  cases common with
  | text s =>
    have whole : singleValue (nodeOf (.text s)) = .ok (.text (String.ofList s.toList)) := rfl
    rw [whole, String.ofList_toList]
  | @int n short =>
    have whole : singleValue (nodeOf (.int n)) = (readInt (Text.decimal n).toList).map .int := rfl
    rw [whole, readInt_decimal short]
    rfl
  | list => exact Bool.noConfusion single
  | map => exact Bool.noConfusion single

/-- The parts of the node of a value are the nodes of values. -/
theorem ends_parts_common {v : Value} (common : Common v)
    (collection : isCollection (nodeTag (nodeOf v)) = true) :
    Ends (fun parts => ∀ part ∈ parts, CommonPart part) (fun _ => False) (parts (nodeOf v)) := by
  cases common with
  | text s => exact Bool.noConfusion collection
  | int => exact Bool.noConfusion collection
  | list each =>
    rw [parts_list, ends_ok]
    intro part mem
    rcases List.mem_map.mp mem with ⟨item, held, rfl⟩
    exact .item (each item held)
  | map distinct keys values =>
    rw [parts_map keys, ends_ok]
    intro part mem
    rcases List.mem_flatMap.mp mem with ⟨entry, held, mem⟩
    rcases keys entry held with ⟨s, same⟩
    simp only [List.mem_cons, List.not_mem_nil, or_false] at mem
    rcases mem with rfl | rfl
    · rw [same]
      exact .key s
    · exact .item (values entry held)

/-- A node that is filled later is that of a value. -/
def IsFilled (node : Node) : Prop :=
  isCollection (nodeTag node) = true ∧ ∃ v, Common v ∧ nodeOf v = node

theorem ends_later_common {parts : List Part} (each : ∀ part ∈ parts, CommonPart part) :
    Ends (fun nodes => ∀ node ∈ nodes, IsFilled node) (fun _ => False) (later parts) := by
  induction parts with
  | nil => exact fun node mem => absurd mem List.not_mem_nil
  | cons part rest ih =>
    have others := ih fun part mem => each part (List.mem_cons_of_mem _ mem)
    cases each part List.mem_cons_self with
    | key s =>
      rw [later, singleValue_nodeOf (.text s) rfl]
      exact others
    | @item v common =>
      rw [later]
      cases collection : isCollection (nodeTag (nodeOf v)) with
      | true =>
        rw [if_pos rfl]
        refine others.bind fun nodes filled => ?_
        exact List.forall_mem_cons.mpr ⟨⟨collection, v, common, rfl⟩, filled⟩
      | false =>
        rw [if_neg Bool.false_ne_true, singleValue_nodeOf common collection]
        exact others

theorem ends_laterOfAll_common {nodes : List Node} (filled : ∀ node ∈ nodes, IsFilled node) :
    Ends (fun nodes => ∀ node ∈ nodes, IsFilled node) (fun _ => False) (laterOfAll nodes) := by
  induction nodes with
  | nil => exact fun node mem => absurd mem List.not_mem_nil
  | cons node rest ih =>
    rcases filled node List.mem_cons_self with ⟨collection, v, common, rfl⟩
    rw [laterOfAll]
    refine (ends_parts_common common collection).bind fun parts here => ?_
    refine (ends_later_common here).bind fun first here => ?_
    refine (ih fun node mem => filled node (List.mem_cons_of_mem _ mem)).bind fun others later => ?_
    exact List.forall_mem_append.mpr ⟨here, later⟩

theorem ends_checkRounds_common (fuel : Nat) {nodes : List Node}
    (filled : ∀ node ∈ nodes, IsFilled node) :
    Ends (fun _ => True) (fun _ => False) (checkRounds fuel nodes) := by
  induction fuel generalizing nodes with
  | zero => cases nodes <;> trivial
  | succ fuel ih =>
    cases nodes with
    | nil => trivial
    | cons node rest => exact (ends_laterOfAll_common filled).bind fun nodes filled => ih filled

/-- There is no fault on the way through the node of a value. -/
theorem check_nodeOf {v : Value} (common : Common v) : check (nodeOf v) = .ok () := by
  have whole : ∀ part ∈ [Part.item (nodeOf v)], CommonPart part := by
    intro part mem
    cases List.mem_singleton.mp mem
    exact .item common
  have ends : Ends (fun _ => True) (fun _ => False) (check (nodeOf v)) := by
    unfold check
    exact (ends_later_common whole).bind fun nodes filled => ends_checkRounds_common _ filled
  cases checked : check (nodeOf v) with
  | ok => rfl
  | error fault => exact (ends.of_error checked).elim

/-! ## Filling a node -/

theorem depth_le_of_mem {items : List Value} {item : Value} (mem : item ∈ items) :
    depth (nodeOf item) ≤ depthOfItems (nodesOf items) := by
  induction items with
  | nil => exact absurd mem List.not_mem_nil
  | cons first rest ih =>
    rw [nodesOf, depthOfItems]
    rcases List.mem_cons.mp mem with rfl | mem
    · exact le_max_left _ _
    · exact (ih mem).trans (le_max_right _ _)

theorem depth_le_of_mem_entries {entries : List (Value × Value)} {entry : Value × Value}
    (mem : entry ∈ entries) : depth (nodeOf entry.2) ≤ depthOfEntries (entryNodes entries) := by
  induction entries with
  | nil => exact absurd mem List.not_mem_nil
  | cons first rest ih =>
    rw [entryNodes, depthOfEntries]
    rcases List.mem_cons.mp mem with rfl | mem
    · exact (le_max_right _ _).trans (le_max_left _ _)
    · exact (ih mem).trans (le_max_right _ _)

theorem valueOf_text (fuel : Nat) (s : String) : valueOf fuel (nodeOf (.text s)) = .ok (.text s) := by
  have single := singleValue_nodeOf (.text s) rfl
  cases fuel <;> exact single

/-- The parts of a mapping and their values, one after the other. -/
theorem forall₂_parts {R : Part → Value → Prop} {entries : List (Value × Value)}
    (keys : ∀ entry ∈ entries, R (.key (nodeOf entry.1)) entry.1)
    (values : ∀ entry ∈ entries, R (.item (nodeOf entry.2)) entry.2) :
    List.Forall₂ R
      (entries.flatMap fun entry => [.key (nodeOf entry.1), .item (nodeOf entry.2)])
      (entries.flatMap fun entry => [entry.1, entry.2]) := by
  induction entries with
  | nil => exact .nil
  | cons entry rest ih =>
    have others := ih (fun entry mem => keys entry (List.mem_cons_of_mem _ mem))
      fun entry mem => values entry (List.mem_cons_of_mem _ mem)
    exact .cons (keys entry List.mem_cons_self) (.cons (values entry List.mem_cons_self) others)

theorem entriesOf_flatMap (entries : List (Value × Value)) :
    entriesOf (entries.flatMap fun entry => [entry.1, entry.2]) = entries := by
  induction entries with
  | nil => rfl
  | cons entry rest ih =>
    show (entry.1, entry.2) :: entriesOf (rest.flatMap fun entry => [entry.1, entry.2]) = _
    rw [ih]

/-- The node of a value has the value. -/
theorem valueOf_nodeOf {fuel : Nat} {v : Value} (common : Common v)
    (enough : depth (nodeOf v) ≤ fuel) : valueOf fuel (nodeOf v) = .ok v := by
  induction common generalizing fuel with
  | text s => exact valueOf_text fuel s
  | int short =>
    have single := singleValue_nodeOf (.int short) rfl
    cases fuel <;> exact single
  | @list items each ih =>
    rw [nodeOf, depth] at enough
    obtain ⟨fuel, rfl⟩ : ∃ n, fuel = n + 1 := ⟨fuel - 1, by omega⟩
    have whole : valueOf (fuel + 1) (nodeOf (.list items)) = (do
        let values ← (← parts (nodeOf (.list items))).mapM _
        return .list values) := rfl
    rw [whole, parts_list, Outcome.ok_bind]
    refine Outcome.bind_eq_ok.mpr ⟨items, Outcome.mapM_eq_ok.mpr ?_, rfl⟩
    rw [List.forall₂_map_left_iff, List.forall₂_same]
    exact fun item mem => ih item mem ((depth_le_of_mem mem).trans (by omega))
  | @map entries distinct keys values ih =>
    rw [nodeOf, depth] at enough
    obtain ⟨fuel, rfl⟩ : ∃ n, fuel = n + 1 := ⟨fuel - 1, by omega⟩
    have whole : valueOf (fuel + 1) (nodeOf (.map entries)) = (do
        let values ← (← parts (nodeOf (.map entries))).mapM _
        return .map (Value.mapOf (entriesOf values))) := rfl
    rw [whole, parts_map keys, Outcome.ok_bind, Outcome.mapM_eq_ok.mpr (forall₂_parts ?_ ?_)]
    · rw [Outcome.ok_bind, entriesOf_flatMap, Value.mapOf_texts distinct keys]
      rfl
    · intro entry mem
      rcases keys entry mem with ⟨s, same⟩
      rw [same]
      exact valueOf_text fuel s
    · exact fun entry mem => ih entry mem ((depth_le_of_mem_entries mem).trans (by omega))

/-- A loadable mapping that can be written comes back from its document. -/
theorem load_dump {entries : List (Value × Value)} (loadable : Loadable none true (.map entries))
    (shown : (Value.map entries).isShowable = true) :
    load (dump (.map entries)).toList = .ok (.map entries) := by
  have common := common_of_loadable loadable shown
  unfold load
  rw [nodeOfText_dump loadable, Outcome.ok_bind]
  dsimp only
  rw [check_nodeOf common, Outcome.ok_bind]
  exact valueOf_nodeOf common (Nat.le_succ _)

/-! ## Ordinary values -/

/-- The most characters of a key whose colon never comes too late. -/
def shortKeyLength : Nat := 102

/-- A value without next-line characters, with short keys and only so many levels. -/
inductive Ordinary : Nat → Value → Prop
  | text {levels : Nat} {s : String} (plain : '\x85' ∉ s.toList) : Ordinary levels (.text s)
  | int {levels : Nat} {n : Int} : Ordinary levels (.int n)
  | list {levels : Nat} {items : List Value} (each : ∀ item ∈ items, Ordinary levels item) :
    Ordinary (levels + 1) (.list items)
  | map {levels : Nat} {entries : List (Value × Value)}
      (distinct : (entries.map Prod.fst).Nodup)
      (keys : ∀ entry ∈ entries, ∃ s, entry.1 = .text s ∧ '\x85' ∉ s.toList ∧
        s.toList.length ≤ shortKeyLength)
      (values : ∀ entry ∈ entries, Ordinary levels entry.2) : Ordinary (levels + 1) (.map entries)

theorem length_escape_le (c : Char) : (Page.escape c).length ≤ 10 := by
  unfold Page.escape
  split
  · simp
  · dsimp only
    split
    · simp [Text.upperHex]
    · split <;> simp [Text.upperHex]

/-- No character takes more than ten. -/
theorem length_unfolded_le (style : Style) (cs : List Char) :
    (Page.unfolded style cs).length ≤ 10 * cs.length + 2 := by
  have total {f : Char → List Char} (few : ∀ c, (f c).length ≤ 10) :
      (cs.flatMap f).length ≤ 10 * cs.length := by
    induction cs with
    | nil => exact Nat.zero_le _
    | cons c rest ih =>
      have here := few c
      rw [List.flatMap_cons, List.length_append, List.length_cons]
      omega
  have quotes (c : Char) : (doubled true c).length ≤ 10 := by
    unfold doubled
    split <;> simp
  have escapes (c : Char) : (Page.inDouble c).length ≤ 10 := by
    unfold Page.inDouble
    split
    · simp
    · exact length_escape_le c
  cases style with
  | plain =>
    rw [Page.unfolded]
    omega
  | single => simpa [Page.unfolded] using total quotes
  | double => simpa [Page.unfolded] using total escapes
  | literal => exact Nat.zero_le _

theorem keeps_of_room {column : Nat} (style : Style) {cs : List Char} (plain : '\x85' ∉ cs)
    (room : column < lineWidth) : Page.Keeps column true style cs := by
  cases style with
  | plain | literal => trivial
  | single => exact plain
  | double => exact fun _ => .inl room

theorem deeper_le (indent : Option Nat) : deeper indent ≤ indent.getD 0 + indentStep := by
  cases indent with
  | none => exact Nat.zero_le _
  | some n => exact le_rfl

/-- An ordinary value is loadable where its levels leave room on the lines. -/
theorem loadable_of_ordinary {levels : Nat} {v : Value} (ordinary : Ordinary levels v)
    {indent : Option Nat} {compact : Bool}
    (room : indent.getD 0 + indentStep + indentStep * levels < lineWidth) :
    Loadable indent compact v := by
  induction ordinary generalizing indent compact with
  | text plain => exact .text (keeps_of_room _ plain (by omega))
  | int => exact .int
  | list each ih =>
    have step := deeper_le indent
    have column : listColumn indent compact ≤ indent.getD 0 + indentStep := by
      unfold listColumn
      split <;> omega
    refine .list fun item mem => ih item mem ?_
    rw [Option.getD_some]
    rw [Nat.mul_succ] at room
    omega
  | map distinct keys values ih =>
    have step := deeper_le indent
    rw [Nat.mul_succ] at room
    refine .map distinct (fun entry mem => ?_) fun entry mem => ih entry mem ?_
    · rcases keys entry mem with ⟨s, same, plain, short⟩
      refine ⟨s, same, ?_⟩
      unfold KeyKeeps
      split
      · have length := length_unfolded_le (styleOf .text s.toList) s.toList
        unfold shortKeyLength at short
        unfold maxKeyLength
        omega
      · exact keeps_of_room _ plain (by omega)
    · rw [Option.getD_some]
      omega

end Yaml
end Consignment
