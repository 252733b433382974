import Consignment.Proofs.Yaml.Faults

namespace Consignment
namespace Yaml

open Outcome

/-!
# What can be wrong with a value

The nodes of a document get their values after the whole text has been divided and read.  What can
go wrong then is that something stands where it must not, which makes the document malformed, or
that a single node refuses the text that it stands for, because its tag promises something else:
a number, a truth value, a point in time.

So a fault that is not that of a malformed document can be traced.  Either the text could not be
divided, or there is a node in the document that refuses its text with this very fault, and the
tag of the node says which faults those can be.  Merged entries, lists of pairs and sets take
nodes from elsewhere in the document but make none, so the node at fault is always one that the
text itself holds.
-/

/-! ## Single nodes -/

/-- The faults that nodes of a tag can have which are not malformed. -/
@[grind]
inductive RefusedAs : Tag → Fault → Prop
  | integer (fault : Number.IntegerFault) (quoted : String) : RefusedAs .int (.integer fault quoted)
  | emptyInteger : RefusedAs .int .emptyNumber
  | decimal (text : String) : RefusedAs .float (.decimal text)
  | emptyDecimal : RefusedAs .float .emptyNumber
  /-- A number of too many parts. -/
  | integerAsFloat : RefusedAs .float .integerAsFloat
  | truthValue (text : String) : RefusedAs .bool (.truthValue text)
  | timestamp : RefusedAs .timestamp .timestamp
  | calendar (fault : CalendarFault) : RefusedAs .timestamp (.calendar fault)
  /-- A mapping in the place of a point in time. -/
  | kindAsText : RefusedAs .timestamp (.kindAsText "list")

theorem ends_readInt (text : List Char) :
    Ends (fun _ => True) (RefusedAs .int) (readInt text) := by
  have read (base : Nat) (digits : List Char) : Ends (fun _ => True) (RefusedAs .int)
      ((Number.readInteger base digits).mapError fun fault =>
        Fault.integer fault (Text.quoted (String.ofList digits))) :=
    .mapError_any fun fault => .integer fault _
  have parts (digits : List (List Char)) : Ends (fun _ => True) (RefusedAs .int)
      (digits.mapM fun digits => (Number.readInteger 10 digits).mapError fun fault =>
        Fault.integer fault (Text.quoted (String.ofList digits))) :=
    .mapM_any fun item _ => read 10 item
  unfold readInt
  grind

theorem ends_readFloat (text : List Char) :
    Ends (fun _ => True) (RefusedAs .float) (readFloat text) := by
  unfold readFloat
  dsimp only
  split
  · exact .emptyDecimal
  · refine .ite trivial (.ite trivial (.ite ?_ ?_))
    · refine (Ends.mapM_any fun digits _ => ?_).bind_any fun parts => ?_
      · split
        · trivial
        · exact .decimal _
      · exact .ite .integerAsFloat trivial
    · refine Ends.map_any ?_
      split
      · trivial
      · exact .decimal _

theorem ends_readBool (text : List Char) :
    Ends (fun _ => True) (RefusedAs .bool) (readBool text) := by
  unfold readBool
  grind

theorem ends_readTimestamp (text : List Char) :
    Ends (fun _ => True) (RefusedAs .timestamp) (readTimestamp text) := by
  unfold readTimestamp
  grind

theorem ends_readBinary (text : List Char) :
    Ends (fun _ => True) (· = .malformedDocument) (readBinary text) := by
  unfold readBinary
  grind

/-- A scalar is malformed or refused as its tag says. -/
theorem ends_scalarValue (tag : Tag) (text : List Char) :
    Ends (fun _ => True) (fun fault => fault = .malformedDocument ∨ RefusedAs tag fault)
      (scalarValue tag text) := by
  have refused {tag : Tag} {α : Type} {outcome : Except Fault α}
      (ends : Ends (fun _ => True) (RefusedAs tag) outcome) :
      Ends (fun _ => True) (fun fault => fault = .malformedDocument ∨ RefusedAs tag fault) outcome :=
    ends.mono (fun _ => id) fun _ => .inr
  cases tag with
  | null | text => trivial
  | bool => exact .map_any (refused (ends_readBool text))
  | int => exact .map_any (refused (ends_readInt text))
  | float => exact .map_any (refused (ends_readFloat text))
  | binary => exact .map_any ((ends_readBinary text).mono (fun _ => id) fun _ => .inl)
  | timestamp => exact refused (ends_readTimestamp text)
  | sequence | mapping | set | orderedPairs | pairs | merge | value | other => exact .inl rfl

theorem ends_scalarText (node : Node) :
    Ends (fun _ => True) (· = .malformedDocument) (scalarText node) := by
  apply scalarText.induct
    (fun entries => Ends (fun _ => True) (· = Fault.malformedDocument) (scalarText.find entries))
    (fun node => Ends (fun _ => True) (· = Fault.malformedDocument) (scalarText node))
  all_goals grind [scalarText, scalarText.find, malformed]

/-- A node is malformed or refused as its tag says. -/
theorem ends_singleValue (node : Node) :
    Ends (fun _ => True) (fun fault => fault = .malformedDocument ∨ RefusedAs (nodeTag node) fault)
      (singleValue node) := by
  unfold singleValue
  refine ((ends_scalarText node).mono (fun _ => id) fun _ => .inl).bind_any fun text => ?_
  split
  · exact .inr .kindAsText
  · exact ends_scalarValue _ text

/-! ## Nodes inside nodes -/

/-- A node that is another one or stands somewhere inside it. -/
inductive Node.Holds : Node → Node → Prop
  | self (node : Node) : Holds node node
  | item {tag : Tag} {items : List Node} {item node : Node} (mem : item ∈ items)
      (inside : Holds item node) : Holds (.sequence tag items) node
  | key {tag : Tag} {entries : List (Node × Node)} {entry : Node × Node} {node : Node}
      (mem : entry ∈ entries) (inside : Holds entry.1 node) : Holds (.mapping tag entries) node
  | entry {tag : Tag} {entries : List (Node × Node)} {entry : Node × Node} {node : Node}
      (mem : entry ∈ entries) (inside : Holds entry.2 node) : Holds (.mapping tag entries) node

theorem Node.Holds.trans {first second third : Node} (outer : first.Holds second)
    (inner : second.Holds third) : first.Holds third := by
  induction outer with
  | self => exact inner
  | item mem _ ih => exact .item mem (ih inner)
  | key mem _ ih => exact .key mem (ih inner)
  | entry mem _ ih => exact .entry mem (ih inner)

/-- A node that a document holds, or a text.  A key that stands for the value of a mapping counts
as such where the mapping is none of a scalar, and no text is refused. -/
def Within (root node : Node) : Prop :=
  root.Holds node ∨ ∃ text, node = .scalar .text text

namespace Within

variable {root : Node} {tag : Tag}

theorem item {items : List Node} (within : Within root (.sequence tag items)) {item : Node}
    (mem : item ∈ items) : Within root item := by
  rcases within with holds | ⟨text, same⟩
  · exact .inl (holds.trans (.item mem (.self _)))
  · cases same

def Entry (root : Node) (entry : Node × Node) : Prop :=
  Within root entry.1 ∧ Within root entry.2

theorem entry {entries : List (Node × Node)} (within : Within root (.mapping tag entries))
    {entry : Node × Node} (mem : entry ∈ entries) : Entry root entry := by
  rcases within with holds | ⟨text, same⟩
  · exact ⟨.inl (holds.trans (.key mem (.self _))), .inl (holds.trans (.entry mem (.self _)))⟩
  · cases same

end Within

/-- A fault that a node within a document is to blame for. -/
def Blamed (root : Node) (fault : Fault) : Prop :=
  fault = .malformedDocument ∨
    ∃ node, root.Holds node ∧ singleValue node = .error fault ∧ RefusedAs (nodeTag node) fault

variable {root : Node}

theorem ends_misplaced {α : Type} {Q : α → Prop} :
    Ends Q (Blamed root) (malformed : Except Fault α) :=
  .inl rfl

/-- A node within a document is to blame for its own faults. -/
theorem ends_within {node : Node} (within : Within root node) :
    Ends (fun _ => True) (Blamed root) (singleValue node) := by
  cases refused : singleValue node with
  | ok v => trivial
  | error fault =>
    rcases (ends_singleValue node).of_error refused with rfl | asTag
    · exact .inl rfl
    · rcases within with holds | ⟨text, rfl⟩
      · exact .inr ⟨node, holds, refused, asTag⟩
      · cases asTag

/-! ## Collections -/

/-- The entries of a mapping and those that it takes up are within the document, wherever they come
from. -/
theorem ends_taken :
    (∀ entries, (∀ entry ∈ entries, Within.Entry root entry) →
      Ends (fun read => ∀ entry ∈ read.1 ++ read.2, Within.Entry root entry) (Blamed root)
        (flattened entries)) ∧
    (∀ node, Within root node →
      Ends (fun taken => ∀ entry ∈ taken, Within.Entry root entry) (Blamed root)
        (entriesTaken node)) ∧
    ∀ items, (∀ item ∈ items, Within root item) →
      Ends (fun taken => ∀ entry ∈ taken, Within.Entry root entry) (Blamed root)
        (entriesOfItems items) := by
  apply flattened.mutual_induct
    (fun entries => (∀ entry ∈ entries, Within.Entry root entry) →
      Ends (fun read => ∀ entry ∈ read.1 ++ read.2, Within.Entry root entry) (Blamed root)
        (flattened entries))
    (fun node => Within root node →
      Ends (fun taken => ∀ entry ∈ taken, Within.Entry root entry) (Blamed root)
        (entriesTaken node))
    (fun items => (∀ item ∈ items, Within root item) →
      Ends (fun taken => ∀ entry ∈ taken, Within.Entry root entry) (Blamed root)
        (entriesOfItems items))
  case case1 =>
    intro tag entries own within
    rw [entriesTaken]
    exact (own fun entry mem => within.entry mem).bind fun read here => here
  case case2 =>
    intro tag items taken within
    rw [entriesTaken]
    exact taken fun item mem => within.item mem
  case case3 =>
    intro within entry mem
    exact absurd mem List.not_mem_nil
  case case4 => exact fun _ => ends_misplaced
  case case5 => exact fun _ _ _ => ends_misplaced
  case case6 => exact fun _ entry mem => absurd mem List.not_mem_nil
  case case7 =>
    intro tag entries rest own others within
    rw [entriesOfItems]
    refine (own fun entry mem => (within _ List.mem_cons_self).entry mem).bind fun read here => ?_
    refine (others fun item mem => within item (List.mem_cons_of_mem _ mem)).bind fun more later => ?_
    intro entry mem
    rcases List.mem_append.mp mem with mem | mem
    · exact later entry mem
    · exact here entry mem
  case case8 =>
    intro rest others within
    rw [entriesOfItems]
    exact others fun item mem => within item (List.mem_cons_of_mem _ mem)
  case case9 =>
    intro head tail noMapping notOpen within
    rw [entriesOfItems]
    · exact ends_misplaced
    · exact noMapping
    · exact notOpen
  case case10 => exact fun _ entry mem => absurd mem List.not_mem_nil
  case case11 =>
    intro text value rest taken others within
    rw [flattened]
    refine (taken (within _ List.mem_cons_self).2).bind fun taken here => ?_
    refine (others fun entry mem => within entry (List.mem_cons_of_mem _ mem)).bind
      fun read later => ?_
    intro entry mem
    rcases List.mem_append.mp (List.append_assoc .. ▸ mem) with mem | mem
    · exact here entry mem
    · exact later entry mem
  case case12 =>
    intro text value rest others within
    rw [flattened]
    refine (others fun entry mem => within entry (List.mem_cons_of_mem _ mem)).bind
      fun read later => ?_
    have named : Within.Entry root (.scalar .text text, value) :=
      ⟨.inr ⟨text, rfl⟩, (within _ List.mem_cons_self).2⟩
    rcases List.forall_mem_append.mp later with ⟨taken, own⟩
    exact List.forall_mem_append.mpr ⟨taken, List.forall_mem_cons.mpr ⟨named, own⟩⟩
  case case13 =>
    intro entry rest noMerge noValue others within
    rw [flattened]
    · refine (others fun entry mem => within entry (List.mem_cons_of_mem _ mem)).bind
        fun read later => ?_
      rcases List.forall_mem_append.mp later with ⟨taken, own⟩
      have here := within _ List.mem_cons_self
      exact List.forall_mem_append.mpr ⟨taken, List.forall_mem_cons.mpr ⟨here, own⟩⟩
    · exact noMerge
    · exact noValue

theorem ends_allEntries {tag : Tag} {entries : List (Node × Node)}
    (within : Within root (.mapping tag entries)) :
    Ends (fun all => ∀ entry ∈ all, Within.Entry root entry) (Blamed root) (allEntries entries) := by
  unfold allEntries
  exact (ends_taken.1 entries fun entry mem => within.entry mem).bind fun parts here => here

/-- A part of a collection that is within a document, where it is a node at all. -/
def Part.Within (root : Node) : Part → Prop
  | .item node | .key node => Yaml.Within root node
  | .misplaced => True

theorem within_pairParts {items : List Node} (within : ∀ item ∈ items, Within root item) :
    ∀ part ∈ pairParts items, part.Within root := by
  fun_induction pairParts items with
  | case1 => exact fun part mem => absurd mem List.not_mem_nil
  | case2 tag key value rest ih =>
    have both := (within _ List.mem_cons_self).entry List.mem_cons_self
    intro part mem
    rcases List.mem_cons.mp mem with rfl | mem
    · exact both.1
    · rcases List.mem_cons.mp mem with rfl | mem
      · exact both.2
      · exact ih (fun item mem => within item (List.mem_cons_of_mem _ mem)) part mem
  | case3 =>
    intro part mem
    cases List.mem_singleton.mp mem
    trivial

theorem within_entryParts {entries : List (Node × Node)}
    (within : ∀ entry ∈ entries, Within.Entry root entry) :
    ∀ part ∈ entries.flatMap fun entry => [Part.key entry.1, .item entry.2], part.Within root := by
  intro part mem
  rcases List.mem_flatMap.mp mem with ⟨entry, held, side⟩
  rcases List.mem_cons.mp side with rfl | side
  · exact (within entry held).1
  · cases List.mem_singleton.mp side
    exact (within entry held).2

theorem ends_parts {node : Node} (within : Within root node) :
    Ends (fun parts => ∀ part ∈ parts, part.Within root) (Blamed root) (parts node) := by
  unfold parts
  split
  · exact fun part mem => absurd mem List.not_mem_nil
  · intro part mem
    rcases List.mem_map.mp mem with ⟨item, held, rfl⟩
    exact within.item held
  · exact within_pairParts fun item mem => within.item mem
  · exact within_pairParts fun item mem => within.item mem
  · exact (ends_allEntries within).bind fun entries here => within_entryParts here
  · exact (ends_allEntries within).bind fun entries here => within_entryParts here
  · exact ends_misplaced

theorem ends_later {parts : List Part} (within : ∀ part ∈ parts, part.Within root) :
    Ends (fun nodes => ∀ node ∈ nodes, Within root node) (Blamed root) (later parts) := by
  induction parts with
  | nil => exact fun node mem => absurd mem List.not_mem_nil
  | cons part rest ih =>
    have here := within part List.mem_cons_self
    have others := ih fun part mem => within part (List.mem_cons_of_mem _ mem)
    cases part with
    | misplaced => exact ends_misplaced
    | key node =>
      rw [later]
      refine .ite ends_misplaced ?_
      exact (ends_within here).bind_any fun _ => others
    | item node =>
      rw [later]
      refine .ite (others.bind fun nodes later => ?_) ?_
      · exact List.forall_mem_cons.mpr ⟨here, later⟩
      · exact (ends_within here).bind_any fun _ => others

theorem ends_laterOfAll {nodes : List Node} (within : ∀ node ∈ nodes, Within root node) :
    Ends (fun nodes => ∀ node ∈ nodes, Within root node) (Blamed root) (laterOfAll nodes) := by
  induction nodes with
  | nil => exact fun node mem => absurd mem List.not_mem_nil
  | cons node rest ih =>
    rw [laterOfAll]
    refine (ends_parts (within node List.mem_cons_self)).bind fun parts here => ?_
    refine (ends_later here).bind fun first here => ?_
    refine (ih fun node mem => within node (List.mem_cons_of_mem _ mem)).bind fun others later => ?_
    exact List.forall_mem_append.mpr ⟨here, later⟩

theorem ends_checkRounds (fuel : Nat) {nodes : List Node}
    (within : ∀ node ∈ nodes, Within root node) :
    Ends (fun _ => True) (Blamed root) (checkRounds fuel nodes) := by
  induction fuel generalizing nodes with
  | zero => cases nodes <;> trivial
  | succ fuel ih =>
    cases nodes with
    | nil => trivial
    | cons node rest => exact (ends_laterOfAll within).bind fun nodes within => ih within

theorem ends_check (root : Node) : Ends (fun _ => True) (Blamed root) (check root) := by
  have whole : ∀ part ∈ [Part.item root], part.Within root := by
    intro part mem
    cases List.mem_singleton.mp mem
    exact .inl (.self root)
  unfold check
  exact (ends_later whole).bind fun nodes within => ends_checkRounds _ within

theorem ends_valueOf (fuel : Nat) {node : Node} (within : Within root node) :
    Ends (fun _ => True) (Blamed root) (valueOf fuel node) := by
  induction fuel generalizing node with
  | zero => exact ends_within within
  | succ fuel ih =>
    rw [valueOf.eq_def]
    dsimp only
    split
    · trivial
    · refine .ite ?_ (ends_within within)
      refine (ends_parts within).bind fun parts here => ?_
      refine (Ends.mapM_any fun part mem => ?_).bind_any fun values => trivial
      have inside := here part mem
      cases part with
      | item inner => exact ih inside
      | key inner => exact ih inside
      | misplaced => exact ends_misplaced

/-! ## The whole document -/

/-- The faults that a text without a value has: those of a text that cannot be divided, and those
that a node of the document is to blame for. -/
inductive Unloadable (text : List Char) : Fault → Prop
  | indivisible {fault : Fault} (failed : nodeOfText text = .error fault)
      (indivisible : Indivisible fault) : Unloadable text fault
  | blamed {root : Node} {fault : Fault} (read : nodeOfText text = .ok (some root))
      (blamed : Blamed root fault) : Unloadable text fault

/-- The faults that a text without a value can have. -/
theorem ends_load (text : List Char) : Ends (fun _ => True) (Unloadable text) (load text) := by
  unfold load
  cases read : nodeOfText text with
  | error fault => exact .indivisible read ((ends_nodeOfText text).of_error read)
  | ok root? =>
    cases root? with
    | none => trivial
    | some root =>
      have blamed {fault : Fault} : Blamed root fault → Unloadable text fault := .blamed read
      refine Ends.mono ?_ (fun _ => id) fun _ => blamed
      exact (ends_check root).bind_any fun _ => ends_valueOf _ (.inl (.self root))

end Yaml
end Consignment
