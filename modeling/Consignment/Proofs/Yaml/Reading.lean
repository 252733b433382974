import Consignment.Proofs.Yaml.Layout
import Consignment.Yaml.Node

namespace Consignment
namespace Yaml

/-!
# The node of a value

The tokens of a value are read as the node of the value, whatever is to be read after them.  Where
the tokens show no end of their own, as those of a list that is not indented, what follows is no
further item.
-/

open Divided (bracket idle)

/-! ## Nodes -/

mutual

def nodeOf : Value → Node
  | .list items => .sequence .sequence (nodesOf items)
  | .map entries => .mapping .mapping (entryNodes entries)
  | v =>
    match scalarOf? v with
    | some (tag, cs) => .scalar tag cs
    | none => .empty

def nodesOf : List Value → List Node
  | [] => []
  | item :: rest => nodeOf item :: nodesOf rest

def entryNodes : List (Value × Value) → List (Node × Node)
  | [] => []
  | (key, value) :: rest => (nodeOf key, nodeOf value) :: entryNodes rest

end

/-! ## Tokens in front -/

section

variable {r : Reading} {token : Token} {rest : List Token} {fuel : Nat} {unindented : Bool}

theorem peek_cons (held : r.rest = token :: rest) (sound : ∀ fault, token ≠ .broken fault) :
    r.peek = .ok token := by
  unfold Reading.peek
  rw [held]
  cases token <;> first | rfl | exact absurd rfl (sound _)

theorem next_cons (held : r.rest = token :: rest) : r.next = { r with rest } := by
  simp [Reading.next, held]

theorem nextIn_cons {tokens : List Token} (held : r.rest = token :: rest)
    (sound : ∀ fault, token ≠ .broken fault) : r.nextIn tokens = .ok (tokens.contains token) := by
  rw [Reading.nextIn, peek_cons held sound]
  rfl

/-- A token that begins a node, or an item of a list that is not indented. -/
inductive Begins : Bool → Token → Prop
  | scalar {compact : Bool} (text : List Char) (isPlain : Bool) : Begins compact (.scalar text isPlain)
  | brackets {compact : Bool} (isMapping : Bool) : Begins compact (bracket isMapping true).2
  | list : Begins true .blockSequenceStart
  | map {compact : Bool} : Begins compact .blockMappingStart
  | item : Begins false .blockEntry

theorem Begins.ne {compact : Bool} (begins : Begins compact token) :
    (∀ fault, token ≠ .broken fault) ∧ token ∉ [.key, .value, .blockEnd] ∧
      (compact = true → token ≠ .blockEntry) := by
  cases begins with
  | brackets isMapping => cases isMapping <;> simp [bracket]
  | _ => simp

theorem takeProperties_begins {compact : Bool} (held : r.rest = token :: rest)
    (begins : Begins compact token) : r.takeProperties = .ok ((none, none), r) := by
  have peek : r.peek = .ok token := peek_cons held begins.ne.1
  unfold Reading.takeProperties Reading.takeAnchor Reading.takeTag
  rw [peek]
  cases begins with
  | brackets isMapping => cases isMapping <;> simp [bracket, peek]
  | _ => simp [peek]

theorem readNode_scalar {text : List Char} {isPlain : Bool}
    (held : r.rest = .scalar text isPlain :: rest) :
    readNode true unindented (fuel + 1) r =
      .ok (.scalar (scalarTag none text isPlain) text, { r with rest }) := by
  have peek : r.peek = .ok (.scalar text isPlain) := peek_cons held (by simp)
  have next := next_cons held
  have properties := takeProperties_begins held (.scalar text isPlain : Begins true _)
  rw [readNode]
  simp only [peek, properties, Outcome.ok_bind]
  simp [Reading.name, next]

theorem readNode_brackets (isMapping : Bool)
    (held : r.rest = (bracket isMapping true).2 :: (bracket isMapping false).2 :: rest) :
    readNode true unindented (fuel + 2) r =
      .ok (if isMapping then .mapping .mapping [] else .sequence .sequence [], { r with rest }) := by
  have properties := takeProperties_begins held (.brackets isMapping : Begins true _)
  rw [readNode]
  cases isMapping with
  | false =>
    have peek : r.peek = .ok .flowSequenceStart := peek_cons held (by simp)
    simp only [peek, properties, Outcome.ok_bind]
    simp [Reading.name, readFlowItems, Reading.nextIn, Reading.peek, Reading.next, held, bracket,
      writtenTag?, pure, Except.pure]
  | true =>
    have peek : r.peek = .ok .flowMappingStart := peek_cons held (by simp)
    simp only [peek, properties, Outcome.ok_bind]
    simp [Reading.name, readFlowEntries, Reading.nextIn, Reading.peek, Reading.next, held, bracket,
      writtenTag?, pure, Except.pure]

theorem readNode_list {items : List Node} {after : Reading}
    (held : r.rest = .blockSequenceStart :: rest)
    (read : readBlockItems fuel { r with rest } = .ok (items, after)) :
    readNode true unindented (fuel + 1) r = .ok (.sequence .sequence items, after) := by
  have peek : r.peek = .ok .blockSequenceStart := peek_cons held (by simp)
  have next := next_cons held
  have properties := takeProperties_begins held .list
  rw [readNode]
  simp only [peek, properties, Outcome.ok_bind]
  simp [Reading.name, next, read, writtenTag?]

theorem readNode_map {entries : List (Node × Node)} {after : Reading}
    (held : r.rest = .blockMappingStart :: rest)
    (read : readBlockEntries fuel { r with rest } = .ok (entries, after)) :
    readNode true unindented (fuel + 1) r = .ok (.mapping .mapping entries, after) := by
  have peek : r.peek = .ok .blockMappingStart := peek_cons held (by simp)
  have next := next_cons held
  have properties := takeProperties_begins held (.map : Begins true _)
  rw [readNode]
  simp only [peek, properties, Outcome.ok_bind]
  simp [Reading.name, next, read, writtenTag?]

theorem readNode_unindented {items : List Node} {after : Reading}
    (held : r.rest = .blockEntry :: rest) (read : readUnindented fuel r = .ok (items, after)) :
    readNode true true (fuel + 1) r = .ok (.sequence .sequence items, after) := by
  have peek : r.peek = .ok .blockEntry := peek_cons held (by simp)
  have properties := takeProperties_begins held .item
  rw [readNode]
  simp only [peek, properties, Outcome.ok_bind]
  simp [Reading.name, read, writtenTag?]

/-! ## Items and entries -/

/-- A node is read, whatever some other tokens would be taken for. -/
theorem readUnless_begins {tokens : List Token} {compact : Bool} (held : r.rest = token :: rest)
    (begins : Begins compact token) (other : token ∉ tokens) :
    readUnless tokens true unindented (fuel + 1) r = readNode true unindented fuel r := by
  have peek : r.peek = .ok token := peek_cons held begins.ne.1
  rw [readUnless, Reading.nextIn, peek, Outcome.ok_bind]
  simp [other, pure, Except.pure]

/-- The tokens are read as a node, given enough fuel.  Those of a node that has no end of its own are
read as the value of a key, and a key or the end of the block follows. -/
structure Reads (compact : Bool) (tokens : List Token) (node : Node) : Prop where
  node {fuel : Nat} {r : Reading} {rest : List Token} {unindented : Bool}
    (held : r.rest = tokens ++ rest) (enough : 2 * tokens.length + (!compact).toNat ≤ fuel)
    (follows : compact = false →
      unindented = true ∧ ∃ t more, rest = t :: more ∧ (t = .key ∨ t = .blockEnd)) :
    readNode true unindented fuel r = .ok (node, { r with rest })

theorem reads_scalar {compact : Bool} (text : List Char) (isPlain : Bool) :
    Reads compact [.scalar text isPlain] (.scalar (scalarTag none text isPlain) text) := by
  constructor
  intro fuel r rest unindented held enough _
  obtain ⟨fuel, rfl⟩ : ∃ n, fuel = n + 1 := ⟨fuel - 1, by simp at enough; omega⟩
  exact readNode_scalar held

theorem reads_brackets {compact : Bool} (isMapping : Bool) :
    Reads compact [(bracket isMapping true).2, (bracket isMapping false).2]
      (if isMapping then .mapping .mapping [] else .sequence .sequence []) := by
  constructor
  intro fuel r rest unindented held enough _
  obtain ⟨fuel, rfl⟩ : ∃ n, fuel = n + 2 := ⟨fuel - 2, by simp at enough; omega⟩
  exact readNode_brackets isMapping held

/-- The tokens of a value begin a node and are read as that of the value. -/
structure Readable (compact : Bool) (v : Value) : Prop where
  front : ∃ token rest, tokensOf compact v = token :: rest ∧ Begins compact token
  reads : Reads compact (tokensOf compact v) (nodeOf v)

/-- An item is read after its mark. -/
theorem Readable.readItem {v : Value} (readable : Readable true v) (tokens : List Token)
    (apart : ∀ token ∈ tokens, token ∈ [.blockEntry, .key, .value, .blockEnd])
    (held : r.rest = tokensOf true v ++ rest) (enough : 2 * (tokensOf true v).length ≤ fuel) :
    readUnless tokens true unindented (fuel + 1) r = .ok (nodeOf v, { r with rest }) := by
  rcases readable.front with ⟨token, more, same, begins⟩
  have front : r.rest = token :: (more ++ rest) := by rw [held, same]; rfl
  rw [readUnless_begins front begins, readable.reads.node held enough (by simp)]
  intro mem
  have ne := begins.ne
  have listed := apart token mem
  simp only [List.mem_cons, List.not_mem_nil, or_false, not_or] at listed ne
  rcases listed with rfl | rfl | rfl | rfl
  · exact ne.2.2 trivial rfl
  · exact ne.2.1.1 rfl
  · exact ne.2.1.2.1 rfl
  · exact ne.2.1.2.2 rfl

theorem readBlockItems_items {items : List Value} (each : ∀ item ∈ items, Readable true item)
    (held : r.rest = itemTokens items ++ .blockEnd :: rest)
    (enough : 2 * (itemTokens items).length + 2 ≤ fuel) :
    readBlockItems fuel r = .ok (nodesOf items, { r with rest }) := by
  induction items generalizing fuel r with
  | nil =>
    obtain ⟨fuel, rfl⟩ : ∃ n, fuel = n + 1 := ⟨fuel - 1, by omega⟩
    have ended : r.rest = .blockEnd :: rest := held
    rw [readBlockItems, nextIn_cons ended (by simp), Outcome.ok_bind]
    simp [Reading.expect, peek_cons ended (by simp), Reading.next, ended, nodesOf, pure, Except.pure]
  | cons item others ih =>
    simp only [itemTokens, List.length_append, List.length_cons] at enough
    obtain ⟨fuel, rfl⟩ : ∃ n, fuel = n + 2 := ⟨fuel - 2, by omega⟩
    have front : r.rest = .blockEntry ::
        (tokensOf true item ++ (itemTokens others ++ .blockEnd :: rest)) := by
      rw [held, itemTokens]
      simp
    rw [readBlockItems, nextIn_cons front (by simp), Outcome.ok_bind, next_cons front,
      if_pos (by simp), (each item List.mem_cons_self).readItem _ (by simp) rfl (by omega),
      Outcome.ok_bind]
    dsimp only
    rw [ih (fun item mem => each item (List.mem_cons_of_mem _ mem)) rfl (by omega)]
    rfl

theorem readUnindented_items {items : List Value} (each : ∀ item ∈ items, Readable true item)
    (held : r.rest = itemTokens items ++ token :: rest) (closing : token = .key ∨ token = .blockEnd)
    (enough : 2 * (itemTokens items).length ≤ fuel) (positive : 0 < fuel) :
    readUnindented fuel r = .ok (nodesOf items, { r with rest := token :: rest }) := by
  induction items generalizing fuel r with
  | nil =>
    obtain ⟨fuel, rfl⟩ : ∃ n, fuel = n + 1 := ⟨fuel - 1, by omega⟩
    have ended : r.rest = token :: rest := held
    have other : (∀ fault, token ≠ .broken fault) ∧ token ≠ .blockEntry := by
      rcases closing with rfl | rfl <;> simp
    rw [readUnindented, nextIn_cons ended other.1, Outcome.ok_bind, if_neg (by simpa using other.2)]
    rw [← ended]
    rfl
  | cons item others ih =>
    simp only [itemTokens, List.length_append, List.length_cons] at enough
    obtain ⟨fuel, rfl⟩ : ∃ n, fuel = n + 2 := ⟨fuel - 2, by omega⟩
    have front : r.rest = .blockEntry :: (tokensOf true item ++ (itemTokens others ++ token :: rest)) := by
      rw [held, itemTokens]
      simp
    rw [readUnindented, nextIn_cons front (by simp), Outcome.ok_bind, next_cons front,
      if_pos (by simp), (each item List.mem_cons_self).readItem _ (by simp) rfl (by omega),
      Outcome.ok_bind]
    dsimp only
    rw [ih (fun item mem => each item (List.mem_cons_of_mem _ mem)) rfl (by omega) (Nat.succ_pos _)]
    rfl

/-- The value of a key is read after its mark. -/
theorem Readable.readValue {compact : Bool} {v : Value} (readable : Readable compact v)
    (held : r.rest = tokensOf compact v ++ token :: rest) (closing : token = .key ∨ token = .blockEnd)
    (enough : 2 * (tokensOf compact v).length + 1 ≤ fuel) :
    readUnless [.key, .value, .blockEnd] true true (fuel + 1) r =
      .ok (nodeOf v, { r with rest := token :: rest }) := by
  rcases readable.front with ⟨first, more, same, begins⟩
  have front : r.rest = first :: (more ++ token :: rest) := by rw [held, same]; rfl
  have room : 2 * (tokensOf compact v).length + (!compact).toNat ≤ fuel := by
    cases compact
    · exact enough
    · exact (Nat.le_succ _).trans enough
  rw [readUnless_begins front begins begins.ne.2.1]
  exact readable.reads.node held room fun _ => ⟨rfl, _, _, rfl, closing⟩

/-- After an entry, the next one or the end of the mapping. -/
theorem entryTokens_front (entries : List (Value × Value)) (rest : List Token) :
    ∃ token more, entryTokens entries ++ .blockEnd :: rest = token :: more ∧
      (token = .key ∨ token = .blockEnd) := by
  cases entries with
  | nil => exact ⟨.blockEnd, rest, rfl, .inr rfl⟩
  | cons entry others =>
    rcases entry with ⟨key, value⟩
    rw [entryTokens]
    exact ⟨.key, _, rfl, .inl rfl⟩

theorem readBlockEntries_entries {entries : List (Value × Value)}
    (keys : ∀ entry ∈ entries, Readable true entry.1)
    (values : ∀ entry ∈ entries, Readable (!isSimpleKey entry.1) entry.2)
    (held : r.rest = entryTokens entries ++ .blockEnd :: rest)
    (enough : 2 * (entryTokens entries).length + 2 ≤ fuel) :
    readBlockEntries fuel r = .ok (entryNodes entries, { r with rest }) := by
  induction entries generalizing fuel r with
  | nil =>
    obtain ⟨fuel, rfl⟩ : ∃ n, fuel = n + 1 := ⟨fuel - 1, by omega⟩
    have ended : r.rest = .blockEnd :: rest := held
    rw [readBlockEntries, nextIn_cons ended (by simp), Outcome.ok_bind]
    simp [Reading.expect, peek_cons ended (by simp), Reading.next, ended, entryNodes, pure, Except.pure]
  | cons entry others ih =>
    rcases entry with ⟨key, value⟩
    simp only [entryTokens, List.length_append, List.length_cons] at enough
    obtain ⟨fuel, rfl⟩ : ∃ n, fuel = n + 2 := ⟨fuel - 2, by omega⟩
    have readKey : Readable true key := keys _ List.mem_cons_self
    have readValue : Readable (!isSimpleKey key) value := values _ List.mem_cons_self
    rcases entryTokens_front others rest with ⟨token, more, same, closing⟩
    have front : r.rest = .key :: (tokensOf true key ++ .value ::
        (tokensOf (!isSimpleKey key) value ++ token :: more)) := by
      rw [held, entryTokens, ← same]
      simp
    rw [readBlockEntries, nextIn_cons front (by simp), Outcome.ok_bind, next_cons front,
      if_pos (by simp), readKey.readItem _ (by simp) rfl (by omega), Outcome.ok_bind]
    dsimp only
    rw [nextIn_cons rfl (by simp), Outcome.ok_bind, if_pos (by simp), next_cons rfl,
      readValue.readValue rfl closing (by omega), Outcome.ok_bind]
    dsimp only
    rw [ih (fun entry mem => keys entry (List.mem_cons_of_mem _ mem))
      (fun entry mem => values entry (List.mem_cons_of_mem _ mem)) same.symm (by omega)]
    rfl

/-! ## Values -/

/-- The tag of a scalar is read off its text, or off the marks that it is written with. -/
theorem scalarTag_styleOf {tag : Tag} {cs : List Char} (other : tag ≠ .binary)
    (plain : styleOf tag cs ≠ .plain → tag = .text) :
    scalarTag none cs (decide (styleOf tag cs = .plain)) = tag := by
  unfold scalarTag writtenTag?
  by_cases style : styleOf tag cs = .plain
  · have allows := Page.allows_of_styleOf cs other
    rw [style] at allows
    simp [style, allows.1]
  · obtain rfl := plain style
    simp [style]

theorem readable_text {compact : Bool} (s : String) : Readable compact (.text s) := by
  refine ⟨⟨_, [], tokensOf_scalar rfl, .scalar _ _⟩, ?_⟩
  have reads : Reads compact [scalarToken .text s.toList] (.scalar (scalarTag none s.toList _) s.toList) :=
    reads_scalar _ _
  rw [scalarTag_styleOf (by decide) fun _ => rfl] at reads
  rw [tokensOf_scalar rfl]
  exact reads

theorem readable_int {compact : Bool} (n : Int) : Readable compact (.int n) := by
  refine ⟨⟨_, [], tokensOf_scalar rfl, .scalar _ _⟩, ?_⟩
  have reads : Reads compact [scalarToken .int (Text.decimal n).toList]
      (.scalar (scalarTag none (Text.decimal n).toList _) (Text.decimal n).toList) :=
    reads_scalar _ _
  rw [scalarTag_styleOf (by decide) fun marked => absurd (styleOf_decimal n) marked] at reads
  rw [tokensOf_scalar rfl]
  exact reads

section

variable {items : List Value} {entries : List (Value × Value)}

theorem readable_compact (held : items ≠ []) (each : ∀ item ∈ items, Readable true item) :
    Readable true (.list items) := by
  refine ⟨⟨_, _, tokensOf_list held, .list⟩, ?_⟩
  rw [tokensOf_list held, if_pos rfl]
  constructor
  intro fuel r rest unindented front enough _
  simp only [List.length_cons, List.length_append] at enough
  obtain ⟨fuel, rfl⟩ : ∃ n, fuel = n + 1 := ⟨fuel - 1, by omega⟩
  have begun : r.rest = .blockSequenceStart :: (itemTokens items ++ .blockEnd :: rest) := by
    simpa using front
  exact readNode_list begun (readBlockItems_items each rfl (by omega))

/-- A list that is not indented ends where the next key begins, or the mapping around it ends. -/
theorem readable_unindented (held : items ≠ []) (each : ∀ item ∈ items, Readable true item) :
    Readable false (.list items) := by
  cases items with
  | nil => exact absurd rfl held
  | cons item others =>
    refine ⟨⟨_, _, tokensOf_list held, .item⟩, ?_⟩
    rw [tokensOf_list held, if_neg Bool.false_ne_true]
    constructor
    intro fuel r rest unindented front enough follows
    rcases follows rfl with ⟨rfl, token, more, rfl, closing⟩
    have filled : 0 < (itemTokens (item :: others)).length := by simp [itemTokens]
    simp only [Bool.not_false, Bool.toNat_true] at enough
    obtain ⟨fuel, rfl⟩ : ∃ n, fuel = n + 1 := ⟨fuel - 1, by omega⟩
    have begun : r.rest = .blockEntry ::
        (tokensOf true item ++ itemTokens others ++ token :: more) := by
      rw [front, itemTokens]
      simp
    exact readNode_unindented begun
      (readUnindented_items each front closing (by omega) (by omega))

theorem readable_map {compact : Bool} (held : entries ≠ [])
    (keys : ∀ entry ∈ entries, Readable true entry.1)
    (values : ∀ entry ∈ entries, Readable (!isSimpleKey entry.1) entry.2) :
    Readable compact (.map entries) := by
  refine ⟨⟨_, _, tokensOf_map held, .map⟩, ?_⟩
  rw [tokensOf_map held]
  constructor
  intro fuel r rest unindented front enough _
  simp only [List.length_cons, List.length_append] at enough
  obtain ⟨fuel, rfl⟩ : ∃ n, fuel = n + 1 := ⟨fuel - 1, by omega⟩
  have begun : r.rest = .blockMappingStart :: (entryTokens entries ++ .blockEnd :: rest) := by
    simpa using front
  exact readNode_map begun (readBlockEntries_entries keys values rfl (by omega))

end

/-- What is loadable is read from its tokens. -/
theorem readable_of_loadable {indent : Option Nat} {compact : Bool} {v : Value}
    (loadable : Loadable indent compact v) : Readable compact v := by
  induction loadable with
  | text => exact readable_text _
  | int => exact readable_int _
  | @list indent compact items each readable =>
    cases items with
    | nil => exact ⟨⟨_, _, rfl, .brackets false⟩, reads_brackets false⟩
    | cons item others =>
      cases compact with
      | true => exact readable_compact (List.cons_ne_nil _ _) readable
      | false => exact readable_unindented (List.cons_ne_nil _ _) readable
  | @map indent compact entries distinct keys values readable =>
    cases entries with
    | nil => exact ⟨⟨_, _, rfl, .brackets true⟩, reads_brackets true⟩
    | cons entry others =>
      refine readable_map (List.cons_ne_nil _ _) (fun entry mem => ?_) readable
      rcases keys entry mem with ⟨s, same, _⟩
      rw [same]
      exact readable_text s

/-! ## Documents -/

theorem isDocumentChar_of_not_special {c : Char} (plain : isSpecial c = false) :
    isDocumentChar c = true := by
  unfold isSpecial at plain
  unfold isDocumentChar
  grind

/-- A printed text is divided from its front. -/
theorem tokens_clean {text : List Char} (clean : Clean text) :
    tokens text = Divided.run (text.length + 2) (idle { rest := text } [] [] true) := by
  have each : text.all isDocumentChar = true :=
    List.all_eq_true.mpr fun c mem => isDocumentChar_of_not_special (clean c mem)
  have front : ({ rest := text } : Cursor).peek ≠ '\ufeff' := by
    cases text with
    | nil => decide
    | cons c rest =>
      rintro (rfl : c = '\ufeff')
      exact absurd (clean _ List.mem_cons_self) (by decide)
  unfold tokens
  rw [if_pos each]
  dsimp only
  rw [if_neg (by simpa using front)]
  rfl

/-- A loadable mapping is divided into its tokens. -/
theorem tokens_dump {entries : List (Value × Value)} (held : entries ≠ [])
    (loadable : Loadable none true (.map entries)) :
    tokens (dump (.map entries)).toList =
      tokensOf true (.map entries) ++ [.streamEnd] := by
  rcases dump_divides held loadable with ⟨rows, text, block⟩
  have run := run_block (c := { rest := (dump (.map entries)).toList }) block text rfl
    (Nat.lt_add_of_pos_right (Nat.succ_pos 1))
  rw [tokens_clean (clean_dump _), tokensOf_map held]
  simpa using run

/-- A document that begins with a mapping, without any marks of its own. -/
theorem readRoot_map {tokens : List Token} {node : Node}
    (reads : Reads true (.blockMappingStart :: tokens) node) :
    readRoot (.blockMappingStart :: tokens ++ [.streamEnd]) = .ok (some node) := by
  have enough : 2 * (Token.blockMappingStart :: tokens).length + (!true).toNat ≤
      2 * (Token.blockMappingStart :: tokens ++ [Token.streamEnd]).length + 2 := by
    simp
    omega
  have read := @reads.node _ { rest := .blockMappingStart :: tokens ++ [.streamEnd], handles := standardHandles }
    [.streamEnd] false rfl enough (by simp)
  have front : Reading.peek
      { rest := .blockMappingStart :: tokens ++ [.streamEnd], handles := standardHandles } =
      .ok .blockMappingStart := peek_cons rfl (by simp)
  unfold readRoot
  simp only [front, Outcome.ok_bind]
  rw [if_neg (by simp), read]
  rfl

/-- The document that a loadable mapping is written as is read as the node of the mapping. -/
theorem nodeOfText_dump {entries : List (Value × Value)}
    (loadable : Loadable none true (.map entries)) :
    nodeOfText (dump (.map entries)).toList = .ok (some (nodeOf (.map entries))) := by
  by_cases held : entries = []
  · subst held
    rfl
  · rw [nodeOfText, tokens_dump held loadable]
    have reads := (readable_of_loadable loadable).reads
    rw [tokensOf_map held] at reads ⊢
    exact readRoot_map reads

end

end Yaml
end Consignment
