import Consignment.Proofs.Yaml.Blocks
import Consignment.Proofs.Yaml.Integers

namespace Consignment
namespace Yaml

/-!
# The layout of values

Texts, integers, lists, and mappings from texts are written so that they can be divided into the
tokens of their structure, at every indentation, as long as their texts come back from the lines in
which they are laid out.  `Loadable` is this condition.  It follows the writer through a value,
because it is the column of a text that decides where the text is folded.

A value is written after a mark, and lists and mappings line by line.  What is shown of either is
what is added to the page, that the page is left at the end of a line, and into which tokens the
addition is divided.
-/

open Divided (bracket)
open Page (Formed Keeps unfolded)

/-! ## What can be loaded -/

/-- The text of a key comes back.  Where the key has no mark of its own, its colon must not come too
late. -/
def KeyKeeps (column : Nat) (s : String) : Prop :=
  if isSimpleKey (.text s) then (unfolded (styleOf .text s.toList) s.toList).length ≤ maxKeyLength
  else Keeps (column + indentStep) true (styleOf .text s.toList) s.toList

/-- The indentation of a list.  The list of a key without a mark is not indented. -/
def listColumn (indent : Option Nat) (compact : Bool) : Nat :=
  if compact then deeper indent else indent.getD 0

/-- A value of texts, integers, lists and mappings from texts that comes back when it is written
inside an indentation.  It may be compact, on the line of a mark that stands at its front. -/
inductive Loadable : Option Nat → Bool → Value → Prop
  | text {indent : Option Nat} {compact : Bool} {s : String}
      (kept : Keeps (indent.getD 0 + indentStep) true (styleOf .text s.toList) s.toList) :
    Loadable indent compact (.text s)
  | int {indent : Option Nat} {compact : Bool} {n : Int} : Loadable indent compact (.int n)
  | list {indent : Option Nat} {compact : Bool} {items : List Value}
      (each : ∀ item ∈ items, Loadable (some (listColumn indent compact)) true item) :
    Loadable indent compact (.list items)
  | map {indent : Option Nat} {compact : Bool} {entries : List (Value × Value)}
      (distinct : (entries.map Prod.fst).Nodup)
      (keys : ∀ entry ∈ entries, ∃ s, entry.1 = .text s ∧ KeyKeeps (deeper indent) s)
      (values : ∀ entry ∈ entries,
        Loadable (some (deeper indent)) (!isSimpleKey entry.1) entry.2) :
    Loadable indent compact (.map entries)

/-! ## Tokens -/

def scalarToken (tag : Tag) (cs : List Char) : Token :=
  .scalar cs (decide (styleOf tag cs = .plain))

mutual

def tokensOf (compact : Bool) : Value → List Token
  | .list [] => [(bracket false true).2, (bracket false false).2]
  | .list items =>
    if compact then .blockSequenceStart :: (itemTokens items ++ [.blockEnd]) else itemTokens items
  | .map [] => [(bracket true true).2, (bracket true false).2]
  | .map entries => .blockMappingStart :: (entryTokens entries ++ [.blockEnd])
  | v =>
    match scalarOf? v with
    | some (tag, cs) => [scalarToken tag cs]
    | none => []

def itemTokens : List Value → List Token
  | [] => []
  | item :: rest => (.blockEntry :: tokensOf true item) ++ itemTokens rest

def entryTokens : List (Value × Value) → List Token
  | [] => []
  | (key, value) :: rest =>
    (.key :: (tokensOf true key ++ .value :: tokensOf (!isSimpleKey key) value)) ++ entryTokens rest

end

/-! ## Pages -/

namespace Page

/-- A page at the front of a line of a block. -/
structure Settled (p : Page) (column : Nat) : Prop where
  column_eq : p.column = column
  afterBlank : p.afterBlank = true
  inIndent : p.inIndent = true

/-- A page after a mark.  A mark at the front of a line leaves the page in the indentation. -/
structure Marked (p : Page) (column : Nat) (compact : Bool) : Prop where
  afterBlank : p.afterBlank = false
  inIndent : p.inIndent = compact
  column_eq : compact = true → p.column = column + 1

/-- What is added to a page, at whose end no mark is needed. -/
structure Grows (p : Page) (form : List Char) (after : Page) : Prop where
  written : after.written = form.reverse ++ p.written
  openEnded : p.openEnded = false → after.openEnded = false

variable {p q after : Page} {column : Nat} {form form' : List Char}

theorem Grows.trans (first : p.Grows form q) (later : q.Grows form' after) :
    p.Grows (form ++ form') after where
  written := by rw [later.written, first.written, List.reverse_append, List.append_assoc]
  openEnded closed := later.openEnded (first.openEnded closed)

/-- A line of a block is indented once. -/
theorem Settled.indent_eq (settled : p.Settled column) : p.indent column = p := by
  rw [indent_inside settled.inIndent (.inr ⟨settled.column_eq, settled.afterBlank⟩),
    settled.column_eq, Nat.sub_self]
  rcases settled with ⟨rfl, blank, _⟩
  cases p
  cases blank
  rfl

/-- After the end of a line, the next line of a block. -/
theorem settled_next (column : Nat) (ended : p.inIndent = false) :
    (p.indent column).Settled column ∧
      p.Grows ('\n' :: List.replicate column ' ') (p.indent column) := by
  rw [indent_outside (.inl ended)]
  exact ⟨⟨rfl, rfl, rfl⟩, by simp, id⟩

/-- A block that begins on the line of the mark before it. -/
theorem settled_compact (marked : p.Marked column true) :
    (p.indent (column + indentStep)).Settled (column + indentStep) ∧
      p.Grows [' '] (p.indent (column + indentStep)) := by
  have place := marked.column_eq rfl
  have gap : column + indentStep - p.column = 1 := by
    rw [place]
    unfold indentStep
    omega
  rw [indent_inside marked.inIndent (.inl (by omega)), gap]
  exact ⟨⟨rfl, rfl, marked.inIndent⟩, rfl, id⟩

/-- A mark at the front of a line. -/
theorem marked_front (settled : p.Settled column) (mark : String) {ch : Char}
    (alone : mark.toList = [ch]) :
    (p.mark mark true true).Marked column true ∧ p.Grows [ch] (p.mark mark true true) := by
  refine ⟨⟨rfl, by simp [Page.mark, settled.inIndent], fun _ => ?_⟩, ?_, fun _ => rfl⟩
  · simp [Page.mark, write, settled.afterBlank, settled.column_eq, alone]
  · rw [written_mark, alone]
    simp [blankBefore, settled.afterBlank]

/-- The colon after a key without a mark. -/
theorem marked_key (p : Page) (column : Nat) :
    (p.mark ":" false false).Marked column false ∧ p.Grows [':'] (p.mark ":" false false) :=
  ⟨⟨rfl, by simp [Page.mark], by simp⟩, by rw [written_mark]; rfl, fun _ => rfl⟩

/-! ## What is written between two pages -/

variable {start token : Token} {tokens tokens' : List Token}

/-- Between two pages, a node is written that stands after a mark.  No line is begun behind it. -/
def WritesNode (p after : Page) (column : Nat) (compact : Bool) (tokens : List Token) : Prop :=
  ∃ form, p.Grows form after ∧ after.inIndent = false ∧ Divides column compact form tokens

/-- Between two pages, lines of a block are written.  No further line is begun behind them. -/
def WritesRows (p after : Page) (start : Token) (column : Nat) (tokens : List Token) : Prop :=
  ∃ rows, p.Grows rows after ∧ after.inIndent = false ∧ DividesRows start column rows tokens

/-- A line with a mark at its front. -/
theorem WritesNode.marked {mark : String} {ch : Char} (settled : p.Settled column)
    (alone : mark.toList = [ch]) (marks : (ch, start, token) ∈ Divided.blockMarks)
    (node : (p.mark mark true true).WritesNode after column true tokens) :
    p.WritesRows after start column (token :: tokens) := by
  rcases node with ⟨form, grows, ended, divides⟩
  exact ⟨_, (marked_front settled mark alone).2.trans grows, ended, dividesRows_mark marks divides⟩

theorem WritesRows.settled_next (rows : p.WritesRows q start column tokens) :
    (q.indent column).Settled column := by
  rcases rows with ⟨_, _, ended, _⟩
  exact (Page.settled_next column ended).1

/-- Lines of a block, and further ones behind them. -/
theorem WritesRows.next (rows : p.WritesRows q start column tokens)
    (later : (q.indent column).WritesRows after start column tokens') :
    p.WritesRows after start column (tokens ++ tokens') := by
  rcases rows with ⟨front, grows, ended, divides⟩
  rcases later with ⟨back, grows', ended', divides'⟩
  refine ⟨_, ?_, ended', divides.append divides'⟩
  have joined := (grows.trans (Page.settled_next column ended).2).trans grows'
  simpa using joined

/-- A block on the line of the mark before it. -/
theorem WritesNode.compact (marked : p.Marked column true)
    (rows : (p.indent (column + indentStep)).WritesRows after start (column + indentStep) tokens) :
    p.WritesNode after column true (start :: (tokens ++ [.blockEnd])) := by
  rcases rows with ⟨form, grows, ended, divides⟩
  exact ⟨_, (settled_compact marked).2.trans grows, ended, divides_compact divides⟩

/-- A block on lines of its own. -/
theorem WritesNode.indented (marked : p.Marked column false)
    (rows : (p.indent (column + indentStep)).WritesRows after start (column + indentStep) tokens) :
    p.WritesNode after column false (start :: (tokens ++ [.blockEnd])) := by
  rcases rows with ⟨form, grows, ended, divides⟩
  exact ⟨_, (Page.settled_next _ marked.inIndent).2.trans grows, ended, divides_indented divides⟩

/-- A list on lines of its own that are not indented. -/
theorem WritesNode.unindented (marked : p.Marked column false)
    (rows : (p.indent column).WritesRows after .blockSequenceStart column tokens) :
    p.WritesNode after column false tokens := by
  rcases rows with ⟨form, grows, ended, divides⟩
  exact ⟨_, (Page.settled_next _ marked.inIndent).2.trans grows, ended, divides_unindented divides⟩

end Page

/-! ## Scalars and brackets -/

section

variable {p : Page} {column : Nat} {compact : Bool}

/-- Scalars without marks have texts that allow it. -/
theorem plain_of_styleOf {tag : Tag} {cs : List Char} (other : tag ≠ .binary) (notNull : tag ≠ .null)
    (style : styleOf tag cs = .plain) : allowsPlain cs = true ∧ cs ≠ [] := by
  have allows := Page.allows_of_styleOf cs other
  rw [style] at allows
  refine ⟨allows.2, ?_⟩
  rintro rfl
  exact notNull (allows.1.symm.trans (by decide))

theorem tokensOf_scalar {v : Value} {tag : Tag} {cs : List Char}
    (scalar : scalarOf? v = some (tag, cs)) : tokensOf compact v = [scalarToken tag cs] := by
  cases v <;> simp_all [tokensOf, scalarOf?]

theorem scalar_divides {tag : Tag} {cs : List Char} (other : tag ≠ .binary) (notNull : tag ≠ .null)
    (kept : Keeps (column + indentStep) true (styleOf tag cs) cs) (marked : p.Marked column compact) :
    p.WritesNode (p.scalar (some column) true tag cs) column compact [scalarToken tag cs] := by
  rcases Page.scalar_adds (p := p) other notNull kept with ⟨form, formed, adds, _⟩
  refine ⟨' ' :: form, ⟨?_, adds.openEnded⟩, adds.inIndent, ?_⟩
  · rw [adds.written, Page.blankBefore, marked.afterBlank]
    simp
  · exact divides_scalar formed (plain_of_styleOf other notNull) (Nat.lt_add_of_pos_right (by decide))

theorem brackets_divide (isMapping : Bool) {first last : String}
    (brackets : first.toList = [(bracket isMapping true).1] ∧
      last.toList = [(bracket isMapping false).1])
    (marked : p.Marked column compact) :
    p.WritesNode ((p.mark first true false).mark last false false) column compact
      [(bracket isMapping true).2, (bracket isMapping false).2] := by
  refine ⟨_, ⟨?_, fun _ => rfl⟩, by simp [Page.mark], divides_brackets isMapping⟩
  rw [Page.written_mark, Page.written_mark, brackets.1, brackets.2]
  simp [Page.blankBefore, marked.afterBlank]

/-! ## Lists -/

theorem node_list {indent : Option Nat} {inMapping canFold : Bool} {items : List Value}
    (held : items ≠ []) :
    p.node indent inMapping canFold (.list items) =
      p.items (if inMapping && !p.inIndent then indent.getD 0 else deeper indent) items := by
  cases items with
  | nil => exact absurd rfl held
  | cons item rest => rw [Page.node]; simp

theorem tokensOf_list {items : List Value} (held : items ≠ []) :
    tokensOf compact (.list items) =
      if compact then .blockSequenceStart :: (itemTokens items ++ [.blockEnd])
      else itemTokens items := by
  cases items with
  | nil => exact absurd rfl held
  | cons item rest => rw [tokensOf]; simp

/-- The items of a list stand on lines of their own. -/
theorem items_divide (column : Nat) {items : List Value} (held : items ≠ [])
    (each : ∀ item ∈ items, ∀ {p : Page}, p.Marked column true →
      p.WritesNode (p.node (some column) false true item) column true (tokensOf true item))
    (settled : (p.indent column).Settled column) :
    (p.indent column).WritesRows (p.items column items) .blockSequenceStart column
      (itemTokens items) := by
  induction items generalizing p with
  | nil => exact absurd rfl held
  | cons item rest ih =>
    have row : (p.indent column).WritesRows
        (((p.indent column).mark "-" true true).node (some column) false true item)
        .blockSequenceStart column (.blockEntry :: tokensOf true item) :=
      (each item List.mem_cons_self (Page.marked_front settled "-" rfl).1).marked settled rfl
        (by decide)
    rw [Page.items, itemTokens]
    cases rest with
    | nil => rwa [Page.items, itemTokens, List.append_nil]
    | cons next rest =>
      exact row.next (ih (List.cons_ne_nil _ _)
        (fun item mem => each item (List.mem_cons_of_mem _ mem)) row.settled_next)

/-! ## Keys -/

/-- A text on one line is written on one line where it cannot be folded. -/
theorem inline_unfolded {tag : Tag} {cs : List Char} (other : tag ≠ .binary)
    (inline : isMultiline cs = false) : ∀ ch ∈ unfolded (styleOf tag cs) cs, isBreak ch = false := by
  have allows := Page.allows_of_styleOf cs other
  have unmarked {ch : Char} (mem : ch ∈ cs) : isLineMark ch = false := by
    simpa using List.any_eq_false.mp inline ch mem
  intro ch mem
  cases style : styleOf tag cs with
  | plain =>
    rw [style] at mem allows
    have clean := allows.2
    simp only [allowsPlain, Bool.not_eq_true', Bool.or_eq_false_iff] at clean
    exact isBreak_eq_false_of_clean (clean_of_any clean.1.2 ch mem) (unmarked mem)
  | single =>
    rw [style] at mem allows
    have clean := allows
    simp only [allowsSingle, Bool.not_eq_true', Bool.or_eq_false_iff] at clean
    rw [unfolded, List.mem_cons, List.mem_append, List.mem_flatMap, List.mem_singleton] at mem
    rcases mem with rfl | ⟨d, inText, mem⟩ | rfl
    · decide
    · have same : ch = d := by
        unfold doubled at mem
        split at mem <;> simpa using mem
      rw [same]
      exact isBreak_eq_false_of_clean (clean_of_any clean.1 d inText) (unmarked inText)
    · decide
  | double =>
    rw [style, unfolded, List.mem_cons, List.mem_append, List.mem_flatMap, List.mem_singleton] at mem
    rcases mem with rfl | ⟨d, inText, mem⟩ | rfl
    · decide
    · unfold Page.inDouble at mem
      split at mem
      · rename_i literal
        rw [List.mem_singleton.mp mem]
        exact isBreak_eq_false_of_clean (not_special_of_literal literal) (unmarked inText)
      · have none : escapeChars.any isBreak = false := by decide
        simpa using List.any_eq_false.mp none ch (mem_escape mem)
    · decide
  | literal =>
    rw [style] at allows
    exact allows.elim

/-- A text on one line comes back where it cannot be folded. -/
theorem keeps_inline {cs : List Char} (style : Style) (inline : isMultiline cs = false) :
    Keeps column false style cs := by
  cases style with
  | plain | literal => trivial
  | single =>
    intro mem
    exact absurd rfl (List.any_eq_false.mp inline _ mem)
  | double =>
    rintro ⟨⟩

/-- A key without a mark of its own, and its colon. -/
theorem key_divides {s : String} (simple : isSimpleKey (.text s) = true)
    (short : (unfolded (styleOf .text s.toList) s.toList).length ≤ maxKeyLength)
    (settled : p.Settled column) :
    ∃ key, p.Grows key (p.node (some column) true false (.text s)) ∧
      ∀ {form : List Char} {tokens : List Token}, Divides column false form tokens →
        DividesRows .blockMappingStart column (key ++ ':' :: form)
          ([.key, scalarToken .text s.toList, .value] ++ tokens) := by
  have node : p.node (some column) true false (.text s) =
      p.scalar (some column) false .text s.toList := rfl
  simp only [isSimpleKey, scalarOf?, Bool.and_eq_true, Bool.not_eq_true'] at simple
  have inline := simple.1.2
  have other : Tag.text ≠ .binary ∧ Tag.text ≠ .null := by decide
  rcases Page.scalar_adds (p := p) other.1 other.2 (keeps_inline _ inline) with
    ⟨form, formed, adds, still⟩
  have same := still rfl inline
  subst same
  refine ⟨_, ⟨?_, fun closed => node ▸ adds.openEnded closed⟩, fun divides =>
    dividesRows_key formed (fun style => ?_) (inline_unfolded other.1 inline) short
      (Nat.lt_add_of_pos_right (by decide)) divides⟩
  · rw [node, adds.written, Page.blankBefore, if_pos settled.afterBlank, List.nil_append]
  · have plain := plain_of_styleOf other.1 other.2 style
    rw [style]
    exact ⟨plain.1, plain.2, rfl⟩

/-! ## Mappings -/

theorem node_map {indent : Option Nat} {inMapping canFold : Bool} {entries : List (Value × Value)}
    (held : entries ≠ []) :
    p.node indent inMapping canFold (.map entries) = p.entries (deeper indent) entries := by
  cases entries with
  | nil => exact absurd rfl held
  | cons entry rest => rw [Page.node]; simp

theorem tokensOf_map {entries : List (Value × Value)} (held : entries ≠ []) :
    tokensOf compact (.map entries) = .blockMappingStart :: (entryTokens entries ++ [.blockEnd]) := by
  cases entries with
  | nil => exact absurd rfl held
  | cons entry rest => rw [tokensOf]; simp

/-- What stands on the line of an entry, or on its two lines: the key, and the value after it. -/
theorem entry_divides {s : String} {value : Value} (kept : KeyKeeps column s)
    (node : ∀ {p : Page}, p.Marked column (!isSimpleKey (.text s)) →
      p.WritesNode (p.node (some column) true true value) column (!isSimpleKey (.text s))
        (tokensOf (!isSimpleKey (.text s)) value))
    (settled : (p.indent column).Settled column) (rest : List (Value × Value)) :
    ∃ q : Page, p.entries column ((.text s, value) :: rest) = q.entries column rest ∧
      (p.indent column).WritesRows q .blockMappingStart column
        (.key :: (tokensOf true (.text s) ++
          .value :: tokensOf (!isSimpleKey (.text s)) value)) := by
  rw [Page.entries, tokensOf_scalar (v := .text s) rfl]
  unfold KeyKeeps at kept
  cases simple : isSimpleKey (.text s) with
  | true =>
    rw [simple] at kept node
    rcases key_divides simple kept settled with ⟨key, grows, row⟩
    rcases Page.marked_key ((p.indent column).node (some column) true false (.text s)) column with
      ⟨marked, colon⟩
    rcases node marked with ⟨form, grows', ended, divides⟩
    refine ⟨_, rfl, _, (grows.trans colon).trans grows', ended, ?_⟩
    rw [List.append_assoc]
    exact row divides
  | false =>
    rw [simple] at kept node
    have other : Tag.text ≠ .binary ∧ Tag.text ≠ .null := by decide
    have key : (p.indent column).WritesRows _ .blockMappingStart column
        (.key :: [scalarToken .text s.toList]) :=
      (scalar_divides other.1 other.2 kept (Page.marked_front settled "?" rfl).1).marked settled rfl
        (by decide)
    have later : Page.WritesRows _ _ .blockMappingStart column (.value :: tokensOf true value) :=
      (node (Page.marked_front key.settled_next ":" rfl).1).marked key.settled_next rfl (by decide)
    exact ⟨_, rfl, key.next later⟩

/-- The entries of a mapping stand on lines of their own. -/
theorem entries_divide (column : Nat) {entries : List (Value × Value)} (held : entries ≠ [])
    (keys : ∀ entry ∈ entries, ∃ s, entry.1 = .text s ∧ KeyKeeps column s)
    (values : ∀ entry ∈ entries, ∀ {p : Page}, p.Marked column (!isSimpleKey entry.1) →
      p.WritesNode (p.node (some column) true true entry.2) column (!isSimpleKey entry.1)
        (tokensOf (!isSimpleKey entry.1) entry.2))
    (settled : (p.indent column).Settled column) :
    (p.indent column).WritesRows (p.entries column entries) .blockMappingStart column
      (entryTokens entries) := by
  induction entries generalizing p with
  | nil => exact absurd rfl held
  | cons entry rest ih =>
    rcases entry with ⟨key, value⟩
    rcases keys _ List.mem_cons_self with ⟨s, rfl, kept⟩
    rcases entry_divides kept (values _ List.mem_cons_self) settled rest with ⟨q, same, row⟩
    rw [same, entryTokens]
    cases rest with
    | nil => rwa [Page.entries, entryTokens, List.append_nil]
    | cons next rest =>
      exact row.next (ih (List.cons_ne_nil _ _)
        (fun entry mem => keys entry (List.mem_cons_of_mem _ mem))
        (fun entry mem => values entry (List.mem_cons_of_mem _ mem)) row.settled_next)

/-! ## Values -/

/-- The node of a value, where it stands after a mark. -/
theorem node_divides {indent : Option Nat} {v : Value} (loadable : Loadable indent compact v)
    {inMapping : Bool} (inside : indent = some column) (marked : p.Marked column compact)
    (value : compact = false → inMapping = true) :
    p.WritesNode (p.node indent inMapping true v) column compact (tokensOf compact v) := by
  induction loadable generalizing p column inMapping with
  | text kept =>
    subst inside
    rw [tokensOf_scalar rfl]
    exact scalar_divides (by decide) (by decide) kept marked
  | int =>
    subst inside
    rw [tokensOf_scalar rfl]
    refine scalar_divides (by decide) (by decide) ?_ marked
    rw [styleOf_decimal]
    trivial
  | @list indent compact items each ih =>
    subst inside
    cases items with
    | nil => exact brackets_divide false (by decide) marked
    | cons item rest =>
      have held : item :: rest ≠ [] := List.cons_ne_nil _ _
      rw [node_list held, tokensOf_list held, marked.inIndent]
      cases compact with
      | true =>
        rw [Bool.not_true, Bool.and_false]
        exact .compact marked (items_divide (column + indentStep) held
          (fun item mem p marked => ih item mem rfl marked (by simp)) (Page.settled_compact marked).1)
      | false =>
        rw [value rfl]
        exact .unindented marked (items_divide column held
          (fun item mem p marked => ih item mem rfl marked (by simp))
          (Page.settled_next column marked.inIndent).1)
  | @map indent compact entries distinct keys values ih =>
    subst inside
    cases entries with
    | nil => exact brackets_divide true (by decide) marked
    | cons entry rest =>
      have held : entry :: rest ≠ [] := List.cons_ne_nil _ _
      rw [node_map held, tokensOf_map held]
      have rows := entries_divide (p := p) (column + indentStep) held keys
        fun entry mem p marked => ih entry mem rfl marked fun _ => rfl
      cases compact with
      | true => exact .compact marked (rows (Page.settled_compact marked).1)
      | false => exact .indented marked (rows (Page.settled_next _ marked.inIndent).1)

/-- A mapping that is a whole document stands on lines that are not indented. -/
theorem dump_divides {entries : List (Value × Value)} (held : entries ≠ [])
    (loadable : Loadable none compact (.map entries)) :
    ∃ rows, (dump (.map entries)).toList = rows ++ ['\n'] ∧
      DividesRows .blockMappingStart 0 rows (entryTokens entries) := by
  cases loadable with
  | map distinct keys values =>
    have start : ({} : Page).Settled 0 := ⟨rfl, rfl, rfl⟩
    rcases entries_divide 0 held keys (fun entry mem p marked =>
      node_divides (values entry mem) rfl marked fun _ => rfl) (start.indent_eq.symm ▸ start) with
      ⟨rows, grows, ended, divides⟩
    rw [start.indent_eq] at grows
    refine ⟨rows, ?_, divides⟩
    have line := grows.trans (Page.settled_next 0 ended).2
    unfold dump
    dsimp only
    rw [node_map held, deeper, line.openEnded rfl, if_neg Bool.false_ne_true, Page.text, line.written,
      String.toList_ofList]
    simp

end

end Yaml
end Consignment
