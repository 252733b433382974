import Consignment.Proofs.Yaml.Dividing

namespace Consignment
namespace Yaml

/-!
# Blocks and their lines

What stands after a mark is a scalar, a pair of brackets, or a block: on the same line, where the
mark itself stands at the front of a line, or on lines of its own.  The lines of a block start at one
column, each with an item or a key, and the first of them opens the block.

`Divides` and `DividesRows` say what tokens such a text is divided into, wherever it stands.  Both
leave the cursor at the front of the next line that is not inside, so that blocks can be put
together from their lines and lines from blocks.
-/

open Divided (Leads idle Begun bracket)

/-- The text after a mark in a block of a column, with the tokens into which it is divided.  It may be
compact, on the line of a mark that stands at its front; then a key could start there. -/
structure Divides (column : Nat) (compact : Bool) (form : List Char) (tokens : List Token) : Prop where
  front : ∃ ch more, form = ch :: more ∧ isSpaceOrEnd ch = true
  leads : ∀ {c : Cursor} {n : Nat} {rest : List Char} {before : List Token} {blocks : List Nat},
    c.rest = form ++ '\n' :: (List.replicate n ' ' ++ rest) → Clear rest → n ≤ column →
    blocks.head? = some column → column < c.column → (compact = true → c.column = column + 1) →
    Leads (idle c before blocks compact)
      (idle (c.skip (form.length + (n + 1))) (before ++ tokens) blocks true)

/-- Lines of a block of a column, with the tokens into which they are divided. -/
structure DividesRows (start : Token) (column : Nat) (rows : List Char) (tokens : List Token) :
    Prop where
  clear : ∀ rest, Clear (rows ++ rest)
  leads : ∀ {c : Cursor} {n : Nat} {rest : List Char} {before before' : List Token}
    {blocks blocks' : List Nat},
    c.rest = rows ++ '\n' :: (List.replicate n ' ' ++ rest) → Clear rest → n ≤ column →
    c.column = column → Begun start column before blocks before' blocks' →
    Leads (idle c before blocks true)
      (idle (c.skip (rows.length + (n + 1))) (before' ++ tokens) blocks' true)

variable {column : Nat} {compact : Bool}

/-! ## Nodes on a line -/

theorem divides_scalar {layout : Nat} {cs form : List Char} {style : Style}
    (formed : Page.Formed layout cs style form)
    (plain : style = .plain → allowsPlain cs = true ∧ cs ≠ []) (wide : column < layout) :
    Divides column compact (' ' :: form) [.scalar cs (decide (style = .plain))] where
  front := ⟨' ', form, rfl, by decide⟩
  leads {c n rest before blocks} held clear less block inside _ := by
    rw [List.length_cons, Nat.add_comm form.length, Nat.add_assoc]
    exact Divided.leads_scalar formed plain held clear block inside.le wide less

theorem divides_brackets (isMapping : Bool) :
    Divides column compact [' ', (bracket isMapping true).1, (bracket isMapping false).1]
      [(bracket isMapping true).2, (bracket isMapping false).2] where
  front := ⟨' ', _, rfl, by decide⟩
  leads {c n rest before blocks} held clear _ block inside _ := by
    have total : 3 + (n + 1) = 1 + (2 + (n + 1)) := by omega
    rw [List.length_cons, List.length_cons, List.length_singleton, total]
    exact Divided.leads_brackets isMapping held clear block inside.le

/-! ## Lines -/

section

variable {start token : Token} {rows rows' form form' : List Char} {tokens tokens' : List Token}

/-- The next line of a block. -/
theorem DividesRows.append (first : DividesRows start column rows tokens)
    (later : DividesRows start column rows' tokens') :
    DividesRows start column (rows ++ '\n' :: (List.replicate column ' ' ++ rows'))
      (tokens ++ tokens') where
  clear rest := by
    rw [List.append_assoc]
    exact first.clear _
  leads {c n rest before before' blocks blocks'} held clear less place begun := by
    simp only [List.append_assoc, List.cons_append] at held
    have next := Cursor.skip_line held
    have led := (first.leads held (later.clear _) le_rfl place begun).trans
      (later.leads next.1 clear less next.2 (.inside begun.head?))
    rw [Cursor.skip_skip, List.append_assoc] at led
    simpa [Nat.add_assoc, Nat.add_comm, Nat.add_left_comm] using led

/-- A line with a mark at its front. -/
theorem dividesRows_mark {mark : Char} (marks : (mark, start, token) ∈ Divided.blockMarks)
    (node : Divides column true form tokens) :
    DividesRows start column (mark :: form) (token :: tokens) where
  clear rest := Divided.clear_mark marks _
  leads {c n rest before before' blocks blocks'} held clear less place begun := by
    rcases node.front with ⟨ch, more, rfl, blank⟩
    have after := Cursor.rest_next_cons held
    have next := Divided.column_mark marks held
    have led := (Divided.leads_mark marks held blank (place ▸ begun)).trans
      (node.leads after clear less begun.head? ?_ ?_)
    · rw [Cursor.skip_skip, List.append_assoc] at led
      rwa [List.length_cons, Nat.add_right_comm, Nat.add_comm _ 1]
    · exact place ▸ (Nat.lt_succ_self _).trans_eq next.symm
    · exact fun _ => next.trans (congrArg (· + 1) place)

/-- A line with a key that needs no mark. -/
theorem dividesRows_key {layout : Nat} {cs key : List Char} {style : Style}
    (formed : Page.Formed layout cs style key)
    (plain : style = .plain → allowsPlain cs = true ∧ cs ≠ [] ∧ key = cs)
    (inline : ∀ ch ∈ key, isBreak ch = false) (short : key.length ≤ maxKeyLength)
    (wide : column < layout) (node : Divides column false form tokens) :
    DividesRows .blockMappingStart column (key ++ ':' :: form)
      ([.key, .scalar cs (decide (style = .plain)), .value] ++ tokens) where
  clear rest := by
    rw [List.append_assoc]
    exact (Divided.formed_front formed (fun same => ⟨(plain same).1, (plain same).2.1⟩) _).1
  leads {c n rest before before' blocks blocks'} held clear less place begun := by
    rcases node.front with ⟨ch, more, rfl, blank⟩
    rw [List.append_assoc] at held
    have colon := Cursor.rest_skip_length held
    have after := Cursor.rest_next_cons colon
    have onLine := Cursor.column_le_skip held inline
    have next := (Cursor.next_inline colon (by decide)).2.2.2 (by decide)
    rw [Cursor.next_eq_skip, Cursor.skip_skip] at after next
    have led := (Divided.leads_key formed plain held blank inline short (place ▸ wide)
      (place ▸ begun)).trans (node.leads after clear less begun.head? (by omega) (by simp))
    rw [Cursor.skip_skip, List.append_assoc] at led
    have total : (key ++ ':' :: ch :: more).length + (n + 1) =
        key.length + 1 + ((ch :: more).length + (n + 1)) := by
      simp only [List.length_append, List.length_cons]
      omega
    rwa [total]

end

/-! ## Blocks -/

/-- Nothing but blanks and a mark between here and the next line. -/
theorem leads_nested {start : Token} {rows : List Char} {tokens : List Token}
    (block : DividesRows start (column + indentStep) rows tokens) {c : Cursor} {n : Nat}
    {rest : List Char} {before : List Token} {blocks : List Nat}
    (held : c.rest = rows ++ '\n' :: (List.replicate n ' ' ++ rest)) (clear : Clear rest)
    (less : n ≤ column) (head : blocks.head? = some column) (place : c.column = column + indentStep) :
    Leads (idle c before blocks true)
      (idle (c.skip (rows.length + (n + 1))) (before ++ (start :: (tokens ++ [.blockEnd]))) blocks
        true) := by
  have deeper (b : Nat) (found : blocks.head? = some b) : b < c.column := by
    rw [head] at found
    cases found
    rw [place]
    exact Nat.lt_add_of_pos_right (by decide)
  have line := Cursor.skip_line held
  have joined : before ++ (start :: (tokens ++ [.blockEnd])) =
      before ++ [start] ++ tokens ++ [.blockEnd] := by simp
  have less' : n < column + indentStep := by
    unfold indentStep
    omega
  rw [joined]
  refine (block.leads held clear less'.le place (.opens (place ▸ deeper))).trans
    (Divided.leads_close (line.1.symm ▸ clear) ?_)
  rwa [line.2]

/-- A block on the line of the mark before it. -/
theorem divides_compact {start : Token} {rows : List Char} {tokens : List Token}
    (block : DividesRows start (column + indentStep) rows tokens) :
    Divides column true (' ' :: rows) (start :: (tokens ++ [.blockEnd])) where
  front := ⟨' ', rows, rfl, by decide⟩
  leads {c n rest before blocks} held clear less head inside place := by
    have next := (Cursor.next_inline held (by decide)).2.2.2 (by decide)
    have after := Cursor.rest_next_cons held
    rw [List.length_cons, Nat.add_right_comm, Nat.add_comm _ 1, ← Cursor.skip_skip]
    refine (Divided.leads_blanks (n := 1) held (block.clear _)).trans
      (leads_nested block after clear less head (next.trans ?_))
    rw [place rfl]
    rfl

/-- A block on lines of its own. -/
theorem divides_indented {start : Token} {rows : List Char} {tokens : List Token}
    (block : DividesRows start (column + indentStep) rows tokens) :
    Divides column false ('\n' :: (List.replicate (column + indentStep) ' ' ++ rows))
      (start :: (tokens ++ [.blockEnd])) where
  front := ⟨'\n', _, rfl, by decide⟩
  leads {c n rest before blocks} held clear less head inside _ := by
    rw [List.cons_append, List.append_assoc] at held
    have total : ('\n' :: (List.replicate (column + indentStep) ' ' ++ rows)).length + (n + 1) =
        column + indentStep + 1 + (rows.length + (n + 1)) := by
      simp only [List.length_append, List.length_cons, List.length_replicate]
      omega
    rw [total, ← Cursor.skip_skip]
    exact (Divided.leads_indent held (block.clear _)).trans (leads_nested block
      (Cursor.rest_skip_line held) clear less head (Cursor.column_skip_line held))

/-- A list on lines of its own that are not indented. -/
theorem divides_unindented {rows : List Char} {tokens : List Token}
    (block : DividesRows .blockSequenceStart column rows tokens) :
    Divides column false ('\n' :: (List.replicate column ' ' ++ rows)) tokens where
  front := ⟨'\n', _, rfl, by decide⟩
  leads {c n rest before blocks} held clear less head inside _ := by
    rw [List.cons_append, List.append_assoc] at held
    have total : ('\n' :: (List.replicate column ' ' ++ rows)).length + (n + 1) =
        column + 1 + (rows.length + (n + 1)) := by
      simp only [List.length_append, List.length_cons, List.length_replicate]
      omega
    rw [total, ← Cursor.skip_skip]
    exact (Divided.leads_indent held (block.clear _)).trans (block.leads (Cursor.rest_skip_line held)
      clear less (Cursor.column_skip_line held) (.inside head))

/-- The block that is a whole document. -/
theorem run_block {start : Token} {rows : List Char} {tokens : List Token}
    (block : DividesRows start 0 rows tokens) {c : Cursor} {fuel : Nat}
    (held : c.rest = rows ++ ['\n']) (place : c.column = 0) (enough : c.left < fuel) :
    Divided.run fuel (idle c [] [] true) = start :: (tokens ++ [.blockEnd, .streamEnd]) := by
  have begun : Begun start 0 [] [] [start] [0] := .opens (by rintro b ⟨⟩)
  rcases block.leads (n := 0) held clear_nil le_rfl place begun fuel enough with
    ⟨fuel', enough', same⟩
  have done : (c.skip (rows.length + 1)).rest = [] := by
    rw [Cursor.rest_skip, held]
    simp
  rw [same]
  cases fuel' with
  | zero => exact absurd enough' (Nat.not_lt_zero _)
  | succ fuel' =>
    rw [Divided.run_end done]
    simp

end Yaml
end Consignment
