import Consignment.Yaml.Cursor
import Mathlib.Data.List.TakeWhile

namespace Consignment
namespace Yaml

/-!
# Moving through a document

Every function that reads goes on by some number of characters, so a position is known by that
number and by what stands there.  Lines and columns matter in two places only: on a line without
its end they count the characters, and after an end of a line the column starts anew.
-/

theorem isSpaceOrEnd_of_isBreak {ch : Char} (ends : isBreak ch = true) : isSpaceOrEnd ch = true := by
  simp [isSpaceOrEnd, isBreakOrEnd, ends]

/-- The front of a text is no space, no end of a line and no start of a comment. -/
def Clear (cs : List Char) : Prop :=
  ∀ ch, cs.head? = some ch → ch ≠ ' ' ∧ ch ≠ '#' ∧ isBreak ch = false

theorem clear_nil : Clear [] := by
  rintro ch ⟨⟩

theorem clear_cons {ch : Char} {rest : List Char} :
    Clear (ch :: rest) ↔ ch ≠ ' ' ∧ ch ≠ '#' ∧ isBreak ch = false := by
  simp [Clear]

namespace Cursor

variable {c : Cursor} {run rest : List Char} {test : Char → Bool}

theorem rest_next (c : Cursor) : c.next.rest = c.rest.drop 1 := by
  unfold next
  split
  · rename_i held
    simp [held]
  · rename_i ch rest held
    simp only [held, List.drop_one, List.tail_cons]
    split <;> rfl

@[simp] theorem rest_skip (c : Cursor) (n : Nat) : (c.skip n).rest = c.rest.drop n := by
  induction n generalizing c with
  | zero => rfl
  | succ n ih => rw [skip, ih, rest_next, List.drop_drop, Nat.add_comm]

theorem skip_skip (c : Cursor) (m n : Nat) : (c.skip m).skip n = c.skip (m + n) := by
  induction m generalizing c with
  | zero => rw [skip, Nat.zero_add]
  | succ m ih => rw [skip, ih, Nat.add_right_comm, skip]

theorem next_eq_skip (c : Cursor) : c.next = c.skip 1 := rfl

theorem rest_skip_length (held : c.rest = run ++ rest) : (c.skip run.length).rest = rest := by
  rw [rest_skip, held, List.drop_left]

theorem rest_next_cons {ch : Char} (held : c.rest = ch :: rest) : c.next.rest = rest := by
  rw [rest_next, held]
  rfl

/-- Past the end of a line and the indentation of the next one. -/
theorem rest_skip_line {n : Nat} (held : c.rest = '\n' :: (List.replicate n ' ' ++ rest)) :
    (c.skip (n + 1)).rest = rest := by
  rw [rest_skip, held, List.drop_succ_cons, List.drop_left' (List.length_replicate ..)]

theorem left_skip (c : Cursor) (n : Nat) : (c.skip n).left = c.left - n := by
  rw [left_eq, left_eq, rest_skip, List.length_drop]

theorem peek_cons {ch : Char} (held : c.rest = ch :: rest) : c.peek = ch := by
  simp [peek, held]

theorem peekAt_eq (n : Nat) (held : c.rest = rest) : c.peekAt n = (rest.drop n).headD '\x00' := by
  rw [peekAt, held]

/-! ## Lines and columns -/

/-- What is known of the cursor past a character. -/
theorem next_cons {ch : Char} (held : c.rest = ch :: rest) :
    c.next.index = c.index + 1 ∧
      if isBreak ch && !(ch == '\r' && rest.head? == some '\n') then
        c.next.line = c.line + 1 ∧ c.next.column = 0
      else
        c.next.line = c.line ∧
          c.next.column = if ch == '\ufeff' then c.column else c.column + 1 := by
  unfold next
  split
  · rename_i none
    rw [none] at held
    cases held
  · rename_i other after found
    rw [found] at held
    cases held
    split <;> exact ⟨rfl, rfl, rfl⟩

/-- Past an end of a line the column starts anew. -/
theorem next_break {ch : Char} (held : c.rest = ch :: rest) (ends : isBreak ch = true)
    (single : ch ≠ '\r') :
    c.next.column = 0 ∧ c.next.line = c.line + 1 ∧ c.next.index = c.index + 1 := by
  rcases next_cons held with ⟨index, place⟩
  rw [if_pos (by simp [ends, single])] at place
  exact ⟨place.2, place.1, index⟩

/-- Past a character that ends no line. -/
theorem next_inline {ch : Char} (held : c.rest = ch :: rest) (inline : isBreak ch = false) :
    c.next.line = c.line ∧ c.next.index = c.index + 1 ∧ c.column ≤ c.next.column ∧
      (ch ≠ '\ufeff' → c.next.column = c.column + 1) := by
  rcases next_cons held with ⟨index, place⟩
  rw [if_neg (by simp [inline])] at place
  rcases place with ⟨line, column⟩
  rw [column]
  refine ⟨line, index, ?_, fun other => if_neg (by simpa using other)⟩
  split <;> omega

/-- Along a line the index grows with each character. -/
theorem skip_inline (held : c.rest = run ++ rest) (inline : ∀ ch ∈ run, isBreak ch = false) :
    (c.skip run.length).line = c.line ∧ (c.skip run.length).index = c.index + run.length := by
  induction run generalizing c with
  | nil => exact ⟨rfl, rfl⟩
  | cons ch run ih =>
    have here := next_inline held (inline ch List.mem_cons_self)
    have later := ih (rest_next_cons held) fun other mem => inline other (List.mem_cons_of_mem _ mem)
    rw [List.length_cons, skip, later.1, later.2, here.1, here.2.1]
    exact ⟨rfl, by omega⟩

/-- Along a line the column does not get less. -/
theorem column_le_skip (held : c.rest = run ++ rest) (inline : ∀ ch ∈ run, isBreak ch = false) :
    c.column ≤ (c.skip run.length).column := by
  induction run generalizing c with
  | nil => exact le_rfl
  | cons ch run ih =>
    have later := ih (rest_next_cons held) fun other mem => inline other (List.mem_cons_of_mem _ mem)
    exact (next_inline held (inline ch List.mem_cons_self)).2.2.1.trans later

/-- Along blanks the column grows with each of them. -/
theorem column_blanks {n : Nat} (held : c.rest = List.replicate n ' ' ++ rest) :
    (c.skip n).column = c.column + n := by
  induction n generalizing c with
  | zero => rfl
  | succ n ih =>
    have front : c.rest = ' ' :: (List.replicate n ' ' ++ rest) := held
    have here := (next_inline front (by decide)).2.2.2 (by decide)
    rw [skip, ih (rest_next_cons front), here]
    omega

theorem line_le_next (c : Cursor) : c.line ≤ c.next.line := by
  unfold next
  split
  · exact le_rfl
  · split
    · exact Nat.le_succ _
    · exact le_rfl

theorem line_le_skip (c : Cursor) (n : Nat) : c.line ≤ (c.skip n).line := by
  induction n generalizing c with
  | zero => exact le_rfl
  | succ n ih => exact (line_le_next c).trans (ih c.next)

/-- Past a line feed the line is a later one. -/
theorem line_lt_skip {n : Nat} (held : c.rest = run ++ '\n' :: rest) (past : run.length < n) :
    c.line < (c.skip n).line := by
  have here : (c.skip run.length).rest = '\n' :: rest := rest_skip_length held
  have ended := (next_break here (by decide) (by decide)).2.1
  have after := line_le_skip (c.skip run.length).next (n - (run.length + 1))
  have before := line_le_skip c run.length
  rw [next_eq_skip, skip_skip] at ended after
  rw [skip_skip, show run.length + 1 + (n - (run.length + 1)) = n by omega] at after
  omega

/-- Past the end of a line the column is the indentation of the next one. -/
theorem column_skip_line {n : Nat} (held : c.rest = '\n' :: (List.replicate n ' ' ++ rest)) :
    (c.skip (n + 1)).column = n := by
  have indented := column_blanks (rest_next_cons held)
  rwa [(next_break held (by decide) (by decide)).1, Nat.zero_add, next_eq_skip, skip_skip,
    Nat.add_comm 1] at indented

/-- Past the rest of a line, and the indentation of the next one. -/
theorem skip_line {n : Nat} (held : c.rest = run ++ '\n' :: (List.replicate n ' ' ++ rest)) :
    (c.skip (run.length + (n + 1))).rest = rest ∧ (c.skip (run.length + (n + 1))).column = n := by
  have here := rest_skip_length held
  rw [← skip_skip]
  exact ⟨rest_skip_line here, column_skip_line here⟩

/-! ## Runs of characters -/

theorem takeWhile_append (each : ∀ ch ∈ run, test ch = true)
    (stop : ∀ ch, rest.head? = some ch → test ch = false) :
    (run ++ rest).takeWhile test = run := by
  rw [List.takeWhile_append_of_pos each]
  cases rest with
  | nil => simp
  | cons ch rest => rw [List.takeWhile_cons_of_neg (by simp [stop ch rfl]), List.append_nil]

theorem span_eq (test : Char → Bool) (held : c.rest = run ++ rest) (each : ∀ ch ∈ run, test ch = true)
    (stop : ∀ ch, rest.head? = some ch → test ch = false) :
    c.span test = (run, c.skip run.length) := by
  rw [span, held, takeWhile_append each stop]

theorem drop_eq (test : Char → Bool) (held : c.rest = run ++ rest) (each : ∀ ch ∈ run, test ch = true)
    (stop : ∀ ch, rest.head? = some ch → test ch = false) : c.drop test = c.skip run.length := by
  rw [drop, span_eq test held each stop]

/-- What stops at once. -/
theorem span_nil (stop : ∀ ch, c.rest.head? = some ch → test ch = false) : c.span test = ([], c) :=
  span_eq test (List.nil_append _).symm (by simp) stop

/-! ## Ends of lines -/

theorem lineEnd_cons {ch : Char} (held : c.rest = ch :: rest) (ends : isBreak ch = true)
    (single : ch ≠ '\r') :
    c.lineEnd = (some (if ch = '\x85' then '\n' else ch), c.next) := by
  simp only [isBreak, Bool.or_eq_true, beq_iff_eq] at ends
  unfold lineEnd
  rw [peek_cons held]
  rcases ends with (((rfl | same) | rfl) | rfl) | rfl
  · rfl
  · exact absurd same single
  · rfl
  · rfl
  · rfl

theorem lineEnd_none (stop : ∀ ch, c.rest.head? = some ch → isBreak ch = false) :
    c.lineEnd = (none, c) := by
  unfold lineEnd
  cases held : c.rest with
  | nil => simp [peek, held]
  | cons ch rest =>
    have inline := stop ch (by rw [held]; rfl)
    simp only [isBreak, Bool.or_eq_false_iff, beq_eq_false_iff_ne, ne_eq] at inline
    simp [peek_cons held, inline]

/-- A mark between documents starts with a hyphen or a point. -/
theorem atAnyMark_eq_false (other : ∀ ch, c.rest.head? = some ch → ch ≠ '-' ∧ ch ≠ '.') :
    c.atAnyMark = false := by
  have front : c.peek ≠ '-' ∧ c.peek ≠ '.' := by
    cases held : c.rest with
    | nil => simp [peek, held]
    | cons ch rest =>
      rw [peek_cons held]
      exact other ch (by rw [held]; rfl)
  simp [atAnyMark, atMark, front]

/-- No mark between documents is indented. -/
theorem atAnyMark_blanks {n : Nat} (held : c.rest = List.replicate n ' ' ++ rest)
    (positive : 0 < n) : c.atAnyMark = false := by
  obtain ⟨n, rfl⟩ : ∃ m, n = m + 1 := ⟨n - 1, by omega⟩
  apply atAnyMark_eq_false
  rintro d first
  rw [held] at first
  cases first
  decide

/-- Past blanks in front of something else. -/
theorem dropComment_eq {n : Nat} (held : c.rest = List.replicate n ' ' ++ rest)
    (other : ∀ ch, rest.head? = some ch → ch ≠ ' ' ∧ ch ≠ '#') : c.dropComment = c.skip n := by
  have blanks : c.drop (· == ' ') = c.skip n := by
    have dropped := drop_eq (· == ' ') held
      (fun ch mem => by simp [List.eq_of_mem_replicate mem])
      (fun ch first => by simp [(other ch first).1])
    rwa [List.length_replicate] at dropped
  have left : (c.skip n).rest = rest := by
    simpa using rest_skip_length held
  have front : (c.skip n).peek ≠ '#' := by
    cases found : rest with
    | nil =>
      rw [peek, left, found]
      decide
    | cons ch after =>
      rw [peek_cons (left.trans found)]
      exact (other ch (by rw [found]; rfl)).2
  simp [dropComment, blanks, front]

end Cursor
end Yaml
end Consignment
