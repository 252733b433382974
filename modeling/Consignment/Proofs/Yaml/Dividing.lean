import Consignment.Proofs.Outcome
import Consignment.Proofs.Yaml.Quoting
import Consignment.Yaml.Tokens

namespace Consignment
namespace Yaml

/-!
# Dividing step by step

The tokens of a document come from steps that carry much state, but outside brackets little of it
matters: where the cursor is, the tokens so far, the columns of the open blocks, and whether a key
can start.  `idle` is a state with nothing else, and `Leads` says that two states have the same
tokens ahead.

A state moves to the next token, across blanks or the end of a line, and takes it.  Either part is
described for itself, so that a run over some text is a chain of them.
-/

namespace Divided

/-! ## States with the same tokens -/

/-- The tokens from one state on are those from another one on, given enough fuel for either. -/
def Leads (d d' : Divided) : Prop :=
  ∀ fuel, d.cursor.left < fuel → ∃ fuel', d'.cursor.left < fuel' ∧ run fuel d = run fuel' d'

theorem Leads.trans {d d' d'' : Divided} (first : Leads d d') (second : Leads d' d'') :
    Leads d d'' := by
  intro fuel enough
  rcases first fuel enough with ⟨fuel', enough', same⟩
  rcases second fuel' enough' with ⟨fuel'', enough'', same'⟩
  exact ⟨fuel'', enough'', same.trans same'⟩

theorem leads_of_step {d d' : Divided} (stepped : d.step = .inr d')
    (further : d'.cursor.left < d.cursor.left) : Leads d d' := by
  intro fuel enough
  cases fuel with
  | zero => exact absurd enough (Nat.not_lt_zero _)
  | succ fuel => exact ⟨fuel, by omega, by rw [run, stepped]; rfl⟩

/-- States that move to the same next token have the same tokens. -/
theorem leads_of_advance {d d' e : Divided} (first : d.advance = .ok e) (second : d'.advance = .ok e)
    (notBack : d'.cursor.left ≤ d.cursor.left) : Leads d d' := by
  have stepped : d.step = d'.step := by
    unfold step
    rw [first, second]
  intro fuel enough
  cases fuel with
  | zero => exact absurd enough (Nat.not_lt_zero _)
  | succ fuel => exact ⟨fuel + 1, by omega, by rw [run, run, stepped]⟩

/-! ## Moving to the next token -/

/-- Outside brackets, with no possible key. -/
def idle (cursor : Cursor) (before : List Token) (blocks : List Nat) (keyAllowed : Bool) : Divided :=
  { cursor, done := before.reverse, count := before.length, blocks, keyAllowed }

section

variable {d : Divided} {c : Cursor} {before : List Token} {blocks : List Nat} {keyAllowed : Bool}
  {key : Option PossibleKey} {n : Nat} {rest : List Char}

theorem toNextToken_blanks (fuel : Nat) (held : d.cursor.rest = List.replicate n ' ' ++ rest)
    (clear : Clear rest) :
    toNextToken (fuel + 1) d = { d with cursor := d.cursor.skip n } := by
  have left : (d.cursor.skip n).rest = rest := by
    simpa using Cursor.rest_skip_length held
  have passed : d.cursor.dropComment = d.cursor.skip n :=
    Cursor.dropComment_eq held fun ch first => ⟨(clear ch first).1, (clear ch first).2.1⟩
  have inline : d.cursor.dropComment.lineEnd = (none, d.cursor.skip n) := by
    rw [passed, Cursor.lineEnd_none fun ch first => (clear ch (left ▸ first)).2.2]
  rw [toNextToken_of_inline fuel inline, passed]

theorem toNextToken_line (fuel : Nat) (held : d.cursor.rest = '\n' :: (List.replicate n ' ' ++ rest))
    (clear : Clear rest) (outside : d.outerKeys = []) :
    toNextToken (fuel + 2) d =
      { d with cursor := d.cursor.skip (n + 1), keyAllowed := true } := by
  have still : d.cursor.dropComment = d.cursor := Cursor.dropComment_eq (n := 0) held fun ch first => by
    cases first
    decide
  have flow : d.inFlow = false := by
    simp [inFlow, outside]
  have ends : d.cursor.dropComment.lineEnd = (some '\n', d.cursor.next) := by
    rw [still, Cursor.lineEnd_cons held (by decide) (by decide), ite_self]
  rw [toNextToken_of_lineEnd (fuel + 1) ends,
    toNextToken_blanks fuel (Cursor.rest_next_cons held) clear, flow, Cursor.next_eq_skip,
    Cursor.skip_skip, Nat.add_comm 1]
  simp

/-- No block is closed at a column inside the innermost one. -/
theorem closeBlocks_inside {column : Nat} (inside : ∀ b, d.blocks.head? = some b → b ≤ column) :
    d.closeBlocks (column < ·) = d := by
  have none : d.blocks.takeWhile (column < ·) = [] := by
    cases held : d.blocks with
    | nil => rfl
    | cons b blocks =>
      have le := inside b (by rw [held]; rfl)
      rw [List.takeWhile_cons_of_neg (by simpa using le)]
  unfold closeBlocks
  rw [none]
  split
  · rfl
  · simp

/-- A possible key that is given up on a later line. -/
def Stale (key : Option PossibleKey) (line : Nat) : Prop :=
  ∀ k, key = some k → k.required = false ∧ k.line < line

theorem dropIfStale_stale (stale : Stale key c.line) : dropIfStale c key = .ok none := by
  cases key with
  | none => rfl
  | some k =>
    have late := stale k rfl
    simp [dropIfStale, giveUp, late.2.ne, late.1]

/-- Across blanks. -/
theorem advance_blanks (key' : Option PossibleKey)
    (held : c.rest = List.replicate n ' ' ++ rest) (clear : Clear rest)
    (kept : dropIfStale (c.skip n) key = .ok key') :
    ({ idle c before blocks keyAllowed with key } : Divided).advance =
      .ok (closeBlocks { idle (c.skip n) before blocks keyAllowed with key := key' }
        ((c.skip n).column < ·)) := by
  unfold advance
  rw [toNextToken_blanks _ held clear]
  simp only [dropStaleKeys, idle, kept, List.mapM_nil]
  rfl

/-- Across the end of a line. -/
theorem advance_line (held : c.rest = '\n' :: (List.replicate n ' ' ++ rest)) (clear : Clear rest)
    (stale : Stale key (c.skip (n + 1)).line) :
    ({ idle c before blocks keyAllowed with key } : Divided).advance =
      .ok (closeBlocks (idle (c.skip (n + 1)) before blocks true) ((c.skip (n + 1)).column < ·)) := by
  have enough : ∃ fuel, c.left + 1 = fuel + 2 := ⟨c.left - 1, by
    rw [Cursor.left_eq, held]
    simp⟩
  rcases enough with ⟨fuel, enough⟩
  unfold advance
  rw [show ({ idle c before blocks keyAllowed with key } : Divided).cursor.left + 1 = fuel + 2 from
    enough, toNextToken_line fuel held clear rfl]
  simp only [dropStaleKeys, idle, dropIfStale_stale stale, List.mapM_nil]
  rfl

theorem leads_blanks (held : c.rest = List.replicate n ' ' ++ rest) (clear : Clear rest) :
    Leads (idle c before blocks keyAllowed) (idle (c.skip n) before blocks keyAllowed) := by
  have left : (c.skip n).rest = List.replicate 0 ' ' ++ rest := by
    simpa using Cursor.rest_skip_length held
  exact leads_of_advance (advance_blanks none held clear rfl) (advance_blanks none left clear rfl)
    ((Cursor.left_skip _ _).trans_le (Nat.sub_le _ _))

/-- A possible key of an earlier line is given up. -/
theorem leads_past (clear : Clear c.rest) (stale : Stale key c.line) :
    Leads { idle c before blocks keyAllowed with key } (idle c before blocks keyAllowed) :=
  leads_of_advance (advance_blanks none (n := 0) rfl clear (dropIfStale_stale stale))
    (advance_blanks none (n := 0) rfl clear rfl) le_rfl

/-- The end of a line gives up a possible key, and a new one can start after it. -/
theorem leads_line (held : c.rest = '\n' :: (List.replicate n ' ' ++ rest)) (clear : Clear rest)
    (stale : Stale key (c.line + 1)) :
    Leads { idle c before blocks keyAllowed with key }
      (idle (c.skip (n + 1)) before blocks true) := by
  have left : (c.skip (n + 1)).rest = List.replicate 0 ' ' ++ rest := Cursor.rest_skip_line held
  have later : c.line < (c.skip (n + 1)).line :=
    Cursor.line_lt_skip (held.trans (List.nil_append _).symm) (Nat.succ_pos n)
  refine leads_of_advance (advance_line held clear fun k found => ?_)
    (advance_blanks none left clear rfl) ?_
  · exact ⟨(stale k found).1, (stale k found).2.trans_le later⟩
  · exact (Cursor.left_skip _ _).trans_le (Nat.sub_le _ _)

theorem leads_indent (held : c.rest = '\n' :: (List.replicate n ' ' ++ rest)) (clear : Clear rest) :
    Leads (idle c before blocks keyAllowed) (idle (c.skip (n + 1)) before blocks true) :=
  leads_line held clear (by rintro k ⟨⟩)

/-- Across blanks, a token is taken, which goes on by some characters. -/
theorem leads_token {key' : Option PossibleKey} (held : c.rest = List.replicate n ' ' ++ rest)
    (clear : Clear rest) (more : rest ≠ []) (kept : dropIfStale (c.skip n) key = .ok key')
    (inside : ∀ b, blocks.head? = some b → b ≤ (c.skip n).column)
    (taken : ({ idle (c.skip n) before blocks keyAllowed with key := key' } : Divided).takeToken =
      .ok d)
    (onward : ∃ m, 0 < m ∧ d.cursor = (c.skip n).skip m) :
    Leads { idle c before blocks keyAllowed with key } d := by
  have left : (c.skip n).rest = rest := by
    simpa using Cursor.rest_skip_length held
  have some : ((c.skip n).rest.isEmpty) = false := by
    rw [left]
    simpa using more
  have further : d.cursor.left < c.left := by
    rcases onward with ⟨m, positive, moved⟩
    have long := List.length_pos_iff.mpr more
    rw [moved, Cursor.left_skip, Cursor.left_skip, Cursor.left_eq, held, List.length_append]
    omega
  refine leads_of_step ?_ further
  unfold step
  rw [advance_blanks key' held clear kept, closeBlocks_inside inside]
  dsimp only
  rw [show ({ idle (c.skip n) before blocks keyAllowed with
    key := key' } : Divided).cursor.rest.isEmpty = false from some, taken]
  rfl

/-! ## Taking a token -/

/-- The possible key that a node at a cursor is. -/
def keyAt (c : Cursor) (before : List Token) (blocks : List Nat) (keyAllowed : Bool) :
    Option PossibleKey :=
  if keyAllowed then
    some ⟨before.length, blocks.head? == some c.column, c.index, c.line, c.column⟩
  else none

theorem saveKey_idle : (idle c before blocks keyAllowed).saveKey =
    .ok { idle c before blocks keyAllowed with key := keyAt c before blocks keyAllowed } := by
  cases keyAllowed <;> rfl

theorem push_idle (key : Option PossibleKey) (token : Token) :
    ({ idle c before blocks keyAllowed with key } : Divided).push token =
      { idle c (before ++ [token]) blocks keyAllowed with key } := by
  simp [push, idle]

/-- A scalar in quotes. -/
theorem takeToken_quote (double : Bool) (front : d.cursor.peek = quoteOf double) :
    d.takeToken = d.takeKeyable (scanQuotedToken double) := by
  unfold takeToken
  cases double with
  | true => simp [front, quoteOf, Cursor.atMark]
  | false => simp [front, quoteOf, Cursor.atMark]

/-- The colon before a value. -/
theorem takeToken_colon (front : d.cursor.peek = ':') (blank : isSpaceOrEnd (d.cursor.peekAt 1) = true) :
    d.takeToken = d.takeColon := by
  unfold takeToken
  simp [front, blank, Cursor.atMark]

theorem inFlow_eq_false (outside : d.outerKeys = []) : d.inFlow = false := by
  simp [inFlow, outside]

/-- A scalar without marks starts where nothing could be taken for structure. -/
theorem startsPlain_of_front (outside : d.outerKeys = []) {ch : Char} {more : List Char}
    (held : d.cursor.rest = ch :: more) (front : PlainFront ch more) :
    d.startsPlain d.cursor = true := by
  have second : d.cursor.peekAt 1 = more.headD '\x00' := Cursor.peekAt_eq 1 held
  unfold startsPlain
  rw [Cursor.peek_cons held, second, inFlow_eq_false outside]
  by_cases word : ch = '?' ∨ ch = ':' ∨ ch = '-'
  · rw [front.next word]
    rcases word with rfl | rfl | rfl <;> rfl
  · rw [not_or, not_or] at word
    simp (disch := decide) [front.visible, front.ne, word]

/-- A scalar without marks. -/
theorem takeToken_plain (outside : d.outerKeys = []) {ch : Char} {more : List Char}
    (held : d.cursor.rest = ch :: more) (front : PlainFront ch more)
    (unmarked : d.cursor.column = 0 → d.cursor.atAnyMark = false) :
    d.takeToken = d.takePlain := by
  have peek : d.cursor.peek = ch := Cursor.peek_cons held
  have second : d.cursor.peekAt 1 = more.headD '\x00' := Cursor.peekAt_eq 1 held
  have between (mark : Char) (either : mark = '-' ∨ mark = '.') :
      (d.cursor.column == 0 && d.cursor.atMark mark) = false := by
    by_cases start : d.cursor.column = 0
    · have none := unmarked start
      simp only [Cursor.atAnyMark, Bool.or_eq_false_iff] at none
      rcases either with rfl | rfl
      · simp [none.1]
      · simp [none.2]
    · simp [start]
  have word (mark : Char) (either : mark = '?' ∨ mark = ':' ∨ mark = '-') :
      (ch == mark && isSpaceOrEnd (more.headD '\x00')) = false := by
    by_cases same : ch = mark
    · rw [front.next (same ▸ either), Bool.and_false]
    · simp [same]
  unfold takeToken
  dsimp only
  rw [between '-' (.inl rfl), between '.' (.inr rfl), startsPlain_of_front outside held front,
    inFlow_eq_false outside, peek, second, Bool.false_or, word '-' (by simp), word '?' (by simp),
    word ':' (by simp)]
  simp (disch := decide) [front.ne]

/-! ## Blocks -/

/-- At a column where a line of a block starts: the block is open already, or it is opened here with
a token of its own. -/
inductive Begun (start : Token) (column : Nat) (before : List Token) (blocks : List Nat) :
    List Token → List Nat → Prop
  | inside (held : blocks.head? = some column) : Begun start column before blocks before blocks
  | opens (deeper : ∀ b, blocks.head? = some b → b < column) :
    Begun start column before blocks (before ++ [start]) (column :: blocks)

variable {start token : Token} {before' : List Token} {blocks' : List Nat}

namespace Begun

variable {column : Nat}

theorem head? (begun : Begun start column before blocks before' blocks') :
    blocks'.head? = some column := by
  cases begun with
  | inside held => exact held
  | opens => rfl

theorem inside_of (begun : Begun start column before blocks before' blocks') :
    ∀ b, blocks.head? = some b → b ≤ column := by
  intro b found
  cases begun with
  | inside held =>
    rw [held] at found
    cases found
    exact le_rfl
  | opens deeper => exact (deeper b found).le

end Begun

theorem opensBlock_iff {column : Nat} :
    d.opensBlock column = true ↔ ∀ b, d.blocks.head? = some b → b < column := by
  unfold opensBlock
  cases d.blocks with
  | nil => simp
  | cons b blocks => simp

theorem takeBlockMark_idle (begun : Begun start c.column before blocks before' blocks') :
    (idle c before blocks true).takeBlockMark start token true =
      .ok (idle c.next (before' ++ [token]) blocks' true) := by
  have opened : (idle c before blocks true).openBlock start = idle c before' blocks' true := by
    unfold openBlock
    cases begun with
    | inside held =>
      rw [if_neg]
      rw [opensBlock_iff]
      exact fun all => lt_irrefl _ (all c.column held)
    | opens deeper =>
      rw [if_pos (opensBlock_iff.mpr deeper)]
      have pushed : (idle c before (c.column :: blocks) true).push start =
          idle c (before ++ [start]) (c.column :: blocks) true := push_idle none start
      exact pushed
  have flow : (idle c before blocks true).inFlow = false := rfl
  have allowed : (idle c before blocks true).keyAllowed = true := rfl
  unfold takeBlockMark
  rw [flow, if_neg Bool.false_ne_true, allowed, if_pos rfl, opened]
  exact congrArg _ (push_idle none token)

/-- The colon after a key without a mark of its own. -/
theorem takeColon_idle {scalar : Token} {k : PossibleKey} (place : k.position = before.length)
    (begun : Begun .blockMappingStart k.column before blocks before' blocks') :
    ({ idle c (before ++ [scalar]) blocks keyAllowed with key := some k } : Divided).takeColon =
      .ok (idle c.next (before' ++ [.key, scalar, .value]) blocks' false) := by
  unfold takeColon
  cases begun with
  | inside held =>
    have closed (d : Divided) (same : d.blocks = blocks) : d.opensBlock k.column = false := by
      rw [← Bool.not_eq_true, opensBlock_iff, same]
      exact fun all => lt_irrefl _ (all _ held)
    simp [idle, insert, push, inFlow, place, closed]
  | opens deeper =>
    have opens (d : Divided) (same : d.blocks = blocks) : d.opensBlock k.column = true := by
      rw [opensBlock_iff, same]
      exact deeper
    simp [idle, insert, push, inFlow, place, opens]

/-! ## Scalars -/

theorem takeKeyable_idle {scan : Scan Token} {after : Cursor} (scanned : scan c = .ok (token, after)) :
    (idle c before blocks keyAllowed).takeKeyable scan =
      .ok { idle after (before ++ [token]) blocks false with
        key := keyAt c before blocks keyAllowed } := by
  unfold takeKeyable
  rw [saveKey_idle, Outcome.ok_bind]
  change (scan c >>= _) = _
  rw [scanned, Outcome.ok_bind]
  exact congrArg _ (push_idle _ token)

theorem takePlain_idle {text : List Char} {ended : Bool} {after : Cursor}
    (scanned : scanPlain false (idle c before blocks keyAllowed).leastColumn (c.left + 1) [] false c =
      (text, ended, after)) :
    (idle c before blocks keyAllowed).takePlain =
      .ok { idle after (before ++ [.scalar text true]) blocks ended with
        key := keyAt c before blocks keyAllowed } := by
  unfold takePlain
  rw [saveKey_idle, Outcome.ok_bind]
  have same : scanPlain ({ idle c before blocks keyAllowed with
      key := keyAt c before blocks keyAllowed } : Divided).inFlow ({ idle c before blocks keyAllowed with
      key := keyAt c before blocks keyAllowed } : Divided).leastColumn
      ((idle c before blocks keyAllowed).cursor.left + 1) [] false
      (idle c before blocks keyAllowed).cursor = (text, ended, after) := scanned
  dsimp only
  rw [same]
  exact congrArg _ (push_idle _ (.scalar text true))

/-- Where a reader stands after a scalar: after the last quote, or at what ended a plain scalar. -/
def landing (style : Style) (c : Cursor) : Bool × Cursor :=
  if style = .plain then (scanPlainSpaces c).2 else (false, c)

/-- A form of a scalar is not empty, and its front is that of a scalar. -/
theorem formed_front {column : Nat} {cs form : List Char} {style : Style}
    (formed : Page.Formed column cs style form)
    (plain : style = .plain → allowsPlain cs = true ∧ cs ≠ []) (rest : List Char) :
    Clear (form ++ rest) ∧ form ≠ [] := by
  cases formed with
  | plain laid =>
    rcases plain rfl with ⟨allowed, long⟩
    cases cs with
    | nil => exact absurd rfl long
    | cons ch cs =>
      have front := plainFront_of_allowsPlain allowed
      rcases laid.plainFront front rest with ⟨more, rfl, _⟩
      have visible := front.visible
      simp only [isSpaceOrEnd, isBreakOrEnd, Bool.or_eq_false_iff, beq_eq_false_iff_ne] at visible
      refine ⟨clear_cons.mpr ⟨visible.1.1, ?_, visible.2.2⟩, List.cons_ne_nil _ _⟩
      rintro rfl
      exact absurd front.unmarked (by decide)
  | single | double => exact ⟨clear_cons.mpr (by decide), List.cons_ne_nil _ _⟩

theorem scanQuotedToken_eq (double : Bool) {cs : List Char} {count : Nat}
    (scanned : scanQuoted double (c.left + 1) c.next = .ok (cs, c.next.skip count)) :
    scanQuotedToken double c = .ok (.scalar cs false, c.skip (count + 1)) := by
  unfold scanQuotedToken
  rw [scanned, Outcome.ok_bind]
  rfl

/-- A scalar is taken in each of the forms in which it can be written. -/
theorem takeToken_scalar {column : Nat} {cs form : List Char} {style : Style}
    (formed : Page.Formed column cs style form)
    (plain : style = .plain → allowsPlain cs = true ∧ cs ≠ []) (positive : 0 < column)
    (held : c.rest = form ++ rest)
    (wide : (idle c before blocks keyAllowed).leastColumn ≤ column)
    (reached : (idle c before blocks keyAllowed).leastColumn ≤ c.column + 1)
    (stops : StopsPlain rest) (unquoted : ∀ double, rest.head? ≠ some (quoteOf double))
    (closing : PlainOver (idle c before blocks keyAllowed).leastColumn
      (scanPlainSpaces (c.skip form.length)))
    (unmarked : style = .plain → c.column = 0 → c.atAnyMark = false) :
    (idle c before blocks keyAllowed).takeToken =
      .ok { idle (landing style (c.skip form.length)).2
          (before ++ [.scalar cs (decide (style = .plain))]) blocks
          (landing style (c.skip form.length)).1 with
        key := keyAt c before blocks keyAllowed } := by
  cases formed with
  | plain laid =>
    rcases plain rfl with ⟨allowed, long⟩
    have enough : form.length < c.left + 1 := by
      rw [Cursor.left_eq, held, List.length_append]
      omega
    have scanned := scanPlain_laid wide positive [] false laid
      (plainRest_of_allowsPlain allowed long) held reached stops closing enough
    cases cs with
    | nil => exact absurd rfl long
    | cons ch cs =>
      rcases laid.plainFront (plainFront_of_allowsPlain allowed) rest with ⟨more, rfl, front⟩
      rw [takeToken_plain rfl held front (unmarked rfl), takePlain_idle scanned]
      rfl
  | @single written laid =>
    rw [List.cons_append, List.append_assoc] at held
    have scanned := scanQuoted_laid positive (c.left + 1) laid (Cursor.rest_next_cons held)
      (unquoted false) (by rw [Cursor.left_eq, held]; simp; omega)
    rw [takeToken_quote false (Cursor.peek_cons held),
      takeKeyable_idle (scanQuotedToken_eq false scanned)]
    simp [landing]
  | @double written escaped =>
    rw [List.cons_append, List.append_assoc] at held
    have scanned := scanQuoted_escaped positive (c.left + 1) escaped (Cursor.rest_next_cons held)
      (unquoted true) (by rw [Cursor.left_eq, held]; simp; omega)
    rw [takeToken_quote true (Cursor.peek_cons held),
      takeKeyable_idle (scanQuotedToken_eq true scanned)]
    simp [landing]

/-- Where nothing but a key could start no block's line stands, a scalar is no required key. -/
theorem stale_keyAt {line : Nat} (inside : ∀ b, blocks.head? = some b → b < c.column)
    (later : c.line < line) : Stale (keyAt c before blocks keyAllowed) line := by
  intro k found
  unfold keyAt at found
  split at found
  · cases found
    refine ⟨beq_eq_false_iff_ne.mpr fun held => ?_, later⟩
    exact lt_irrefl _ (inside _ held)
  · cases found

/-- A scalar that ends its line, in a block whose lines are indented less. -/
theorem leads_scalar {b column : Nat} {cs form : List Char} {style : Style}
    (formed : Page.Formed column cs style form)
    (plain : style = .plain → allowsPlain cs = true ∧ cs ≠ [])
    (held : c.rest = ' ' :: (form ++ '\n' :: (List.replicate n ' ' ++ rest))) (clear : Clear rest)
    (block : blocks.head? = some b) (inside : b ≤ c.column) (wide : b < column) (less : n ≤ b) :
    Leads (idle c before blocks keyAllowed)
      (idle (c.skip (1 + (form.length + (n + 1))))
        (before ++ [.scalar cs (decide (style = .plain))]) blocks true) := by
  have front := formed_front formed plain ('\n' :: (List.replicate n ' ' ++ rest))
  have start : (c.skip 1).rest = form ++ '\n' :: (List.replicate n ' ' ++ rest) :=
    Cursor.rest_next_cons held
  have column : (c.skip 1).column = c.column + 1 := (Cursor.next_inline held (by decide)).2.2.2 (by decide)
  have least : (idle (c.skip 1) before blocks keyAllowed).leastColumn = b + 1 := by
    simp [leastColumn, idle, block]
  have after := Cursor.rest_skip_length start
  have closing := scanPlainSpaces_line after (fun ch first => ⟨(clear ch first).1, (clear ch first).2.2⟩)
    (Nat.lt_succ_of_le less)
  have taken : (idle (c.skip 1) before blocks keyAllowed).takeToken = _ :=
    takeToken_scalar formed plain (Nat.zero_lt_of_lt wide) start (by omega) (by omega)
      (stopsPlain_blank (by decide)) (fun double => by cases double <;> simp [quoteOf])
      (by rw [least]; exact closing.2) (fun _ => by omega)
  have stale : Stale (keyAt (c.skip 1) before blocks keyAllowed)
      (((c.skip 1).skip form.length).line + 1) := by
    refine stale_keyAt (fun b' found => ?_) (Nat.lt_succ_of_le (Cursor.line_le_skip _ _))
    rw [block] at found
    cases found
    omega
  have total : (c.skip 1).skip (form.length + (n + 1)) = c.skip (1 + (form.length + (n + 1))) :=
    Cursor.skip_skip _ _ _
  rw [← Cursor.skip_skip] at total
  have positive := List.length_pos_iff.mpr front.2
  refine Leads.trans (leads_token held front.1 (by simp) rfl (fun b' found => ?_) taken ?_) ?_
  · rw [block] at found
    cases found
    omega
  · unfold landing
    split
    · rw [closing.1]
      exact ⟨form.length + (n + 1), by omega, Cursor.skip_skip _ _ _⟩
    · exact ⟨form.length, positive, rfl⟩
  · rw [← total]
    unfold landing
    split
    · -- a plain scalar takes the end of its line
      rw [closing.1]
      have later := Cursor.line_lt_skip (after.trans (List.nil_append _).symm) (Nat.succ_pos n)
      refine leads_past ?_ fun k found => ⟨(stale k found).1, (stale k found).2.trans_le later⟩
      rwa [Cursor.rest_skip_line after]
    · exact leads_line after clear stale

/-- No mark between documents stands where a plain key does. -/
theorem atAnyMark_plain_key {cs : List Char} (plain : allowsPlain cs = true) (long : cs ≠ [])
    (held : c.rest = cs ++ ':' :: rest) : c.atAnyMark = false := by
  have unmarked (mark : Char) (either : mark = '-' ∨ mark = '.') : c.atMark mark = false := by
    have other : ':' ≠ mark := by
      rcases either with rfl | rfl <;> decide
    unfold Cursor.atMark Cursor.peekAt Cursor.peek
    rw [held]
    cases cs with
    | nil => exact absurd rfl long
    | cons a cs =>
      cases cs with
      | nil => simp [other]
      | cons b cs =>
        cases cs with
        | nil => simp [other]
        | cons d cs =>
          rw [← Bool.not_eq_true]
          intro marked
          simp only [Bool.and_eq_true, beq_iff_eq, List.cons_append, List.headD_cons, List.drop_succ_cons,
            List.drop_zero] at marked
          rcases marked with ⟨⟨⟨rfl, rfl⟩, rfl⟩, _⟩
          rcases either with rfl | rfl <;> simp [allowsPlain, holdsStructure, startsStructure] at plain
  rw [Cursor.atAnyMark, unmarked '-' (.inl rfl), unmarked '.' (.inr rfl)]
  rfl

/-- A key without a mark of its own, with its colon. -/
theorem leads_key {column : Nat} {cs form : List Char} {style : Style} {ch : Char}
    (formed : Page.Formed column cs style form)
    (plain : style = .plain → allowsPlain cs = true ∧ cs ≠ [] ∧ form = cs)
    (held : c.rest = form ++ ':' :: ch :: rest) (blank : isSpaceOrEnd ch = true)
    (inline : ∀ ch ∈ form, isBreak ch = false) (short : form.length ≤ maxKeyLength)
    (wide : c.column < column)
    (begun : Begun .blockMappingStart c.column before blocks before' blocks') :
    Leads (idle c before blocks true)
      (idle (c.skip (form.length + 1))
        (before' ++ [.key, .scalar cs (decide (style = .plain)), .value]) blocks' false) := by
  have allowed : style = .plain → allowsPlain cs = true ∧ cs ≠ [] :=
    fun same => ⟨(plain same).1, (plain same).2.1⟩
  have front := formed_front formed allowed (':' :: ch :: rest)
  have after := Cursor.rest_skip_length held
  have least : (idle c before blocks true).leastColumn ≤ c.column + 1 := by
    have inside := begun.inside_of
    simp only [leastColumn, idle]
    split
    · omega
    · rename_i b found
      have le := inside b found
      omega
  have closing := scanPlainSpaces_colon after (idle c before blocks true).leastColumn
  have unmarked : style = .plain → c.column = 0 → c.atAnyMark = false := by
    intro same _
    rcases plain same with ⟨allowed, long, rfl⟩
    exact atAnyMark_plain_key allowed long held
  have taken : (idle c before blocks true).takeToken = _ :=
    takeToken_scalar formed allowed (Nat.zero_lt_of_lt wide) held (by omega) least
      (stopsPlain_colon blank) (fun double => by cases double <;> simp [quoteOf]) closing.2 unmarked
  have landed : landing style (c.skip form.length) = (false, c.skip form.length) := by
    unfold landing
    split
    · exact closing.1
    · rfl
  rw [landed] at taken
  have onLine := Cursor.skip_inline held inline
  have kept : dropIfStale ((c.skip form.length).skip 0) (keyAt c before blocks true) =
      .ok (keyAt c before blocks true) := by
    have near : ¬ (c.line ≠ (c.skip form.length).line ∨
        maxKeyLength < (c.skip form.length).index - c.index) := by
      rw [onLine.1, onLine.2]
      omega
    exact if_neg near
  have positive := List.length_pos_iff.mpr front.2
  refine Leads.trans (leads_token (n := 0) held front.1 (by simp) rfl begun.inside_of taken
    ⟨form.length, positive, rfl⟩) ?_
  have colon : (c.skip form.length).peek = ':' := Cursor.peek_cons after
  have next : (c.skip form.length).peekAt 1 = ch := Cursor.peekAt_eq 1 after
  have valued : ({ idle (c.skip form.length) (before ++ [.scalar cs (decide (style = .plain))]) blocks
      false with key := keyAt c before blocks true } : Divided).takeToken = _ :=
    (takeToken_colon colon (next ▸ blank)).trans (takeColon_idle (k := ⟨_, _, _, _, _⟩) rfl begun)
  rw [Cursor.next_eq_skip, Cursor.skip_skip] at valued
  refine leads_token (n := 0) after (clear_cons.mpr (by decide)) (by simp) kept (fun b found => ?_)
    valued ⟨1, Nat.one_pos, (Cursor.skip_skip c form.length 1).symm⟩
  exact (begun.inside_of b found).trans (Cursor.column_le_skip held inline)

/-! ## Marks of blocks -/

/-- The marks at the front of a block's line, each with the token that starts such a block and the
token that the mark itself is. -/
def blockMarks : List (Char × Token × Token) := [
  ('-', .blockSequenceStart, .blockEntry), ('?', .blockMappingStart, .key),
  (':', .blockMappingStart, .value)]

theorem takeToken_mark {mark : Char} (marks : (mark, start, token) ∈ blockMarks)
    (front : c.peek = mark) (blank : isSpaceOrEnd (c.peekAt 1) = true) :
    (idle c before blocks true).takeToken =
      (idle c before blocks true).takeBlockMark start token true := by
  have cursor : (idle c before blocks true).cursor = c := rfl
  have flow : (idle c before blocks true).inFlow = false := rfl
  have key : (idle c before blocks true).key = none := rfl
  have other : c.peekAt 1 ≠ '-' := by
    intro same
    rw [same] at blank
    cases blank
  simp only [blockMarks, List.mem_cons, Prod.mk.injEq, List.not_mem_nil, or_false] at marks
  unfold takeToken
  rcases marks with ⟨rfl, rfl, rfl⟩ | ⟨rfl, rfl, rfl⟩ | ⟨rfl, rfl, rfl⟩
  · simp [cursor, front, blank, other, Cursor.atMark]
  · simp [cursor, flow, front, blank, Cursor.atMark]
  · simp [cursor, flow, key, front, blank, Cursor.atMark, takeColon]

theorem clear_mark {mark : Char} (marks : (mark, start, token) ∈ blockMarks) (rest : List Char) :
    Clear (mark :: rest) := by
  simp only [blockMarks, List.mem_cons, Prod.mk.injEq, List.not_mem_nil, or_false] at marks
  rcases marks with ⟨rfl, _⟩ | ⟨rfl, _⟩ | ⟨rfl, _⟩ <;> exact clear_cons.mpr (by decide)

theorem column_mark {mark : Char} (marks : (mark, start, token) ∈ blockMarks)
    (held : c.rest = mark :: rest) : (c.skip 1).column = c.column + 1 := by
  simp only [blockMarks, List.mem_cons, Prod.mk.injEq, List.not_mem_nil, or_false] at marks
  rcases marks with ⟨rfl, _⟩ | ⟨rfl, _⟩ | ⟨rfl, _⟩ <;>
    exact (Cursor.next_inline held (by decide)).2.2.2 (by decide)

/-- A mark at the front of a block's line. -/
theorem leads_mark {mark ch : Char} (marks : (mark, start, token) ∈ blockMarks)
    (held : c.rest = mark :: ch :: rest) (blank : isSpaceOrEnd ch = true)
    (begun : Begun start c.column before blocks before' blocks') :
    Leads (idle c before blocks true) (idle (c.skip 1) (before' ++ [token]) blocks' true) := by
  have next : c.peekAt 1 = ch := Cursor.peekAt_eq 1 held
  exact leads_token (n := 0) held (clear_mark marks _) (by simp) rfl begun.inside_of
    ((takeToken_mark marks (Cursor.peek_cons held) (next ▸ blank)).trans (takeBlockMark_idle begun))
    ⟨1, Nat.one_pos, rfl⟩

theorem closeBlocks_idle (test : Nat → Bool) :
    closeBlocks (idle c before blocks keyAllowed) test =
      idle c (before ++ (blocks.takeWhile test).map fun _ => .blockEnd) (blocks.dropWhile test)
        keyAllowed := by
  have flow : (idle c before blocks keyAllowed).inFlow = false := rfl
  unfold closeBlocks
  rw [flow, if_neg Bool.false_ne_true]
  have left : blocks.drop (blocks.takeWhile test).length = blocks.dropWhile test := by
    have dropped := @List.drop_left _ (blocks.takeWhile test) (blocks.dropWhile test)
    rwa [List.takeWhile_append_dropWhile] at dropped
  simp [idle, left]

/-- A block ends where a line is indented less. -/
theorem leads_close {b : Nat} (clear : Clear c.rest) (less : c.column < b) :
    Leads (idle c before (b :: blocks) true) (idle c (before ++ [.blockEnd]) blocks true) := by
  have closed : closeBlocks (idle c before (b :: blocks) true) (c.column < ·) =
      closeBlocks (idle c (before ++ [.blockEnd]) blocks true) (c.column < ·) := by
    rw [closeBlocks_idle, closeBlocks_idle, List.takeWhile_cons_of_pos (by simpa using less),
      List.dropWhile_cons_of_pos (by simpa using less), List.map_cons, List.append_assoc]
    rfl
  refine leads_of_advance (advance_blanks none (n := 0) rfl clear rfl) ?_ le_rfl
  exact (advance_blanks none (n := 0) rfl clear rfl).trans (congrArg _ closed.symm)

/-- At the end of the text all blocks end. -/
theorem run_end {fuel : Nat} (held : c.rest = []) :
    run (fuel + 1) (idle c before blocks true) =
      before ++ (blocks.map (fun _ => .blockEnd) ++ [.streamEnd]) := by
  have clear : Clear c.rest := by
    rw [held]
    exact clear_nil
  have advanced : (idle c before blocks true).advance =
      .ok (closeBlocks (idle c before blocks true) (c.column < ·)) :=
    advance_blanks none (n := 0) rfl clear rfl
  have all : (blocks.dropWhile (c.column < ·)).takeWhile (fun _ => true) =
      blocks.dropWhile (c.column < ·) := List.takeWhile_eq_self_iff.mpr (by simp)
  have stepped : (idle c before blocks true).step =
      .inl (before ++ (blocks.map (fun _ => .blockEnd) ++ [.streamEnd])) := by
    unfold step
    rw [advanced, closeBlocks_idle]
    dsimp only
    rw [closeBlocks_idle, all, if_pos (by simp [idle, held]), List.append_assoc, ← List.map_append,
      List.takeWhile_append_dropWhile]
    simp [dropKey, idle, giveUp]
  rw [run, stepped]
  rfl

/-! ## Brackets -/

def bracket (isMapping opens : Bool) : Char × Token :=
  match isMapping, opens with
  | false, true => ('[', .flowSequenceStart)
  | false, false => (']', .flowSequenceEnd)
  | true, true => ('\x7b', .flowMappingStart)
  | true, false => ('\x7d', .flowMappingEnd)

theorem takeToken_openFlow (isMapping : Bool) (front : d.cursor.peek = (bracket isMapping true).1) :
    d.takeToken = d.openFlow (bracket isMapping true).2 := by
  unfold takeToken
  cases isMapping <;> simp [bracket, front, Cursor.atMark]

theorem takeToken_closeFlow (isMapping : Bool) (front : d.cursor.peek = (bracket isMapping false).1) :
    d.takeToken = d.closeFlow (bracket isMapping false).2 := by
  unfold takeToken
  cases isMapping <;> simp [bracket, front, Cursor.atMark]

theorem openFlow_idle : (idle c before blocks keyAllowed).openFlow token =
    .ok { idle c.next (before ++ [token]) blocks true with
      outerKeys := [keyAt c before blocks keyAllowed] } := by
  unfold openFlow
  rw [saveKey_idle, Outcome.ok_bind]
  simp [push, idle, pure, Except.pure]

/-- Inside brackets that were opened just before, the key around them is still possible. -/
theorem leads_closeFlow (isMapping : Bool) (held : c.next.rest = (bracket isMapping false).1 :: rest)
    (opened : c.next.line = c.line ∧ c.next.index = c.index + 1) :
    Leads { idle c.next before' blocks true with outerKeys := [keyAt c before blocks keyAllowed] }
      { idle c.next.next (before' ++ [(bracket isMapping false).2]) blocks false with
        key := keyAt c before blocks keyAllowed } := by
  have kept : dropIfStale c.next (keyAt c before blocks keyAllowed) =
      .ok (keyAt c before blocks keyAllowed) := by
    unfold keyAt
    split
    · simp [dropIfStale, opened, maxKeyLength]
    · rfl
  have clear : Clear ((bracket isMapping false).1 :: rest) := by
    cases isMapping <;> exact clear_cons.mpr (by decide)
  have advanced : ({ idle c.next before' blocks true with
      outerKeys := [keyAt c before blocks keyAllowed] } : Divided).advance =
      .ok { idle c.next before' blocks true with outerKeys := [keyAt c before blocks keyAllowed] } := by
    unfold advance
    rw [toNextToken_blanks (n := 0) _ held clear]
    have none : dropIfStale c.next .none = .ok .none := rfl
    simp [dropStaleKeys, idle, Cursor.skip, kept, none, closeBlocks, inFlow]
  have taken := takeToken_closeFlow (d := { idle c.next before' blocks true with
    outerKeys := [keyAt c before blocks keyAllowed] }) isMapping (Cursor.peek_cons held)
  refine leads_of_step ?_ ?_
  · unfold step
    rw [advanced]
    dsimp only
    rw [if_neg (by simp [idle, held]), taken]
    simp [closeFlow, push, idle]
  · change c.next.next.left < c.next.left
    rw [Cursor.next_eq_skip c.next, Cursor.left_skip, Cursor.left_eq, held]
    simp

theorem leads_brackets {b : Nat} (isMapping : Bool)
    (held : c.rest = ' ' :: (bracket isMapping true).1 :: (bracket isMapping false).1 ::
      '\n' :: (List.replicate n ' ' ++ rest)) (clear : Clear rest)
    (block : blocks.head? = some b) (inside : b ≤ c.column) :
    Leads (idle c before blocks keyAllowed)
      (idle (c.skip (1 + (2 + (n + 1))))
        (before ++ [(bracket isMapping true).2, (bracket isMapping false).2]) blocks true) := by
  have start := Cursor.rest_next_cons held
  have close := Cursor.rest_next_cons start
  have after := Cursor.rest_next_cons close
  have column : c.next.column = c.column + 1 := (Cursor.next_inline held (by decide)).2.2.2 (by decide)
  have lower (b' : Nat) (found : blocks.head? = some b') : b' ≤ b := by
    rw [block] at found
    cases found
    exact le_rfl
  have front : Clear ((bracket isMapping true).1 :: (bracket isMapping false).1 ::
      '\n' :: (List.replicate n ' ' ++ rest)) := by
    cases isMapping <;> exact clear_cons.mpr (by decide)
  have opened := Cursor.next_inline start (by cases isMapping <;> decide)
  have closed := Cursor.next_inline close (by cases isMapping <;> decide)
  refine Leads.trans (leads_token (n := 1) held front (by simp) rfl (fun b' found => ?_)
    ((takeToken_openFlow isMapping (Cursor.peek_cons start)).trans openFlow_idle)
    ⟨1, Nat.one_pos, rfl⟩) ?_
  · exact (lower b' found).trans (by rw [Cursor.skip, Cursor.skip]; omega)
  · refine Leads.trans (leads_closeFlow isMapping close ⟨opened.1, opened.2.1⟩) ?_
    have total : c.next.next.next.skip (n + 1) = c.skip (1 + (2 + (n + 1))) := by
      rw [Nat.add_comm 1, Nat.add_comm 2]
      rfl
    rw [← total, ← List.append_cons]
    refine leads_line after clear (stale_keyAt (fun b' found => ?_) ?_)
    · have le := lower b' found
      change b' < c.next.column
      omega
    · change c.next.line < c.next.next.next.line + 1
      omega

end

end Divided
end Yaml
end Consignment
