import Consignment.Proofs.Yaml.Scanning
import Mathlib.Algebra.Group.Nat.Defs

namespace Consignment
namespace Yaml

/-!
# Reading quoted scalars back

A scalar in quotes is read piece by piece: a word, a run of spaces, the ends of lines with the
indentation after them, or an escape.  `Stands` says of one such piece for what it stands, and the
pieces of a whole scalar follow from the way in which it is laid out.
-/

/-! ## Pieces -/

def quoteOf (double : Bool) : Char :=
  if double then '\x22' else '\x27'

/-- From a cursor on, some characters stand for some text of a quoted scalar, and it goes on. -/
def Stands (double : Bool) (c : Cursor) (text : List Char) (count : Nat) : Prop :=
  ∀ fuel, scanQuoted double (fuel + 1) c = do
    let (more, after) ← scanQuoted double fuel (c.skip count)
    return (text ++ more, after)

/-- The front of what follows can be seen. -/
def Seen (rest : List Char) : Prop :=
  ∀ d, rest.head? = some d → isSpaceOrEnd d = false

theorem Seen.solid {rest : List Char} (seen : Seen rest) : Solid rest := fun d first => by
  have visible := seen d first
  simp only [isSpaceOrEnd, isBreakOrEnd, Bool.or_eq_false_iff, beq_eq_false_iff_ne] at visible
  exact ⟨visible.1.1, visible.2.2⟩

section

variable {double : Bool} {c : Cursor} {rest : List Char}

theorem drop_blanks {n : Nat} (held : c.rest = List.replicate n ' ' ++ rest) (seen : Seen rest) :
    (c.drop fun ch => ch == ' ' || ch == '\t') = c.skip n := by
  have dropped := Cursor.drop_eq (fun ch => ch == ' ' || ch == '\t') held
    (fun d mem => by simp [List.eq_of_mem_replicate mem])
    (fun d first => by
      have visible := seen d first
      simp only [isSpaceOrEnd, Bool.or_eq_false_iff] at visible
      simp [visible])
  rwa [List.length_replicate] at dropped

/-- The indentation of a line that is not empty. -/
theorem scanQuotedBreaks_blanks {n : Nat} (fuel : Nat) (held : c.rest = List.replicate n ' ' ++ rest)
    (positive : 0 < n) (seen : Seen rest) :
    scanQuotedBreaks (fuel + 1) c = .ok ([], c.skip n) := by
  have left : (c.skip n).rest = rest := by
    simpa using Cursor.rest_skip_length held
  have inline := Cursor.lineEnd_none (c := c.skip n) fun d first =>
    (seen.solid d (left ▸ first)).2
  rw [scanQuotedBreaks, Cursor.atAnyMark_blanks held positive, drop_blanks held seen,
    if_neg Bool.false_ne_true]
  dsimp only
  rw [inline]
  rfl

/-- The end of an empty line. -/
theorem scanQuotedBreaks_mark {mark : Char} (fuel : Nat) (held : c.rest = mark :: rest)
    (marked : isLineMark mark = true) (kept : mark ≠ '\x85') :
    scanQuotedBreaks (fuel + 1) c = do
      let (more, after) ← scanQuotedBreaks fuel c.next
      return (mark :: more, after) := by
  have ne := ne_of_isLineMark marked
  have unmarked : c.atAnyMark = false := by
    apply Cursor.atAnyMark_eq_false
    rintro d first
    rw [held] at first
    cases first
    exact ⟨ne '-' (by decide), ne '.' (by decide)⟩
  have still : (c.drop fun ch => ch == ' ' || ch == '\t') = c :=
    Cursor.drop_eq _ (List.nil_append _).symm (by simp) fun d first => by
      rw [held] at first
      cases first
      simp (disch := decide) [ne]
  rw [scanQuotedBreaks, unmarked, still, if_neg Bool.false_ne_true]
  dsimp only
  rw [Cursor.lineEnd_cons held (isBreak_of_isLineMark marked) (ne '\r' (by decide)), if_neg kept]

/-- The ends of empty lines, and the indentation of the line after them. -/
theorem scanQuotedBreaks_marks (marks : List Char) {n fuel : Nat}
    (held : c.rest = marks ++ (List.replicate n ' ' ++ rest))
    (kept : ∀ mark ∈ marks, isLineMark mark = true ∧ mark ≠ '\x85') (positive : 0 < n)
    (seen : Seen rest) (enough : marks.length < fuel) :
    scanQuotedBreaks fuel c = .ok (marks, c.skip (marks.length + n)) := by
  obtain ⟨fuel, rfl⟩ : ∃ m, fuel = m + 1 := ⟨fuel - 1, by omega⟩
  induction marks generalizing fuel c with
  | nil =>
    rw [scanQuotedBreaks_blanks fuel held positive seen, List.length_nil, Nat.zero_add]
  | cons mark marks ih =>
    have enough : marks.length < fuel := Nat.lt_of_succ_lt_succ enough
    obtain ⟨fuel, rfl⟩ : ∃ m, fuel = m + 1 := ⟨fuel - 1, by omega⟩
    have here := kept mark List.mem_cons_self
    have later := ih (c := c.next) (Cursor.rest_next_cons held)
      (fun other mem => kept other (List.mem_cons_of_mem _ mem)) fuel enough
    rw [scanQuotedBreaks_mark _ held here.1 here.2, later, Cursor.next_eq_skip, Cursor.skip_skip,
      List.length_cons, Nat.add_right_comm, Nat.add_comm 1]
    rfl

/-- The closing quote. -/
theorem scanQuoted_close (double : Bool) {fuel : Nat} (held : c.rest = quoteOf double :: rest)
    (other : rest.head? ≠ some (quoteOf double)) :
    scanQuoted double (fuel + 1) c = .ok ([], c.skip 1) := by
  have next : c.peekAt 1 = rest.headD '\x00' := Cursor.peekAt_eq 1 held
  have apart : c.peekAt 1 ≠ quoteOf double := by
    rw [next]
    cases rest with
    | nil => cases double <;> decide
    | cons d rest => simpa using other
  rw [scanQuoted, Cursor.peek_cons held]
  cases double with
  | true =>
    simp [quoteOf, Cursor.next_eq_skip, pure, Except.pure]
  | false =>
    simp [quoteOf, show c.peekAt 1 ≠ '\x27' from apart, Cursor.next_eq_skip, pure, Except.pure]

/-- A quote that is written twice. -/
theorem stands_quote (held : c.rest = '\x27' :: '\x27' :: rest) : Stands false c ['\x27'] 2 := by
  intro fuel
  have next : c.peekAt 1 = '\x27' := Cursor.peekAt_eq 1 held
  rw [scanQuoted, Cursor.peek_cons held]
  simp [next]

/-- A character of a word in quotes. -/
def isWordInQuotes (double : Bool) (ch : Char) : Bool :=
  !(isSpaceOrEnd ch || ch == quoteOf double || (double && ch == '\\'))

theorem ne_nil_char {d : Char} (visible : isSpaceOrEnd d = false) : d ≠ '\x00' := by
  rintro rfl
  exact absurd visible (by decide)

/-- A word stands for itself. -/
theorem stands_word {word : List Char} (held : c.rest = word ++ rest)
    (each : ∀ d ∈ word, isWordInQuotes double d = true) (long : word ≠ [])
    (stop : ∀ d, rest.head? = some d → isWordInQuotes double d = false) :
    Stands double c word word.length := by
  intro fuel
  cases word with
  | nil => exact absurd rfl long
  | cons d word =>
    have here := each d List.mem_cons_self
    simp only [isWordInQuotes, Bool.not_eq_true', Bool.or_eq_false_iff] at here
    rcases here with ⟨⟨visible, unquoted⟩, unescaped⟩
    have spanned := Cursor.span_eq _ held each stop
    have character : (d == '\x00') = false := beq_eq_false_iff_ne.mpr (ne_nil_char visible)
    have unblank : (d == ' ' || d == '\t' || isBreak d) = false := by
      simp only [isSpaceOrEnd, isBreakOrEnd, Bool.or_eq_false_iff] at visible ⊢
      exact ⟨visible.1, visible.2.2⟩
    rw [quoteOf] at unquoted
    rw [scanQuoted, Cursor.peek_cons held]
    simp only [character, unquoted, unescaped, unblank, Bool.and_false, Bool.false_and,
      Bool.false_eq_true, if_false]
    have same : (c.span fun ch => !(isSpaceOrEnd ch || ch == (if double then '\x22' else '\x27') ||
        (double && ch == '\\'))) = (d :: word, c.skip (d :: word).length) := spanned
    rw [same]

/-- Spaces stand for themselves where the line goes on after them. -/
theorem stands_blanks (double : Bool) {n : Nat} (held : c.rest = List.replicate n ' ' ++ rest) (positive : 0 < n)
    (seen : Seen rest) (more : rest ≠ []) : Stands double c (List.replicate n ' ') n := by
  intro fuel
  have spanned := Cursor.span_eq (fun ch => ch == ' ' || ch == '\t') held
    (fun d mem => by simp [List.eq_of_mem_replicate mem])
    (fun d first => by
      have visible := seen d first
      simp only [isSpaceOrEnd, Bool.or_eq_false_iff] at visible
      simp [visible])
  have left := Cursor.rest_skip_length held
  rw [List.length_replicate] at spanned left
  have inline := Cursor.lineEnd_none (c := c.skip n) fun d first =>
    (seen.solid d (left ▸ first)).2
  have goes : ((c.skip n).peek == '\x00') = false := by
    cases rest with
    | nil => exact absurd rfl more
    | cons d rest =>
      rw [Cursor.peek_cons left]
      exact beq_eq_false_iff_ne.mpr (ne_nil_char (seen d rfl))
  obtain ⟨n, rfl⟩ : ∃ m, n = m + 1 := ⟨n - 1, by omega⟩
  have front : c.rest = ' ' :: (List.replicate n ' ' ++ rest) := held
  rw [scanQuoted, Cursor.peek_cons front]
  cases double with
  | true =>
    simp only [Bool.not_true, Bool.false_and, if_true]
    rw [if_neg (by decide), if_neg (by decide), if_neg (by decide), if_neg (by decide),
      if_pos (by decide), spanned]
    dsimp only
    rw [inline]
    dsimp only
    rw [goes]
    rfl
  | false =>
    simp only [Bool.not_false, Bool.false_and, Bool.false_eq_true, if_false]
    rw [if_neg (by decide), if_neg (by simp), if_neg (by decide), if_pos (by decide), spanned]
    dsimp only
    rw [inline]
    dsimp only
    rw [goes]
    rfl

/-- The ends of lines stand for themselves, except that the first one only ends the line: it is a
space, or nothing where further ones follow. -/
theorem stands_line (double : Bool) {mark : Char} (marks : List Char) {n : Nat}
    (held : c.rest = mark :: (marks ++ (List.replicate n ' ' ++ rest)))
    (first : isLineMark mark = true ∧ mark ≠ '\x85')
    (kept : ∀ mark ∈ marks, isLineMark mark = true ∧ mark ≠ '\x85') (positive : 0 < n)
    (seen : Seen rest) :
    Stands double c
      ((if mark != '\n' then [mark] else if marks.isEmpty then [' '] else []) ++ marks)
      (marks.length + n + 1) := by
  intro fuel
  have ends := isBreak_of_isLineMark first.1
  have ne := ne_of_isLineMark first.1
  have none : (c.span fun ch => ch == ' ' || ch == '\t') = ([], c) :=
    Cursor.span_nil fun d front => by
      rw [held] at front
      cases front
      simp (disch := decide) [ne]
  have enough : marks.length < c.left + 1 := by
    rw [Cursor.left_eq, held]
    simp
    omega
  have lines := scanQuotedBreaks_marks marks (Cursor.rest_next_cons held) kept positive seen enough
  have quote : (mark == if double then '\x22' else '\x27') = false := by
    cases double <;> simp (disch := decide) [ne]
  have character : (mark == '\x00') = false := by simp (disch := decide) [ne]
  have unescaped : (double && mark == '\\') = false := by simp (disch := decide) [ne]
  have breaks : (mark == ' ' || mark == '\t' || isBreak mark) = true := by simp [ends]
  rw [scanQuoted, Cursor.peek_cons held]
  simp only [character, quote, unescaped, breaks, Bool.and_false, Bool.false_and,
    Bool.false_eq_true, if_false, if_true, none]
  rw [Cursor.lineEnd_cons held ends (ne '\r' (by decide)), if_neg first.2]
  dsimp only
  rw [lines, Cursor.next_eq_skip, Cursor.skip_skip, Nat.add_comm 1]
  rfl

/-- Line marks are read back from the way in which they are written. -/
theorem stands_fed (double : Bool) {marks : List Char} {n : Nat} (long : marks ≠ [])
    (held : c.rest = fed marks ++ (List.replicate n ' ' ++ rest))
    (kept : ∀ mark ∈ marks, isLineMark mark = true ∧ mark ≠ '\x85') (positive : 0 < n)
    (seen : Seen rest) : Stands double c marks ((fed marks).length + n) := by
  cases marks with
  | nil => exact absurd rfl long
  | cons mark marks =>
    by_cases feed : mark = '\n'
    · subst feed
      have stands := stands_line double ('\n' :: marks) held (by decide) kept positive seen
      simpa [fed, Nat.add_right_comm] using stands
    · have unfed : fed (mark :: marks) = mark :: marks := by simp [fed, feed]
      rw [unfed] at held ⊢
      have stands := stands_line double marks held (kept mark List.mem_cons_self)
        (fun other mem => kept other (List.mem_cons_of_mem _ mem)) positive seen
      simpa [feed, Nat.add_right_comm] using stands

/-- From a cursor on, a text that is laid out in some way is over, or it begins with a piece and the
rest of it is laid out in this way. -/
inductive FirstPiece (double : Bool) (way : List Char → List Char → Prop) (c : Cursor) :
    List Char → List Char → Prop
  | nil : FirstPiece double way c [] []
  | piece {text front cs written : List Char} (stands : Stands double c text front.length)
      (long : front ≠ []) (later : way cs written) :
    FirstPiece double way c (text ++ cs) (front ++ written)

/-- A scalar is read up to its closing quote if whatever is left of it begins with a piece. -/
theorem scanQuoted_pieces {way : List Char → List Char → Prop}
    (first : ∀ {cs written : List Char} {c : Cursor}, way cs written →
      c.rest = written ++ quoteOf double :: rest → FirstPiece double way c cs written)
    (other : rest.head? ≠ some (quoteOf double)) {cs written : List Char} (fuel : Nat)
    (laid : way cs written) (held : c.rest = written ++ quoteOf double :: rest)
    (enough : written.length < fuel) :
    scanQuoted double fuel c = .ok (cs, c.skip (written.length + 1)) := by
  induction fuel generalizing cs written c with
  | zero => exact absurd enough (Nat.not_lt_zero _)
  | succ fuel ih =>
    cases first laid held with
    | nil => exact scanQuoted_close double held other
    | @piece text front cs written stands long later =>
      have positiveFront := List.length_pos_iff.mpr long
      rw [List.append_assoc] at held
      rw [List.length_append] at enough ⊢
      have goes := ih later (Cursor.rest_skip_length held) (by omega)
      rw [stands fuel, goes, Cursor.skip_skip, Nat.add_assoc]
      rfl

end

/-- What is left after the longest run of some characters does not begin with one of them. -/
theorem ne_nil_of_stop {test : Char → Bool} {run written : List Char} {d : Char}
    (first : (run ++ written).head? = some d) (passes : test d = true)
    (stop : ∀ e, written.head? = some e → test e = false) : run ≠ [] := by
  rintro rfl
  have stopped := stop d first
  rw [passes] at stopped
  cases stopped

/-- What comes after a solid front of what is written, or after all of it. -/
theorem Laid.seen {column : Nat} {quotes : Bool} {cs written rest : List Char} {quote : Char}
    (laid : Laid column quotes cs written) (solid : Solid written)
    (visible : isSpaceOrEnd quote = false) : Seen (written ++ quote :: rest) := by
  intro d first
  cases written with
  | nil =>
    cases first
    exact visible
  | cons e written => exact laid.front_of_solid solid first

/-! ## Scalars in single quotes -/

section

variable {column : Nat} {cs written rest : List Char} {c : Cursor}

/-- A character that can be seen is at the front of a word, or it is a quote. -/
theorem firstPiece_char {d : Char} (visible : isSpaceOrEnd d = false)
    (later : Laid column true cs written)
    (held : c.rest = doubled true d ++ written ++ '\x27' :: rest) :
    FirstPiece false (Laid column true) c (d :: cs) (doubled true d ++ written) := by
  by_cases quote : d = '\x27'
  · subst quote
    have stands : Stands false c ['\x27'] (doubled true '\x27').length := stands_quote held
    exact .piece stands (by decide) later
  · have passes : isWordInQuotes false d = true := by
      simp [isWordInQuotes, visible, quoteOf, quote]
    have alone : ∀ e, isWordInQuotes false e = true →
        isSpaceOrEnd e = false ∧ doubled true e = [e] := by
      intro e word
      simp only [isWordInQuotes, Bool.not_eq_true', Bool.or_eq_false_iff] at word
      exact ⟨word.1.1, if_neg (by simpa [quoteOf] using word.1.2)⟩
    rcases (Laid.char visible later).word_split (isWordInQuotes false) alone with
      ⟨word, cs', written', joined, divided, laid, each, stop⟩
    have long : word ≠ [] := ne_nil_of_stop (divided ▸ head?_doubled true d written) passes stop
    rw [divided, List.append_assoc] at held
    rw [joined, divided]
    refine .piece (stands_word held each long fun e first => ?_) long laid
    cases written' with
    | nil =>
      cases first
      decide
    | cons f written' => exact stop e first

theorem firstPiece_space (inline : ∀ d, written.head? = some d → isBreak d = false)
    (later : Laid column true cs written) (held : c.rest = ' ' :: written ++ '\x27' :: rest) :
    FirstPiece false (Laid column true) c (' ' :: cs) (' ' :: written) := by
  rcases (Laid.space inline later).blank_split with
    ⟨n, cs', written', joined, divided, laid, apart, solid⟩
  rcases n with _ | n
  · rw [List.replicate_zero, List.nil_append] at divided
    exact absurd (divided ▸ rfl) apart
  rw [divided, List.append_assoc] at held
  have stands := stands_blanks false held (Nat.succ_pos n)
    (laid.seen (solid (Nat.succ_pos n)) (by decide)) (by simp)
  rw [joined, divided]
  exact .piece (by rwa [List.length_replicate]) (by simp) laid

theorem Laid.firstPiece (positive : 0 < column) (laid : Laid column true cs written)
    (held : c.rest = written ++ '\x27' :: rest) : FirstPiece false (Laid column true) c cs written := by
  have quote : isSpaceOrEnd '\x27' = false := by decide
  cases laid with
  | nil => exact .nil
  | char visible later => exact firstPiece_char visible later held
  | space inline later => exact firstPiece_space inline later held
  | @fold cs written solid later =>
    rw [List.cons_append, List.append_assoc] at held
    have stands := stands_line false [] held (by decide) (by simp) positive (later.seen solid quote)
    have line : Stands false c [' '] ('\n' :: List.replicate column ' ').length := by
      simpa using stands
    exact .piece line (by simp) later
  | @breaks marks cs written long kept solid later =>
    rw [List.append_assoc, List.append_assoc] at held
    have stands := stands_fed false long held kept positive (later.seen solid quote)
    have lines : Stands false c marks (fed marks ++ List.replicate column ' ').length := by
      simpa using stands
    rw [← List.append_assoc]
    exact .piece lines (by simp [positive.ne']) later

end

/-- A scalar in single quotes is read from the lines in which it is laid out. -/
theorem scanQuoted_laid {column : Nat} (positive : 0 < column) {cs written rest : List Char}
    (fuel : Nat) {c : Cursor} (laid : Laid column true cs written)
    (held : c.rest = written ++ '\x27' :: rest) (other : rest.head? ≠ some '\x27')
    (enough : written.length < fuel) :
    scanQuoted false fuel c = .ok (cs, c.skip (written.length + 1)) :=
  scanQuoted_pieces (fun laid held => laid.firstPiece positive held) other fuel laid held enough

/-! ## Escapes -/

theorem upperHex_digits (width n : Nat) :
    ∃ digits, (Text.upperHex width n).filterMap Text.hexDigit? = digits ∧ digits.length = width ∧
      digits.foldl (fun n d => n * 16 + d) 0 = n % 16 ^ width := by
  have each : ∀ m : Fin 16, Text.hexDigit? (Text.upperHexDigit m.val) = some m.val := by decide
  induction width generalizing n with
  | zero => exact ⟨[], rfl, rfl, by simp [Nat.mod_one]⟩
  | succ width ih =>
    rcases ih (n / 16) with ⟨digits, read, long, number⟩
    have last := each ⟨n % 16, Nat.mod_lt _ (by decide)⟩
    refine ⟨digits ++ [n % 16], ?_, by simp [long], ?_⟩
    · rw [Text.upperHex] at read ⊢
      rw [Text.fixedDigits, List.filterMap_append, read, List.filterMap_cons, last]
      rfl
    · rw [List.foldl_append, number, List.foldl_cons, List.foldl_nil, Nat.pow_succ',
        Nat.mod_mul, Nat.mul_comm, Nat.add_comm]

theorem escapes_of_letter {c letter : Char} (stands : Page.escapeLetter? c = some letter) :
    escapes.lookup letter = some c := by
  unfold Page.escapeLetter? at stands
  rcases List.lookup_eq_some_iff.mp stands with ⟨before, after, table, _⟩
  have mem : (c, letter) ∈ before ++ (c, letter) :: after := by simp
  rw [← table] at mem
  have each : ∀ entry ∈ [('\x00', '0'), ('\x07', 'a'), ('\x08', 'b'), ('\t', 't'), ('\n', 'n'),
      ('\x0b', 'v'), ('\x0c', 'f'), ('\r', 'r'), ('\x1b', 'e'), ('\x22', '\x22'), ('\\', '\\'),
      ('\x85', 'N'), ('\u2028', 'L'), ('\u2029', 'P')], escapes.lookup entry.2 = some entry.1 := by
    decide
  exact each _ mem

section

variable {c : Cursor} {rest : List Char}

/-- A letter after a backslash. -/
theorem stands_letter {letter d : Char} (held : c.rest = '\\' :: letter :: rest)
    (stands : escapes.lookup letter = some d) : Stands true c [d] 2 := by
  intro fuel
  have after := Cursor.rest_next_cons held
  rw [scanQuoted, Cursor.peek_cons held]
  rw [if_neg (by decide), if_neg (by simp), if_neg (by decide), if_pos (by decide)]
  dsimp only
  rw [Cursor.peek_cons after, stands]
  dsimp only
  rw [after, if_neg (by simp)]
  rfl

theorem toNat_lt (d : Char) : d.toNat < 0x110000 := by
  have valid : Nat.isValidChar d.toNat := d.valid
  unfold Nat.isValidChar at valid
  omega

/-- The code of a character after a backslash and a letter. -/
theorem stands_code {letter d : Char} {width : Nat} (bound : d.toNat < 16 ^ width)
    (held : c.rest = '\\' :: letter :: (Text.upperHex width d.toNat ++ rest))
    (coded : escapes.lookup letter = none ∧ escapeWidth? letter = some width) :
    Stands true c [d] (width + 2) := by
  intro fuel
  have after := Cursor.rest_next_cons held
  have digits := Cursor.rest_next_cons after
  have length : (Text.upperHex width d.toNat).length = width := Text.length_fixedDigits _ _ _ _
  have taken : c.next.next.rest.take width = Text.upperHex width d.toNat := by
    rw [digits, List.take_append_of_le_length length.ge, List.take_of_length_le length.le]
  rcases upperHex_digits width d.toNat with ⟨values, read, long, number⟩
  rw [Nat.mod_eq_of_lt bound] at number
  have small : ¬ 0x110000 ≤ d.toNat := not_le.mpr (toNat_lt d)
  have valid : Nat.isValidChar d.toNat := d.valid
  rw [scanQuoted, Cursor.peek_cons held]
  rw [if_neg (by decide), if_neg (by simp), if_neg (by decide), if_pos (by decide)]
  dsimp only
  rw [Cursor.peek_cons after, coded.1, coded.2]
  dsimp only
  rw [taken, read, if_pos long, number, if_neg small, if_pos valid, Char.ofNat_toNat]
  rw [Cursor.next_eq_skip, Cursor.next_eq_skip, Cursor.skip_skip, Cursor.skip_skip, ← Nat.add_assoc, Nat.add_comm]

theorem stands_escape {d : Char} (held : c.rest = Page.escape d ++ rest) :
    Stands true c [d] (Page.escape d).length := by
  unfold Page.escape at held ⊢
  cases letter : Page.escapeLetter? d with
  | some letter =>
    rw [letter] at held
    exact stands_letter held (escapes_of_letter letter)
  | none =>
    rw [letter] at held
    have coded {letter : Char} {width : Nat} (bound : d.toNat < 16 ^ width)
        (held : c.rest = '\\' :: letter :: (Text.upperHex width d.toNat ++ rest))
        (coded : escapes.lookup letter = none ∧ escapeWidth? letter = some width) :
        Stands true c [d] ('\\' :: letter :: Text.upperHex width d.toNat).length := by
      rw [List.length_cons, List.length_cons, Text.upperHex, Text.length_fixedDigits]
      exact stands_code bound held coded
    have bound := toNat_lt d
    dsimp only at held ⊢
    split
    · rename_i small
      rw [if_pos small] at held
      exact coded (by omega) held (by decide)
    · rename_i large
      rw [if_neg large] at held
      split
      · rename_i small
        rw [if_pos small] at held
        exact coded (by omega) held (by decide)
      · rename_i large
        rw [if_neg large] at held
        exact coded (by omega) held (by decide)

/-- An escaped end of a line, with the indentation of the next one. -/
theorem stands_escapedLine {n : Nat} (held : c.rest = '\\' :: '\n' :: (List.replicate n ' ' ++ rest))
    (positive : 0 < n) (seen : Seen rest) : Stands true c [] (n + 2) := by
  intro fuel
  have after := Cursor.rest_next_cons held
  have lines : scanQuotedBreaks (c.left + 1) c.next.next = .ok ([], c.next.next.skip (0 + n)) :=
    scanQuotedBreaks_marks [] (Cursor.rest_next_cons after) (by simp) positive seen (Nat.succ_pos _)
  rw [scanQuoted, Cursor.peek_cons held]
  rw [if_neg (by decide), if_neg (by simp), if_neg (by decide), if_pos (by decide)]
  dsimp only
  have unread : escapes.lookup '\n' = none ∧ escapeWidth? '\n' = none := by decide
  rw [Cursor.peek_cons after, unread.1, unread.2]
  dsimp only
  rw [Cursor.lineEnd_cons after (by decide) (by decide)]
  dsimp only
  rw [lines, Cursor.next_eq_skip, Cursor.next_eq_skip, Cursor.skip_skip, Cursor.skip_skip,
    show 1 + (1 + (0 + n)) = n + 2 by omega]
  rfl

end

/-! ## Scalars in double quotes -/

namespace Page

theorem isLiteralInDouble_cases {d : Char} (literal : isLiteralInDouble d = true) :
    d = ' ' ∨ isWordInQuotes true d = true := by
  by_cases space : d = ' '
  · exact .inl space
  simp only [isLiteralInDouble, Bool.and_eq_true, bne_iff_ne] at literal
  have ne (e : Char) (special : isLiteralInDouble e = false) : d ≠ e := by
    rintro rfl
    simp [isLiteralInDouble, literal] at special
  refine .inr ?_
  simp [isWordInQuotes, isSpaceOrEnd, isBreakOrEnd, isBreak, quoteOf, space, ne '\t' (by decide),
    ne '\x00' (by decide), ne '\n' (by decide), ne '\r' (by decide), ne '\x85' (by decide),
    ne '\u2028' (by decide), ne '\u2029' (by decide), ne '\x22' (by decide), ne '\\' (by decide)]

namespace Escaped

variable {column : Nat} {cs written : List Char}

theorem front (escaped : Escaped column cs written) {d : Char} (first : written.head? = some d) :
    isLiteralInDouble d = true ∨ d = '\\' := by
  cases escaped with
  | nil => cases first
  | @char e cs written later =>
    unfold inDouble at first
    split at first
    · rename_i literal
      cases first
      exact .inl literal
    · rw [List.head?_append, head?_escape] at first
      cases first
      exact .inr rfl
  | space | fold =>
    cases first
    exact .inr rfl

/-- The longest run of some characters in front that stand for themselves. -/
theorem split (test : Char → Bool) (alone : ∀ d, test d = true → isLiteralInDouble d = true)
    (escaped : Escaped column cs written) :
    ∃ run cs' written', cs = run ++ cs' ∧ written = run ++ written' ∧
      Escaped column cs' written' ∧ (∀ d ∈ run, test d = true) ∧
      ∀ d, written'.head? = some d → test d = false := by
  have stops {cs written : List Char} (escaped : Escaped column cs written)
      (stop : ∀ d, written.head? = some d → test d = false) :
      ∃ run cs' written', cs = run ++ cs' ∧ written = run ++ written' ∧
        Escaped column cs' written' ∧ (∀ d ∈ run, test d = true) ∧
        ∀ d, written'.head? = some d → test d = false :=
    ⟨[], cs, written, rfl, rfl, escaped, by simp, stop⟩
  have backslash : test '\\' = false := by
    rw [← Bool.not_eq_true]
    exact fun passes => absurd (alone _ passes) (by decide)
  induction escaped with
  | nil => exact stops .nil (by rintro d ⟨⟩)
  | @char d cs written later ih =>
    by_cases passes : test d = true
    · rcases ih with ⟨run, cs', written', rfl, rfl, escaped, each, stop⟩
      have literal : inDouble d = [d] := if_pos (alone d passes)
      refine ⟨d :: run, cs', written', rfl, by rw [literal]; rfl, escaped, ?_, stop⟩
      exact List.forall_mem_cons.mpr ⟨passes, each⟩
    · refine stops (.char later) fun e first => ?_
      unfold inDouble at first
      split at first
      · cases first
        simpa using passes
      · rw [List.head?_append, head?_escape] at first
        cases first
        exact backslash
  | space later =>
    refine stops (.space later) fun e first => ?_
    cases first
    exact backslash
  | fold apart later =>
    refine stops (.fold apart later) fun e first => ?_
    cases first
    exact backslash

theorem seen (escaped : Escaped column cs written) (apart : written.head? ≠ some ' ')
    (rest : List Char) : Seen (written ++ '\x22' :: rest) := by
  intro d first
  cases written with
  | nil =>
    cases first
    decide
  | cons e written =>
    rcases escaped.front first with literal | rfl
    · rcases isLiteralInDouble_cases literal with space | word
      · exact absurd (space ▸ first) apart
      · simp only [isWordInQuotes, Bool.not_eq_true', Bool.or_eq_false_iff] at word
        exact word.1.1
    · decide

variable {rest : List Char} {c : Cursor}

theorem firstPiece_spaces (escaped : Escaped column cs written) (first : written.head? = some ' ')
    (held : c.rest = written ++ '\x22' :: rest) : FirstPiece true (Escaped column) c cs written := by
  rcases escaped.split (· == ' ') (by simp; decide) with
    ⟨run, cs', written', rfl, rfl, later, each, stop⟩
  have long : run ≠ [] := ne_nil_of_stop first (by decide) stop
  have blanks : run = List.replicate run.length ' ' :=
    List.eq_replicate_of_mem fun d mem => by simpa using each d mem
  have seen := later.seen (fun space => absurd (stop _ space) (by decide)) rest
  rw [List.append_assoc, blanks] at held
  have stands := stands_blanks true held (List.length_pos_iff.mpr long) seen (by simp)
  rw [← blanks] at stands
  exact .piece stands long later

theorem firstPiece_word (escaped : Escaped column cs written) {d : Char}
    (first : written.head? = some d) (literal : isLiteralInDouble d = true)
    (word : isWordInQuotes true d = true) (held : c.rest = written ++ '\x22' :: rest) :
    FirstPiece true (Escaped column) c cs written := by
  rcases escaped.split (fun e => isLiteralInDouble e && isWordInQuotes true e)
    (fun e both => (Bool.and_eq_true_iff.mp both).1) with
    ⟨run, cs', written', rfl, rfl, later, each, stop⟩
  have long : run ≠ [] := ne_nil_of_stop first (by rw [literal, word]; rfl) stop
  rw [List.append_assoc] at held
  have inside : ∀ e ∈ run, isWordInQuotes true e = true :=
    fun e mem => (Bool.and_eq_true_iff.mp (each e mem)).2
  refine .piece (stands_word held inside long fun e next => ?_) long later
  cases written' with
  | nil =>
    cases next
    decide
  | cons f written' =>
    have stopped := stop e next
    rcases later.front next with literal | rfl
    · simpa [literal] using stopped
    · decide

theorem firstPiece (positive : 0 < column) (escaped : Escaped column cs written)
    (held : c.rest = written ++ '\x22' :: rest) : FirstPiece true (Escaped column) c cs written := by
  have whole := escaped
  cases escaped with
  | nil => exact .nil
  | @char d cs written later =>
    by_cases literal : isLiteralInDouble d = true
    · have first : (inDouble d ++ written).head? = some d := by
        rw [inDouble, if_pos literal]
        rfl
      rcases isLiteralInDouble_cases literal with rfl | word
      · exact whole.firstPiece_spaces first held
      · exact whole.firstPiece_word first literal word held
    · have escapes : inDouble d = escape d := if_neg literal
      rw [escapes, List.append_assoc] at held
      rw [escapes]
      have stands : Stands true c [d] (escape d).length := stands_escape held
      refine .piece stands (fun none => ?_) later
      have first := head?_escape d
      rw [none] at first
      cases first
  | @space cs written later =>
    have stands : Stands true c [' '] ['\\', ' '].length := stands_letter held (by decide)
    exact .piece stands (by simp) later
  | @fold cs written apart later =>
    rw [List.cons_append, List.cons_append, List.append_assoc] at held
    have stands := stands_escapedLine held positive (later.seen apart rest)
    have line : Stands true c [] ('\\' :: '\n' :: List.replicate column ' ').length := by
      simpa using stands
    exact .piece line (by simp) later

end Escaped
end Page

/-- A scalar in double quotes is read from the lines in which it is laid out. -/
theorem scanQuoted_escaped {column : Nat} (positive : 0 < column) {cs written rest : List Char}
    (fuel : Nat) {c : Cursor} (escaped : Page.Escaped column cs written)
    (held : c.rest = written ++ '\x22' :: rest) (other : rest.head? ≠ some '\x22')
    (enough : written.length < fuel) :
    scanQuoted true fuel c = .ok (cs, c.skip (written.length + 1)) :=
  scanQuoted_pieces (fun escaped held => escaped.firstPiece positive held) other fuel escaped held enough

end Yaml
end Consignment
