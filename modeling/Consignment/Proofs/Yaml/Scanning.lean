import Consignment.Proofs.Yaml.Folding
import Consignment.Yaml.Token

namespace Consignment
namespace Yaml

/-!
# Reading scalars back

A scalar is read from each of the forms in which it can be written.  A reader takes a run of
characters at a time: a word, a run of spaces, or the ends of lines with the indentation after them.
So a form is divided in the same way, and the proof for each style goes by the length of what is
left of it.
-/

/-! ## The front of what is written -/

theorem isBreak_of_isLineMark {c : Char} (mark : isLineMark c = true) : isBreak c = true := by
  simp only [isLineMark, isBreak, Bool.or_eq_true, beq_iff_eq] at mark ⊢
  tauto

/-- The end of a line is no blank and no quote, and it starts no escape, no mark between documents
and no longer end of a line. -/
theorem ne_of_isLineMark {c : Char} (mark : isLineMark c = true) (other : Char)
    (taken : "\r \t\x00\x27\x22\\-.".toList.contains other = true) : c ≠ other := by
  rintro rfl
  simp only [isLineMark, Bool.or_eq_true, beq_iff_eq] at mark
  rcases mark with ((rfl | rfl) | rfl) | rfl <;> exact absurd taken (by decide)

namespace Laid

variable {column : Nat} {quotes : Bool} {cs written : List Char}

theorem head?_fed {marks : List Char} (held : marks ≠ []) (rest : List Char) :
    (fed marks ++ rest).head? = marks.head? := by
  unfold fed
  cases marks with
  | nil => exact absurd rfl held
  | cons mark marks =>
    split
    · rename_i feed
      simpa using (beq_iff_eq.mp feed).symm
    · rfl

/-- What is written begins with a character that can be seen, a space, or the end of a line. -/
theorem front (laid : Laid column quotes cs written) {c : Char} (first : written.head? = some c) :
    isSpaceOrEnd c = false ∨ c = ' ' ∨ isBreak c = true := by
  cases laid with
  | nil => cases first
  | char visible =>
    rw [head?_doubled] at first
    cases first
    exact .inl visible
  | space =>
    cases first
    exact .inr (.inl rfl)
  | fold =>
    cases first
    exact .inr (.inr (by decide))
  | @breaks marks _ _ held kept =>
    rw [head?_fed held] at first
    exact .inr (.inr (isBreak_of_isLineMark (kept c (List.mem_of_mem_head? first)).1))

/-- What begins with a character that can be seen begins with that of the text. -/
theorem head?_eq (laid : Laid column quotes cs written) (solid : Solid written) :
    written.head? = cs.head? := by
  cases laid with
  | nil => rfl
  | char => exact head?_doubled _ _ _
  | space => exact absurd rfl (solid ' ' rfl).1
  | fold => exact absurd (solid '\n' rfl).2 (by decide)
  | @breaks marks cs written held kept =>
    cases marks with
    | nil => exact absurd rfl held
    | cons mark marks =>
      have first := head?_fed held (List.replicate column ' ' ++ written)
      have ends := (solid mark first).2
      rw [isBreak_of_isLineMark (kept mark List.mem_cons_self).1] at ends
      cases ends

theorem front_of_solid (laid : Laid column quotes cs written) (solid : Solid written) {c : Char}
    (first : written.head? = some c) : isSpaceOrEnd c = false := by
  rcases laid.front first with visible | space | ends
  · exact visible
  · exact absurd space (solid c first).1
  · rw [(solid c first).2] at ends
    cases ends

/-- The longest word of some characters in front. -/
theorem word_split (test : Char → Bool)
    (alone : ∀ c, test c = true → isSpaceOrEnd c = false ∧ doubled quotes c = [c])
    (laid : Laid column quotes cs written) :
    ∃ word cs' written', cs = word ++ cs' ∧ written = word ++ written' ∧
      Laid column quotes cs' written' ∧ (∀ c ∈ word, test c = true) ∧
      ∀ c, written'.head? = some c → test c = false := by
  have stops {cs written : List Char} (laid : Laid column quotes cs written)
      (stop : ∀ c, written.head? = some c → test c = false) :
      ∃ word cs' written', cs = word ++ cs' ∧ written = word ++ written' ∧
        Laid column quotes cs' written' ∧ (∀ c ∈ word, test c = true) ∧
        ∀ c, written'.head? = some c → test c = false :=
    ⟨[], cs, written, rfl, rfl, laid, by simp, stop⟩
  have unseen {c : Char} (hidden : isSpaceOrEnd c = true) : test c = false := by
    rw [← Bool.not_eq_true]
    intro passes
    rw [(alone c passes).1] at hidden
    cases hidden
  induction laid with
  | nil => exact stops .nil (by rintro c ⟨⟩)
  | @char c cs written visible later ih =>
    by_cases passes : test c = true
    · rcases ih with ⟨word, cs', written', rfl, rfl, laid, each, stop⟩
      refine ⟨c :: word, cs', written', rfl, ?_, laid, ?_, stop⟩
      · rw [(alone c passes).2]
        rfl
      · exact List.forall_mem_cons.mpr ⟨passes, each⟩
    · refine stops (.char visible later) fun d first => ?_
      rw [head?_doubled] at first
      cases first
      simpa using passes
  | space inline later =>
    refine stops (.space inline later) fun d first => ?_
    cases first
    exact unseen (by decide)
  | fold solid later =>
    refine stops (.fold solid later) fun d first => ?_
    cases first
    exact unseen (by decide)
  | @breaks marks cs written held kept solid later =>
    have laid : Laid column quotes _ _ := .breaks held kept solid later
    refine stops laid fun d first => ?_
    rw [head?_fed held] at first
    have mark := (kept d (List.mem_of_mem_head? first)).1
    exact unseen (isSpaceOrEnd_of_isBreak (isBreak_of_isLineMark mark))

/-- The longest run of spaces in front; no end of a line comes after it. -/
theorem blank_split (laid : Laid column quotes cs written) :
    ∃ n cs' written', cs = List.replicate n ' ' ++ cs' ∧ written = List.replicate n ' ' ++ written' ∧
      Laid column quotes cs' written' ∧ written'.head? ≠ some ' ' ∧
      (0 < n → Solid written') := by
  have none {cs written : List Char} (laid : Laid column quotes cs written)
      (other : written.head? ≠ some ' ') :
      ∃ n cs' written', cs = List.replicate n ' ' ++ cs' ∧
        written = List.replicate n ' ' ++ written' ∧ Laid column quotes cs' written' ∧
        written'.head? ≠ some ' ' ∧ (0 < n → Solid written') :=
    ⟨0, cs, written, rfl, rfl, laid, other, fun positive => absurd positive (Nat.lt_irrefl 0)⟩
  induction laid with
  | nil => exact none .nil (by simp)
  | @char c cs written visible later =>
    refine none (.char visible later) fun first => ?_
    rw [head?_doubled] at first
    cases first
    cases visible
  | @space cs written inline later ih =>
    rcases ih with ⟨n, cs', written', rfl, rfl, laid, other, solid⟩
    refine ⟨n + 1, cs', written', rfl, rfl, laid, other, fun _ => ?_⟩
    cases n with
    | zero => exact fun c first => ⟨fun space => other (space ▸ first), inline c first⟩
    | succ n => exact solid (Nat.succ_pos n)
  | fold solid later => exact none (.fold solid later) (by simp)
  | @breaks marks cs written held kept solid later =>
    refine none (.breaks held kept solid later) fun first => ?_
    rw [head?_fed held] at first
    cases (kept ' ' (List.mem_of_mem_head? first)).1

end Laid

/-! ## Scalars without marks -/

/-- A plain scalar stops before a text. -/
def StopsPlain (rest : List Char) : Prop :=
  plainRun false rest = []

theorem plainRun_word {word rest : List Char} (visible : ∀ c ∈ word, isSpaceOrEnd c = false)
    (last : word.getLast? ≠ some ':') (stops : StopsPlain rest) :
    plainRun false (word ++ rest) = word := by
  induction word with
  | nil => exact stops
  | cons c word ih =>
    have here := visible c List.mem_cons_self
    have later := fun d mem => visible d (List.mem_cons_of_mem c mem)
    have goes : (c == ':' && isSpaceOrEnd ((word ++ rest).headD '\x00')) = false := by
      cases word with
      | nil =>
        have other : c ≠ ':' := by simpa using last
        simp [other]
      | cons d word => simp [later d List.mem_cons_self]
    have tail : plainRun false (word ++ rest) = word := by
      apply ih later
      cases word with
      | nil => simp
      | cons d word => simpa [List.getLast?_cons_cons] using last
    rw [List.cons_append, plainRun, tail, here, Bool.false_and, Bool.or_false, goes]
    rfl

theorem stopsPlain_blank {c : Char} {rest : List Char} (blank : isSpaceOrEnd c = true) :
    StopsPlain (c :: rest) := by
  simp [StopsPlain, plainRun, blank]

/-- The colon of a key stops a plain scalar. -/
theorem stopsPlain_colon {c : Char} {rest : List Char} (blank : isSpaceOrEnd c = true) :
    StopsPlain (':' :: c :: rest) := by
  simp [StopsPlain, plainRun, blank]

/-- At the front of a plain scalar stands nothing that could be taken for structure. -/
structure PlainFront (c : Char) (rest : List Char) : Prop where
  visible : isSpaceOrEnd c = false
  unmarked : "#,[]\x7b\x7d&*!|>\x27\x22%@\x60".toList.contains c = false
  word : ((c == '?' || c == ':' || c == '-') && isSpaceOrEnd (rest.headD '\x00')) = false

namespace PlainFront

variable {c : Char} {rest : List Char}

theorem ne (front : PlainFront c rest) (mark : Char)
    (taken : "#,[]\x7b\x7d&*!|>\x27\x22%@\x60".toList.contains mark = true) : c ≠ mark := by
  rintro rfl
  rw [front.unmarked] at taken
  cases taken

/-- A mark that is followed by a blank only where it is structure is followed by something else. -/
theorem next (front : PlainFront c rest) (mark : c = '?' ∨ c = ':' ∨ c = '-') :
    isSpaceOrEnd (rest.headD '\x00') = false := by
  have word := front.word
  rw [Bool.and_eq_false_iff] at word
  refine word.resolve_left ?_
  rcases mark with rfl | rfl | rfl <;> simp

end PlainFront

theorem plainFront_of_allowsPlain {c : Char} {rest : List Char}
    (plain : allowsPlain (c :: rest) = true) : PlainFront c rest := by
  simp only [allowsPlain, holdsStructure, isMultiline, List.any_cons, Bool.not_eq_true',
    Bool.or_eq_false_iff, beq_eq_false_iff_ne, ne_eq] at plain
  rcases plain with ⟨⟨⟨⟨first, _⟩, inline, _⟩, special, _⟩, ⟨⟨starts, _⟩, _⟩, _⟩
  have visible : isSpaceOrEnd c = false := by
    rcases kindOf_cases c with space | mark | two
    · exact absurd (congrArg some (kindOf_eq_zero.mp space)) first
    · rw [kindOf_eq_one.mp mark] at inline
      cases inline
    · exact visible_of_clean special two
  unfold startsStructure at starts
  split at starts
  · cases starts
  · cases starts
  · rename_i same
    cases same
    rcases Bool.or_eq_false_iff.mp starts with ⟨unmarked, word⟩
    exact ⟨visible, unmarked, word⟩
  · rename_i none
    cases none

theorem Laid.char_inv {column : Nat} {c : Char} {cs written : List Char}
    (laid : Laid column false (c :: cs) written) (visible : isSpaceOrEnd c = false) :
    ∃ more, written = c :: more ∧ Laid column false cs more := by
  generalize whole : c :: cs = text at laid
  cases laid with
  | nil => cases whole
  | char _ later =>
    cases whole
    exact ⟨_, rfl, later⟩
  | space =>
    cases whole
    cases visible
  | fold =>
    cases whole
    cases visible
  | @breaks marks cs written held kept =>
    cases marks with
    | nil => exact absurd rfl held
    | cons mark marks =>
      cases whole
      have ends := isBreak_of_isLineMark (kept c List.mem_cons_self).1
      rw [isSpaceOrEnd_of_isBreak ends] at visible
      cases visible

/-- Where a plain scalar is laid out, its front is that of its text. -/
theorem Laid.plainFront {column : Nat} {c : Char} {cs written : List Char}
    (laid : Laid column false (c :: cs) written) (front : PlainFront c cs) (rest : List Char) :
    ∃ more, written = c :: more ∧ PlainFront c (more ++ rest) := by
  rcases laid.char_inv front.visible with ⟨more, rfl, later⟩
  refine ⟨more, rfl, front.visible, front.unmarked, ?_⟩
  cases cs with
  | nil =>
    have alone : (c == '?' || c == ':' || c == '-') = false := by
      simpa [isSpaceOrEnd, isBreakOrEnd] using front.word
    rw [alone, Bool.false_and]
  | cons d cs =>
    rcases Bool.and_eq_false_iff.mp front.word with other | visible
    · rw [other, Bool.false_and]
    · rcases later.char_inv visible with ⟨more, rfl, _⟩
      exact front.word

/-- The rest of a plain scalar from the front of a word on. -/
structure PlainRest (cs : List Char) : Prop where
  held : cs ≠ []
  front : cs.head? ≠ some ' ' ∧ cs.head? ≠ some '#'
  back : cs.getLast? ≠ some ' ' ∧ cs.getLast? ≠ some ':'
  colons : cs.IsChain fun a b => ¬(a = ':' ∧ isSpaceOrEnd b = true)
  signs : cs.IsChain fun a b => ¬(isSpaceOrEnd a = true ∧ b = '#')
  inline : isMultiline cs = false

theorem plainRest_of_allowsPlain {cs : List Char} (plain : allowsPlain cs = true) (held : cs ≠ []) :
    PlainRest cs := by
  cases cs with
  | nil => exact absurd rfl held
  | cons c rest =>
    have begins := plainFront_of_allowsPlain plain
    simp only [allowsPlain, holdsStructure, Bool.not_eq_true', Bool.or_eq_false_iff,
      beq_eq_false_iff_ne, ne_eq] at plain
    rcases plain with ⟨⟨⟨⟨first, last⟩, inline⟩, _⟩, ⟨⟨starts, colon⟩, colons⟩, signs⟩
    rw [anyNeighbours_eq_false] at colons signs
    have sign : c ≠ '#' := by
      rintro rfl
      exact absurd begins.unmarked (by decide)
    refine ⟨held, ⟨first, by simpa using sign⟩, ⟨last, ?_⟩, ?_, ?_, inline⟩
    · cases rest with
      | nil =>
        rintro only
        cases only
        exact absurd begins.word (by decide)
      | cons d rest => simpa using colon
    · cases rest with
      | nil => simp
      | cons d rest =>
        simp only [List.drop_one, List.tail_cons] at colons
        rw [List.isChain_cons_cons]
        constructor
        · rintro ⟨rfl, blank⟩
          simpa [blank] using begins.word
        · exact colons.imp fun a b clear => by simpa using clear
    · exact signs.imp fun a b clear => by simpa using clear

/-- Past a space, a plain scalar goes on with a word. -/
theorem PlainRest.later {before cs : List Char} (text : PlainRest (before ++ ' ' :: cs))
    (front : cs.head? ≠ some ' ') : PlainRest cs := by
  have held : cs ≠ [] := by
    rintro rfl
    exact text.back.1 (by simp)
  have last : (before ++ ' ' :: cs).getLast? = cs.getLast? := by
    rw [List.getLast?_append_of_ne_nil _ (List.cons_ne_nil _ _), List.getLast?_cons_of_ne_nil held]
  have signs := (List.isChain_append.mp text.signs).2.1
  have inline := text.inline
  rw [isMultiline, List.any_append, Bool.or_eq_false_iff, List.any_cons,
    Bool.or_eq_false_iff] at inline
  refine ⟨held, ⟨front, fun sign => ?_⟩, last ▸ text.back, ?_, signs.tail, inline.2.2⟩
  · exact signs.rel_head? sign ⟨by decide, rfl⟩
  · exact (List.isChain_append.mp text.colons).2.1.tail

/-- The end of a line and the indentation of the next one, between two words of a plain scalar. -/
theorem scanPlainBreaks_blanks {n fuel : Nat} {rest : List Char} {c : Cursor}
    (held : c.rest = List.replicate n ' ' ++ rest) (solid : Solid rest) (enough : n < fuel) :
    scanPlainBreaks fuel c = (some [], c.skip n) := by
  induction n generalizing fuel c with
  | zero =>
    cases fuel with
    | zero => exact absurd enough (Nat.lt_irrefl 0)
    | succ fuel =>
      have other : c.peek ≠ ' ' := by
        cases found : rest with
        | nil =>
          rw [found] at held
          simp [Cursor.peek, held]
        | cons d rest =>
          rw [found] at held
          rw [Cursor.peek_cons held]
          exact (solid d (by rw [found]; rfl)).1
      have inline := Cursor.lineEnd_none (c := c) fun d first => by
        rw [held] at first
        exact (solid d first).2
      rw [scanPlainBreaks, if_neg (by simpa using other), inline]
      rfl
  | succ n ih =>
    cases fuel with
    | zero => exact absurd enough (Nat.not_lt_zero _)
    | succ fuel =>
      have front : c.rest = ' ' :: (List.replicate n ' ' ++ rest) := held
      have blank := Cursor.peek_cons front
      rw [scanPlainBreaks, if_pos (by simp [blank]),
        ih (Cursor.rest_next_cons held) (Nat.lt_of_succ_lt_succ enough)]
      rfl

theorem scanPlainSpaces_fold {n : Nat} {rest : List Char} {c : Cursor}
    (held : c.rest = '\n' :: (List.replicate n ' ' ++ rest)) (solid : Solid rest)
    (unmarked : c.next.atAnyMark = false) :
    scanPlainSpaces c = (some [' '], true, c.skip (n + 1)) := by
  have none : c.span (· == ' ') = ([], c) := Cursor.span_nil fun d first => by
    rw [held] at first
    cases first
    rfl
  have after : c.next.rest = List.replicate n ' ' ++ rest := Cursor.rest_next_cons held
  have enough : n < c.next.left + 1 := by
    rw [Cursor.left_eq, after, List.length_append, List.length_replicate]
    omega
  unfold scanPlainSpaces
  rw [none]
  dsimp only
  rw [Cursor.lineEnd_cons held (by decide) (by decide)]
  dsimp only
  rw [unmarked, scanPlainBreaks_blanks after solid enough, Cursor.next_eq_skip, Cursor.skip_skip,
    Nat.add_comm]
  rfl

theorem scanPlainSpaces_blanks {n : Nat} {rest : List Char} {c : Cursor}
    (held : c.rest = List.replicate n ' ' ++ rest) (solid : Solid rest) :
    scanPlainSpaces c = (some (List.replicate n ' '), false, c.skip n) := by
  have blanks : c.span (· == ' ') = (List.replicate n ' ', c.skip n) := by
    have spanned := Cursor.span_eq (· == ' ') held
      (fun d mem => by simp [List.eq_of_mem_replicate mem])
      (fun d first => by simpa using (solid d first).1)
    rwa [List.length_replicate] at spanned
  have left : (c.skip n).rest = rest := by
    simpa using Cursor.rest_skip_length held
  unfold scanPlainSpaces
  rw [blanks]
  dsimp only
  rw [Cursor.lineEnd_none fun d first => (solid d (left ▸ first)).2]

/-- A plain scalar is over where what comes next does not continue it. -/
def PlainOver (least : Nat) (next : Option (List Char) × Bool × Cursor) : Prop :=
  next.1 = none ∨ next.1 = some [] ∨ next.2.2.column < least

/-- A plain scalar is over at the end of a line if the next one is indented less.  Whether or not a
mark between documents is found there, the cursor is past the indentation. -/
theorem scanPlainSpaces_line {n least : Nat} {rest : List Char} {c : Cursor}
    (held : c.rest = '\n' :: (List.replicate n ' ' ++ rest)) (solid : Solid rest) (less : n < least) :
    (scanPlainSpaces c).2 = (true, c.skip (n + 1)) ∧ PlainOver least (scanPlainSpaces c) := by
  have after : c.next.rest = List.replicate n ' ' ++ rest := Cursor.rest_next_cons held
  by_cases marked : c.next.atAnyMark = true
  · have none : c.span (· == ' ') = ([], c) := Cursor.span_nil fun d first => by
      rw [held] at first
      cases first
      rfl
    have flush : n = 0 := by
      by_contra positive
      rw [Cursor.atAnyMark_blanks after (Nat.pos_of_ne_zero positive)] at marked
      cases marked
    have closing : scanPlainSpaces c = (.none, true, c.next) := by
      unfold scanPlainSpaces
      rw [none]
      dsimp only
      rw [Cursor.lineEnd_cons held (by decide) (by decide)]
      dsimp only
      rw [if_pos marked]
    rw [closing, flush]
    exact ⟨rfl, .inl rfl⟩
  · have indented := Cursor.column_blanks after
    rw [(Cursor.next_break held (by decide) (by decide)).1, Cursor.next_eq_skip, Cursor.skip_skip,
      Nat.add_comm 1] at indented
    rw [scanPlainSpaces_fold held solid (by simpa using marked)]
    exact ⟨rfl, .inr (.inr (by simp only [indented]; omega))⟩

/-- A plain scalar is over at the colon after it. -/
theorem scanPlainSpaces_colon {rest : List Char} {c : Cursor} (held : c.rest = ':' :: rest)
    (least : Nat) :
    (scanPlainSpaces c).2 = (false, c) ∧ PlainOver least (scanPlainSpaces c) := by
  have spaces : scanPlainSpaces c = (some [], false, c) :=
    scanPlainSpaces_blanks (n := 0) held fun d first => by
      cases first
      decide
  rw [spaces]
  exact ⟨rfl, .inr (.inl rfl)⟩

section

variable {least fuel : Nat} {before word blanks : List Char} {ended newLine : Bool} {c after : Cursor}

theorem scanPlain_end (unsigned : c.peek ≠ '#') (run : plainRun false c.rest = word)
    (held : word ≠ []) (closing : PlainOver least (scanPlainSpaces (c.skip word.length))) :
    scanPlain false least (fuel + 1) before ended c =
      (before ++ word, (scanPlainSpaces (c.skip word.length)).2) := by
  rw [scanPlain, if_neg (by simpa using unsigned), run, if_neg (by simpa using held)]
  dsimp only
  rcases next : scanPlainSpaces (c.skip word.length) with ⟨_ | blanks, newLine, after⟩
  · rfl
  · rw [next] at closing
    have stays : (blanks.isEmpty || after.peek == '#' || (!false && decide (after.column < least))) =
        true := by
      rcases closing with none | empty | less
      · cases none
      · cases empty
        rfl
      · simp [less]
    dsimp only
    rw [if_pos stays]

theorem scanPlain_next (unsigned : c.peek ≠ '#') (run : plainRun false c.rest = word)
    (held : word ≠ [])
    (gap : scanPlainSpaces (c.skip word.length) = (some blanks, newLine, after))
    (apart : blanks ≠ []) (further : after.peek ≠ '#') (reached : least ≤ after.column) :
    scanPlain false least (fuel + 1) before ended c =
      (before ++ word ++ (scanPlain false least fuel blanks newLine after).1,
        (scanPlain false least fuel blanks newLine after).2) := by
  have goes : (blanks.isEmpty || after.peek == '#' || (!false && decide (after.column < least))) =
      false := by
    simp [apart, further, reached]
  rw [scanPlain, if_neg (by simpa using unsigned), run, if_neg (by simpa using held)]
  dsimp only
  rw [gap]
  dsimp only
  rw [if_neg (ne_true_of_eq_false goes)]

end

namespace Laid

variable {column : Nat} {cs written : List Char}

/-- Where the rest of a plain scalar is laid out, a line of it goes on. -/
theorem solid_of_plainRest (laid : Laid column false cs written) (text : PlainRest cs) :
    Solid written := by
  refine laid.solid fun d first => ⟨fun space => text.front.1 (space ▸ first), ?_⟩
  simpa using List.any_eq_false.mp text.inline d (List.mem_of_mem_head? first)

theorem ne_nil_of_plainRest (laid : Laid column false cs written) (text : PlainRest cs) :
    written ≠ [] := by
  rintro rfl
  have first := laid.head?_eq (laid.solid_of_plainRest text)
  exact text.held (List.head?_eq_none_iff.mp first.symm)

theorem solid_append_of_plainRest (laid : Laid column false cs written) (text : PlainRest cs)
    (rest : List Char) : Solid (written ++ rest) := by
  intro d first
  rw [List.head?_append_of_ne_nil _ (laid.ne_nil_of_plainRest text)] at first
  exact laid.solid_of_plainRest text d first

/-- The rest of a plain scalar is not taken for a comment. -/
theorem peek_ne_sign (laid : Laid column false cs written) (text : PlainRest cs) {c : Cursor}
    {rest : List Char} (held : c.rest = written ++ rest) : c.peek ≠ '#' := by
  have first := laid.head?_eq (laid.solid_of_plainRest text)
  cases front : written with
  | nil => exact absurd front (laid.ne_nil_of_plainRest text)
  | cons d written =>
    rw [front] at first held
    rw [Cursor.peek_cons held]
    rintro rfl
    exact text.front.2 first.symm

/-- The first word of a plain scalar, and what is written after it. -/
theorem plainWord (laid : Laid column false cs written) (text : PlainRest cs) {rest : List Char}
    (stops : StopsPlain rest) :
    ∃ word cs' written', cs = word ++ cs' ∧ written = word ++ written' ∧
      Laid column false cs' written' ∧ plainRun false (written ++ rest) = word ∧ word ≠ [] ∧
      (∀ d ∈ word, isBreak d = false) ∧
      (cs' = [] ∧ written' = [] ∨ ∃ more, cs' = ' ' :: more) := by
  have solid := laid.solid_of_plainRest text
  have first := laid.head?_eq solid
  rcases laid.word_split (fun d => !isSpaceOrEnd d)
    (fun d visible => ⟨by simpa using visible, rfl⟩) with
    ⟨word, cs', written', rfl, rfl, laid', each, stop⟩
  have visible : ∀ d ∈ word, isSpaceOrEnd d = false := fun d mem => by simpa using each d mem
  have blank : ∀ d, written'.head? = some d → isSpaceOrEnd d = true := fun d after => by
    simpa using stop d after
  have heldWord : word ≠ [] := by
    rintro rfl
    cases cs' with
    | nil => exact text.held rfl
    | cons d cs' =>
      have hidden := blank d first
      rw [laid.front_of_solid solid first] at hidden
      cases hidden
  have back : cs' = [] ∧ written' = [] ∨ ∃ more, cs' = ' ' :: more := by
    cases laid' with
    | nil => exact .inl ⟨rfl, rfl⟩
    | char seen =>
      have hidden := blank _ (head?_doubled _ _ _)
      rw [seen] at hidden
      cases hidden
    | space => exact .inr ⟨_, rfl⟩
    | fold => exact .inr ⟨_, rfl⟩
    | @breaks marks cs written some kept =>
      rcases List.exists_mem_of_ne_nil marks some with ⟨mark, mem⟩
      have unmarked := List.any_eq_false.mp text.inline mark (by simp [mem])
      exact absurd (kept mark mem).1 unmarked
  refine ⟨word, cs', written', rfl, rfl, laid', ?_, heldWord, fun d mem => ?_, back⟩
  · rw [List.append_assoc]
    apply plainRun_word visible
    · intro colon
      rcases back with ⟨rfl, _⟩ | ⟨more, rfl⟩
      · exact text.back.2 (by simpa using colon)
      · exact (List.isChain_append.mp text.colons).2.2 _ colon _ rfl ⟨rfl, by decide⟩
    · cases written' with
      | nil => exact stops
      | cons d written' => exact stopsPlain_blank (blank d rfl)
  · have seen := visible d mem
    simp only [isSpaceOrEnd, isBreakOrEnd, Bool.or_eq_false_iff] at seen
    exact seen.2.2

end Laid

/-! ## From one word of a plain scalar to the next -/

/-- At a cursor a plain scalar goes on: past some characters, which stand for blanks, its text goes
on with a word, on the same line or in the column of the next one. -/
structure NextWord (column : Nat) (c : Cursor) (cs written rest : List Char) (blanks : List Char)
    (newLine : Bool) (width : Nat) (cs' written' : List Char) : Prop where
  read : scanPlainSpaces c = (some blanks, newLine, c.skip width)
  held : blanks ≠ []
  joined : cs = blanks ++ cs'
  laid : Laid column false cs' written'
  text : PlainRest cs'
  left : (c.skip width).rest = written' ++ rest
  length : written.length = width + written'.length
  reached : c.column < (c.skip width).column ∨ (c.skip width).column = column

section

variable {column : Nat} {before more written rest : List Char} {c : Cursor}
  (text : PlainRest (before ++ ' ' :: more))
include text

/-- A run of spaces on the same line. -/
theorem exists_nextWord_of_spaces (inline : ∀ d, written.head? = some d → isBreak d = false)
    (laid : Laid column false more written) (held : c.rest = ' ' :: written ++ rest) :
    ∃ blanks newLine width cs' written',
      NextWord column c (' ' :: more) (' ' :: written) rest blanks newLine width cs' written' := by
  rcases (Laid.space inline laid).blank_split with
    ⟨n, cs', written', joined, divided, laid', other, solid⟩
  rcases n with _ | n
  · rw [List.replicate_zero, List.nil_append] at divided
    exact absurd (divided ▸ rfl) other
  have front := laid'.head?_eq (solid (Nat.succ_pos n))
  have text' : PlainRest cs' := by
    rw [joined, List.replicate_succ', List.append_assoc, ← List.append_assoc] at text
    exact text.later (front ▸ other)
  rw [divided, List.append_assoc] at held
  have left := Cursor.rest_skip_length held
  have column := Cursor.column_blanks held
  rw [List.length_replicate] at left
  refine ⟨_, _, n + 1, cs', written',
    scanPlainSpaces_blanks held (laid'.solid_append_of_plainRest text' rest), by simp, joined, laid',
    text', left, ?_, .inl (by omega)⟩
  rw [divided, List.length_append, List.length_replicate]

/-- The end of the line, and the indentation of the next one. -/
theorem exists_nextWord_of_fold (positive : 0 < column) (solid : Solid written)
    (laid : Laid column false more written)
    (held : c.rest = '\n' :: (List.replicate column ' ' ++ written) ++ rest) :
    ∃ blanks newLine width cs' written', NextWord column c (' ' :: more)
      ('\n' :: (List.replicate column ' ' ++ written)) rest blanks newLine width cs' written' := by
  have text' : PlainRest more := by
    refine text.later fun space => ?_
    exact (solid ' ' ((laid.head?_eq solid).trans space)).1 rfl
  rw [List.cons_append, List.append_assoc] at held
  have line : c.next.rest = List.replicate column ' ' ++ (written ++ rest) :=
    Cursor.rest_next_cons held
  have unmarked : c.next.atAnyMark = false := Cursor.atAnyMark_blanks line positive
  have left := Cursor.rest_skip_length line
  have indented := Cursor.column_blanks line
  rw [(Cursor.next_break held (by decide) (by decide)).1, Cursor.next_eq_skip, Cursor.skip_skip,
    Nat.add_comm 1, Nat.zero_add] at indented
  rw [List.length_replicate, Cursor.next_eq_skip, Cursor.skip_skip, Nat.add_comm 1] at left
  refine ⟨_, _, column + 1, more, written,
    scanPlainSpaces_fold held (laid.solid_append_of_plainRest text' rest) unmarked, by simp, rfl,
    laid, text', left, ?_, .inr indented⟩
  rw [List.length_cons, List.length_append, List.length_replicate, Nat.add_right_comm]

theorem Laid.exists_nextWord (positive : 0 < column) (laid : Laid column false (' ' :: more) written)
    (held : c.rest = written ++ rest) :
    ∃ blanks newLine width cs' written',
      NextWord column c (' ' :: more) written rest blanks newLine width cs' written' := by
  generalize whole : ' ' :: more = cs at laid
  cases laid with
  | nil => cases whole
  | char visible =>
    cases whole
    cases visible
  | space inline later =>
    cases whole
    exact exists_nextWord_of_spaces text inline later held
  | fold solid later =>
    cases whole
    exact exists_nextWord_of_fold text positive solid later held
  | @breaks marks cs written some kept =>
    cases marks with
    | nil => exact absurd rfl some
    | cons mark marks =>
      cases whole
      cases (kept ' ' List.mem_cons_self).1

end

/-- A plain scalar is read from the lines in which it is laid out. -/
theorem scanPlain_laid {column least : Nat} (wide : least ≤ column) (positive : 0 < column)
    {cs written rest : List Char} (before : List Char) (ended : Bool) {fuel : Nat} {c : Cursor}
    (laid : Laid column false cs written) (text : PlainRest cs) (held : c.rest = written ++ rest)
    (reached : least ≤ c.column + 1) (stops : StopsPlain rest)
    (closing : PlainOver least (scanPlainSpaces (c.skip written.length)))
    (enough : written.length < fuel) :
    scanPlain false least fuel before ended c =
      (before ++ cs, (scanPlainSpaces (c.skip written.length)).2) := by
  induction fuel generalizing cs written before ended c with
  | zero => exact absurd enough (Nat.not_lt_zero _)
  | succ fuel ih =>
    have unsigned := laid.peek_ne_sign text held
    rcases laid.plainWord text stops with
      ⟨word, cs', written', rfl, rfl, laid', run, heldWord, inline, back⟩
    rw [← held] at run
    rw [List.append_assoc] at held
    have after := Cursor.rest_skip_length held
    have onLine := Cursor.column_le_skip held inline
    have positiveWord := List.length_pos_iff.mpr heldWord
    rw [List.length_append] at closing enough ⊢
    rcases back with ⟨rfl, rfl⟩ | ⟨more, rfl⟩
    · rw [List.append_nil]
      exact scanPlain_end unsigned run heldWord closing
    rcases laid'.exists_nextWord text positive after with
      ⟨blanks, newLine, width, cs'', written'', next⟩
    have further := next.laid.peek_ne_sign next.text next.left
    have total : c.skip (word.length + written'.length) =
        ((c.skip word.length).skip width).skip written''.length := by
      rw [next.length, Cursor.skip_skip, Cursor.skip_skip]
    have length := next.length
    have reached' : least ≤ ((c.skip word.length).skip width).column := by
      rcases next.reached with onward | indented <;> omega
    rw [total] at closing ⊢
    rw [scanPlain_next unsigned run heldWord next.read next.held further reached',
      ih blanks newLine next.laid next.text next.left (by omega) closing (by omega), next.joined,
      List.append_assoc]

end Yaml
end Consignment
