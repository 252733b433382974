import Consignment.Yaml.Dump
import Mathlib.Data.List.SplitBy

namespace Consignment
namespace Yaml

/-!
# Documents are written in printable characters

No document that is written holds a special character, whatever the value: a scalar with
one stands in double quotes, where it is escaped.  In particular no document holds a
carriage return, so that reading one as text, which takes carriage returns for line ends,
does not change it.

Writing only appends to a page, so a page stays clean when every piece that is appended
is clean; that is shown for each kind of piece, and for values by their structure.
-/

def Clean (cs : List Char) : Prop :=
  ∀ c ∈ cs, isSpecial c = false

theorem clean_nil : Clean [] := by
  intro c mem
  exact absurd mem List.not_mem_nil

theorem clean_append {first second : List Char} (one : Clean first) (two : Clean second) :
    Clean (first ++ second) := by
  intro c mem
  rcases List.mem_append.mp mem with here | there
  · exact one c here
  · exact two c there

theorem clean_cons {c : Char} {rest : List Char} (first : isSpecial c = false)
    (others : Clean rest) : Clean (c :: rest) := by
  intro d mem
  rcases List.mem_cons.mp mem with rfl | later
  · exact first
  · exact others d later

theorem clean_reverse {cs : List Char} (clean : Clean cs) : Clean cs.reverse := by
  intro c mem
  exact clean c (List.mem_reverse.mp mem)

theorem clean_of_subset {some all : List Char} (inside : some ⊆ all) (clean : Clean all) :
    Clean some := by
  intro c mem
  exact clean c (inside mem)

theorem clean_of_any {cs : List Char} (none : cs.any isSpecial = false) : Clean cs := by
  intro c mem
  have kept := List.any_eq_false.mp none c mem
  simpa using kept

/-! ## Escapes -/

theorem mem_upperHex {width n : Nat} {d : Char} (mem : d ∈ Text.upperHex width n) :
    d ∈ "0123456789ABCDEF".toList := by
  have digits : ∀ m : Fin 16, Text.upperHexDigit m.val ∈ "0123456789ABCDEF".toList := by decide
  induction width generalizing n with
  | zero => cases mem
  | succ width ih =>
    rw [Text.upperHex, Text.fixedDigits, List.mem_append, List.mem_singleton] at mem
    rcases mem with front | rfl
    · exact ih front
    · exact digits ⟨n % 16, Nat.mod_lt n (by decide)⟩

def escapeChars : List Char :=
  "\\0123456789ABCDEFLNPUabefnrtuvx\x22".toList

/-- An escape is made of letters and digits, a backslash and a quote. -/
theorem mem_escape {c d : Char} (mem : d ∈ Page.escape c) : d ∈ escapeChars := by
  have coded {letter : Char} {width n : Nat} (letters : letter ∈ escapeChars)
      (mem : d ∈ '\\' :: letter :: Text.upperHex width n) : d ∈ escapeChars := by
    rw [List.mem_cons, List.mem_cons] at mem
    rcases mem with rfl | rfl | digit
    · decide
    · exact letters
    · have hex : "0123456789ABCDEF".toList ⊆ escapeChars := by decide
      exact hex (mem_upperHex digit)
  unfold Page.escape at mem
  split at mem
  · rename_i letter found
    rcases List.lookup_eq_some_iff.mp found with ⟨before, after, table, _⟩
    have letters : ∀ entry ∈ [('\x00', '0'), ('\x07', 'a'), ('\x08', 'b'), ('\t', 't'), ('\n', 'n'),
        ('\x0b', 'v'), ('\x0c', 'f'), ('\r', 'r'), ('\x1b', 'e'), ('\x22', '\x22'), ('\\', '\\'),
        ('\x85', 'N'), ('\u2028', 'L'), ('\u2029', 'P')], entry.2 ∈ escapeChars := by decide
    have listed : (c, letter) ∈ before ++ (c, letter) :: after :=
      List.mem_append_right _ List.mem_cons_self
    rw [← table] at listed
    rw [List.mem_pair] at mem
    rcases mem with rfl | rfl
    · decide
    · exact letters _ listed
  · dsimp only at mem
    split at mem
    · exact coded (by decide) mem
    · split at mem
      · exact coded (by decide) mem
      · exact coded (by decide) mem

theorem clean_escape (c : Char) : Clean (Page.escape c) := fun d mem => by
  have none : escapeChars.any isSpecial = false := by decide
  exact clean_of_any none d (mem_escape mem)

theorem not_special_of_literal {c : Char} (literal : Page.isLiteralInDouble c = true) :
    isSpecial c = false := by
  simp only [Page.isLiteralInDouble, Bool.and_eq_true, Bool.or_eq_true, decide_eq_true_eq,
    bne_iff_ne, ne_eq] at literal
  rcases literal with ⟨⟨_, mark⟩, ascii | wide⟩
  · simp [isSpecial, ascii.1, ascii.2]
  · simp [isSpecial, wide.1, wide.2, mark]

theorem not_special_letterOfSixBits (n : Nat) : isSpecial (letterOfSixBits n) = false := by
  have letters : ('=' ::
      "ABCDEFGHIJKLMNOPQRSTUVWXYZabcdefghijklmnopqrstuvwxyz0123456789+/".toList).all
        (fun c => !isSpecial c) = true := by decide
  have plain : ∀ c ∈ '=' ::
      "ABCDEFGHIJKLMNOPQRSTUVWXYZabcdefghijklmnopqrstuvwxyz0123456789+/".toList,
      isSpecial c = false :=
    fun c mem => (Bool.not_eq_true' _).mp (List.all_eq_true.mp letters c mem)
  apply plain
  rw [letterOfSixBits, List.getD_eq_getElem?_getD]
  cases found : "ABCDEFGHIJKLMNOPQRSTUVWXYZabcdefghijklmnopqrstuvwxyz0123456789+/".toList[n]? with
  | none => exact List.mem_cons_self
  | some c => exact List.mem_cons_of_mem _ (List.mem_of_getElem? found)

theorem clean_letters (numbers : List Nat) : Clean (numbers.map letterOfSixBits) := by
  intro c mem
  rcases List.mem_map.mp mem with ⟨n, _, rfl⟩
  exact not_special_letterOfSixBits n

theorem clean_bytesText (bytes : List UInt8) : Clean (bytesText bytes) := by
  fun_induction bytesText bytes with
  | case1 a b c rest n ih => exact clean_append (clean_letters _) ih
  | case2 a b n => exact clean_append (clean_letters _) (clean_cons (by decide) clean_nil)
  | case3 a n =>
    exact clean_append (clean_letters _)
      (clean_cons (by decide) (clean_cons (by decide) clean_nil))
  | case4 => exact clean_nil

theorem clean_linesOf {cs line : List Char} {width fuel : Nat} (clean : Clean cs)
    (mem : line ∈ linesOf width fuel cs) : Clean line := by
  induction fuel generalizing cs with
  | zero => exact absurd mem List.not_mem_nil
  | succ fuel ih =>
    rw [linesOf] at mem
    split at mem
    · cases List.mem_singleton.mp mem
      exact clean
    · rcases List.mem_cons.mp mem with rfl | later
      · exact clean_of_subset (List.take_subset _ _) clean
      · exact ih (clean_of_subset (List.drop_subset _ _) clean) later

/-- A style without escapes is given to texts that need none. -/
theorem allowed_styleOf (tag : Tag) (cs : List Char) :
    match styleOf tag cs with
    | .plain | .single => Clean cs
    | .double => True
    | .literal => tag = .binary := by
  fun_cases styleOf tag cs with
  | case1 given => exact of_decide_eq_true (Bool.and_eq_true_iff.mp given).1
  | case2 _ given =>
    have plain : allowsPlain cs = true := (Bool.and_eq_true_iff.mp given).2
    simp only [allowsPlain, Bool.not_eq_true', Bool.or_eq_false_iff] at plain
    exact clean_of_any plain.1.2
  | case3 _ _ single =>
    simp only [allowsSingle, Bool.not_eq_true', Bool.or_eq_false_iff] at single
    exact clean_of_any single.1
  | case4 => trivial

/-! ## Pieces of a page -/

namespace Page

theorem clean_write {p : Page} {cs : List Char} (clean : Clean p.written) (piece : Clean cs) :
    Clean (p.write cs).written :=
  clean_append (clean_reverse piece) clean

theorem clean_endLine {p : Page} {mark : Char} (clean : Clean p.written)
    (piece : isSpecial mark = false) : Clean (p.endLine mark).written :=
  clean_cons piece clean

theorem clean_indent {p : Page} {column : Nat} (clean : Clean p.written) :
    Clean (p.indent column).written := by
  have ended : Clean (p.endLine '\n').written := clean_endLine clean (by decide)
  have blanks (n : Nat) : Clean (List.replicate n ' ') := by
    intro c mem
    cases List.eq_of_mem_replicate mem
    decide
  unfold indent
  simp only
  split <;> split
  · exact clean_write ended (blanks _)
  · exact ended
  · exact clean_write clean (blanks _)
  · exact clean

theorem clean_mark {p : Page} {mark : String} {needsBlank opens : Bool} (clean : Clean p.written)
    (piece : Clean mark.toList) : Clean (p.mark mark needsBlank opens).written := by
  unfold Page.mark
  apply clean_write clean
  apply clean_append _ piece
  split
  · exact clean_nil
  · exact clean_cons (by decide) clean_nil

theorem clean_runs {cs run : List Char} (clean : Clean cs) (mem : run ∈ runs cs) : Clean run := by
  apply clean_of_subset _ clean
  intro c inRun
  have joined : (runs cs).flatten = cs := List.flatten_splitBy _ _
  rw [← joined]
  exact List.mem_flatten_of_mem mem inRun

theorem clean_plainRuns {p : Page} {foldAt : Option Nat} {pieces : List (List Char)}
    (clean : Clean p.written) (each : ∀ run ∈ pieces, Clean run) :
    Clean (plainRuns foldAt pieces p).written := by
  induction pieces generalizing p with
  | nil => exact clean
  | cons run rest ih =>
    have others : ∀ other ∈ rest, Clean other := fun other mem =>
      each other (List.mem_cons_of_mem _ mem)
    have here : Clean (p.write run).written := clean_write clean (each run List.mem_cons_self)
    rw [plainRuns.eq_def]
    simp only
    split
    · split
      · exact ih (clean_indent clean) others
      · exact ih here others
    · exact ih here others

theorem clean_plain {p : Page} {foldAt : Option Nat} {cs : List Char} (clean : Clean p.written)
    (piece : Clean cs) : Clean (p.plain foldAt cs).written := by
  have spaced : Clean (p.write [' ']).written :=
    clean_write clean (clean_cons (by decide) clean_nil)
  unfold plain
  simp only
  split <;> split
  · exact clean
  · exact spaced
  · exact clean_plainRuns clean fun run mem => clean_runs piece mem
  · exact clean_plainRuns spaced fun run mem => clean_runs piece mem

theorem clean_lineMarks {p : Page} {column : Nat} {marks : List Char} (clean : Clean p.written)
    (piece : Clean marks) : Clean (lineMarks column marks p).written := by
  have ended (q : Page) (done : Clean q.written) : Clean (marks.foldl endLine q).written := by
    induction marks generalizing q with
    | nil => exact done
    | cons mark rest ih =>
      have first := piece mark List.mem_cons_self
      have others : Clean rest := clean_of_subset (List.subset_cons_self _ _) piece
      exact ih others (q.endLine mark) (clean_endLine done first)
  unfold lineMarks
  simp only
  apply clean_indent
  split
  · exact ended _ (clean_endLine clean (by decide))
  · exact ended _ clean

theorem clean_singleRuns {p : Page} {column : Nat} {canFold isFirst : Bool}
    {pieces : List (List Char)} (clean : Clean p.written) (each : ∀ run ∈ pieces, Clean run) :
    Clean (singleRuns column canFold isFirst pieces p).written := by
  induction pieces generalizing p isFirst with
  | nil => exact clean
  | cons run rest ih =>
    have here : Clean run := each run List.mem_cons_self
    have quoted : Clean (run.flatMap fun c => if c == '\x27' then ['\x27', '\x27'] else [c]) := by
      intro c mem
      rcases List.mem_flatMap.mp mem with ⟨d, inRun, same⟩
      split at same
      · simp only [List.mem_cons, List.not_mem_nil, or_false, or_self] at same
        subst same
        decide
      · rw [List.mem_singleton.mp same]
        exact here d inRun
    rw [singleRuns]
    apply ih _ fun other mem => each other (List.mem_cons_of_mem _ mem)
    split
    · exact clean_lineMarks clean here
    · split
      · exact clean_indent clean
      · exact clean_write clean quoted

theorem clean_single {p : Page} {column : Nat} {canFold : Bool} {cs : List Char}
    (clean : Clean p.written) (piece : Clean cs) : Clean (p.single column canFold cs).written := by
  have quote : Clean "\x27".toList := clean_cons (by decide) clean_nil
  apply clean_mark _ quote
  exact clean_singleRuns (clean_mark clean quote) fun run mem => clean_runs piece mem

theorem clean_foldDouble {p : Page} {column : Nat} {next : Char} (clean : Clean p.written) :
    Clean (foldDouble column next p).written := by
  have slash : Clean ['\\'] := clean_cons (by decide) clean_nil
  have folded : Clean ((p.write ['\\']).fold column).written :=
    clean_indent (clean_write clean slash)
  unfold foldDouble
  simp only
  split
  · exact clean_write folded slash
  · exact folded

theorem clean_doubleChars {p : Page} {column : Nat} {canFold isFirst afterEscape : Bool}
    {cs : List Char} (clean : Clean p.written) :
    Clean (doubleChars column canFold isFirst afterEscape cs p).written := by
  induction cs generalizing p isFirst afterEscape with
  | nil => exact clean
  | cons c rest ih =>
    rw [doubleChars]
    simp only
    split
    · rename_i literal
      have here := clean_cons (not_special_of_literal literal) clean_nil
      apply ih
      split
      · exact clean_write (clean_foldDouble clean) here
      · exact clean_write clean here
    · apply ih
      split
      · exact clean_foldDouble (clean_write clean (clean_escape c))
      · exact clean_write clean (clean_escape c)

theorem clean_double {p : Page} {column : Nat} {canFold : Bool} {cs : List Char}
    (clean : Clean p.written) : Clean (p.double column canFold cs).written := by
  have quote : Clean "\x22".toList := clean_cons (by decide) clean_nil
  exact clean_mark (clean_doubleChars (clean_mark clean quote)) quote

theorem clean_literal {p : Page} {column : Nat} {lines : List (List Char)}
    (clean : Clean p.written) (each : ∀ line ∈ lines, Clean line) :
    Clean (p.literal column lines).written := by
  have written (q : Page) (done : Clean q.written) : Clean
      (lines.foldl (fun p line => (p.endLine '\n').indent column |>.write line) q).written := by
    induction lines generalizing q with
    | nil => exact done
    | cons line rest ih =>
      apply ih fun other mem => each other (List.mem_cons_of_mem _ mem)
      exact clean_write (clean_indent (clean_endLine done (by decide)))
        (each line List.mem_cons_self)
  unfold literal
  apply clean_endLine _ (by decide)
  exact written _ (clean_mark clean (clean_cons (by decide) clean_nil))

theorem clean_scalar {p : Page} {indent : Option Nat} {canFold : Bool} {tag : Tag} {cs : List Char}
    (clean : Clean p.written) (bytes : tag = .binary → Clean cs) :
    Clean (p.scalar indent canFold tag cs).written := by
  have marked : Clean
      (if tag = .binary then p.mark "!!binary" true false else p).written := by
    split
    · exact clean_mark clean (clean_of_any (by decide))
    · exact clean
  have allowed := allowed_styleOf tag cs
  unfold scalar
  simp only
  cases style : styleOf tag cs with
  | plain =>
    rw [style] at allowed
    exact clean_plain clean allowed
  | single =>
    rw [style] at allowed
    exact clean_single marked allowed
  | double => exact clean_double marked
  | literal =>
    rw [style] at allowed
    exact clean_literal marked fun line mem => clean_linesOf (bytes allowed) mem

theorem clean_scalarOf {v : Value} {cs : List Char} (scalar : scalarOf? v = some (.binary, cs)) :
    Clean cs := by
  cases v <;> simp only [scalarOf?, Option.some.injEq, Prod.mk.injEq, reduceCtorEq, false_and] at scalar
  rw [← scalar.2]
  exact clean_bytesText _

/-! ## Values -/

/-- The key of an entry and its mark. -/
theorem clean_key {p : Page} {column : Nat} {key : Value} (clean : Clean p.written)
    (simple : Clean p.written → Clean (p.node (some column) true false key).written)
    (marked : Clean (p.mark "?" true true).written →
      Clean ((p.mark "?" true true).node (some column) true true key).written) :
    Clean (if isSimpleKey key then (p.node (some column) true false key).mark ":" false false
      else (((p.mark "?" true true).node (some column) true true key).indent column).mark ":"
        true true).written := by
  have colon : Clean ":".toList := clean_of_any (by decide)
  split
  · exact clean_mark (simple clean) colon
  · have question : Clean (p.mark "?" true true).written :=
      clean_mark clean (clean_of_any (by decide))
    exact clean_mark (clean_indent (marked question)) colon

/-- A page stays clean when a value is written. -/
theorem clean_node {p : Page} {indent : Option Nat} {inMapping canFold : Bool} {v : Value}
    (clean : Clean p.written) : Clean (p.node indent inMapping canFold v).written := by
  have mark {p : Page} {mark : String} {needsBlank opens : Bool}
      (piece : mark.toList.any isSpecial = false) (done : Clean p.written) :
      Clean (p.mark mark needsBlank opens).written := clean_mark done (clean_of_any piece)
  revert clean
  -- an induction over the value, its items, its entries and its members
  apply Page.node.induct
    (fun p indent inMapping canFold v =>
      Clean p.written → Clean (p.node indent inMapping canFold v).written)
    (fun p column members => Clean p.written → Clean (p.members column members).written)
    (fun p column entries => Clean p.written → Clean (p.entries column entries).written)
    (fun p column items => Clean p.written → Clean (p.items column items).written)
  case case1 =>
    intro p _ _ _ clean
    rw [node]
    exact mark (by decide) (mark (by decide) clean)
  case case2 =>
    intro p _ _ _ items some ih clean
    rw [node]
    · exact ih clean
    · exact some
  case case3 =>
    intro p _ _ _ clean
    rw [node]
    exact mark (by decide) (mark (by decide) clean)
  case case4 =>
    intro p _ _ _ entries some ih clean
    rw [node]
    · exact ih clean
    · exact some
  case case5 =>
    intro p _ _ _ clean
    rw [node]
    exact mark (by decide) (mark (by decide) (mark (by decide) clean))
  case case6 =>
    intro p _ _ _ members some ih clean
    rw [node]
    · exact ih (mark (by decide) clean)
    · exact some
  case case7 =>
    intro p _ _ _ first second column q one two clean
    rw [node]
    exact two (mark (by decide) (clean_indent (one (mark (by decide) (clean_indent clean)))))
  case case8 =>
    intro p indent inMapping canFold v list items map entries set members pair tag cs scalar clean
    have written : p.node indent inMapping canFold v = p.scalar indent canFold tag cs := by
      rw [node, scalar] <;> assumption
    rw [written]
    exact clean_scalar clean fun binary => clean_scalarOf (binary ▸ scalar)
  case case9 =>
    intro p indent inMapping canFold v list items map entries set members pair none clean
    have written : p.node indent inMapping canFold v = p := by
      rw [node, none] <;> assumption
    rw [written]
    exact clean
  case case10 =>
    intro p _ clean
    exact clean
  case case11 =>
    intro p column member rest q marked simple other ih clean
    rw [members]
    apply ih
    apply clean_scalar _ (by simp)
    exact clean_key (clean_indent clean) simple other
  case case12 =>
    intro p _ clean
    exact clean
  case case13 =>
    intro p column item rest here ih clean
    rw [items]
    exact ih (here (mark (by decide) (clean_indent clean)))
  case case14 =>
    intro p _ clean
    exact clean
  case case15 =>
    intro p column key value rest q marked simple other here ih clean
    rw [entries]
    exact ih (here (clean_key (clean_indent clean) simple other))

end Page

/-- A document holds no special character. -/
theorem clean_dump (v : Value) : Clean (dump v).toList := by
  have blank : Clean (Page.written {}) := clean_nil
  have body : Clean ((Page.node {} none false true v).indent 0).written :=
    Page.clean_indent (Page.clean_node blank)
  have ends : Clean "...".toList := clean_of_any (by decide)
  unfold dump
  simp only [Page.text]
  rw [String.toList_ofList]
  apply clean_reverse
  split
  · exact Page.clean_indent (Page.clean_mark body ends)
  · exact body

end Yaml
end Consignment
