import Consignment.Proofs.Yaml.Cursor
import Consignment.Proofs.Yaml.Printable

namespace Consignment
namespace Yaml

/-!
# The lines of a scalar

A scalar may go on in further lines, and where it does depends on the column that its text has
reached.  Reading it back does not need to know where: it is enough that the text was laid out in
one of the permitted ways.  `Laid` gives these ways for scalars without marks and in single quotes,
`Escaped` for those in double quotes, and the functions that write scalars are shown to take one of
them.

A text is written piece by piece: runs of spaces, of line marks, and of other characters.
-/

/-! ## Pieces -/

/-- The kind of a character by which a text is divided: a space, a line mark, or another. -/
def kindOf (c : Char) : Nat :=
  if c == ' ' then 0 else if isLineMark c then 1 else 2

theorem kindOf_eq_zero {c : Char} : kindOf c = 0 ↔ c = ' ' := by
  unfold kindOf
  split
  · simp_all
  · split <;> simp_all

theorem kindOf_eq_one {c : Char} : kindOf c = 1 ↔ isLineMark c = true := by
  unfold kindOf
  split
  · rename_i space
    rw [beq_iff_eq.mp space]
    decide
  · split <;> simp_all

theorem kindOf_cases (c : Char) : kindOf c = 0 ∨ kindOf c = 1 ∨ kindOf c = 2 := by
  unfold kindOf
  split
  · exact .inl rfl
  · split
    · exact .inr (.inl rfl)
    · exact .inr (.inr rfl)

theorem eq_replicate_of_spaces {run : List Char} (spaces : ∀ c ∈ run, kindOf c = 0) :
    run = List.replicate run.length ' ' :=
  List.eq_replicate_of_mem fun c mem => kindOf_eq_zero.mp (spaces c mem)

/-- A text as its runs of characters of one kind. -/
inductive Pieces : List Char → Prop
  | nil : Pieces []
  | run (kind : Nat) {run rest : List Char} (held : run ≠ []) (same : ∀ c ∈ run, kindOf c = kind)
      (other : ∀ c, rest.head? = some c → kindOf c ≠ kind) (later : Pieces rest) :
    Pieces (run ++ rest)

theorem pieces (cs : List Char) : Pieces cs := by
  induction length : cs.length using Nat.strong_induction_on generalizing cs with
  | _ n ih =>
    cases cs with
    | nil => exact .nil
    | cons c cs =>
      have whole := List.takeWhile_append_dropWhile (p := (kindOf · == kindOf c)) (l := c :: cs)
      have front : c ∈ (c :: cs).takeWhile (kindOf · == kindOf c) := by simp
      have shorter : ((c :: cs).dropWhile (kindOf · == kindOf c)).length < n := by
        have lengths := congrArg List.length whole
        have held := List.length_pos_of_mem front
        rw [List.length_append] at lengths
        omega
      rw [← whole]
      refine .run (kindOf c) (List.ne_nil_of_mem front) (fun d mem => ?_)
        (fun d first => ?_) (ih _ shorter _ rfl)
      · exact beq_iff_eq.mp (List.mem_takeWhile_imp (p := (kindOf · == kindOf c)) mem)
      · have stopped := List.head?_dropWhile_not (kindOf · == kindOf c) (c :: cs)
        rw [first] at stopped
        simpa using stopped

theorem runs_run {kind : Nat} {run rest : List Char} (held : run ≠ [])
    (same : ∀ c ∈ run, kindOf c = kind) (other : ∀ c, rest.head? = some c → kindOf c ≠ kind) :
    Page.runs (run ++ rest) = run :: Page.runs rest := by
  have divided (cs : List Char) : Page.runs cs = cs.splitBy fun a b => kindOf a == kindOf b := rfl
  have chain : run.IsChain fun a b => (kindOf a == kindOf b) = true := by
    apply List.Pairwise.isChain
    exact List.pairwise_of_forall_mem_list fun a here b there => by
      simp [same a here, same b there]
  rw [divided, divided, List.splitBy_append, List.splitBy_of_isChain held chain]
  · rfl
  · intro a last b first
    have differ := other b first
    rw [same a (List.mem_of_getLast? last)]
    simp [Ne.symm differ]

theorem anyNeighbours_eq_false {test : Char → Char → Bool} {cs : List Char} :
    anyNeighbours test cs = false ↔ cs.IsChain fun a b => test a b = false := by
  induction cs with
  | nil => simp [anyNeighbours]
  | cons a cs ih =>
    cases cs with
    | nil => simp [anyNeighbours]
    | cons b rest => rw [anyNeighbours, Bool.or_eq_false_iff, ih, List.isChain_cons_cons]

/-! ## Ways to lay out a text -/

/-- The front of a line is no space and no end of a line. -/
def Solid (cs : List Char) : Prop :=
  ∀ c, cs.head? = some c → c ≠ ' ' ∧ isBreak c = false

/-- A character as it is written; in quotes a quote is written twice. -/
def doubled (quotes : Bool) (c : Char) : List Char :=
  if quotes && c == '\x27' then [c, c] else [c]

theorem flatMap_doubled_false (cs : List Char) : cs.flatMap (doubled false) = cs :=
  List.flatMap_singleton' cs

/-- The line marks of a text as they are written.  A line feed that comes first is written twice,
because a single one is folded. -/
def fed (marks : List Char) : List Char :=
  if marks.head? == some '\n' then '\n' :: marks else marks

/-- The ways to lay out a text in lines of an indentation. -/
inductive Laid (column : Nat) (quotes : Bool) : List Char → List Char → Prop
  | nil : Laid column quotes [] []
  | char {c : Char} {cs written : List Char} (visible : isSpaceOrEnd c = false)
      (later : Laid column quotes cs written) :
    Laid column quotes (c :: cs) (doubled quotes c ++ written)
  | space {cs written : List Char} (inline : ∀ c, written.head? = some c → isBreak c = false)
      (later : Laid column quotes cs written) : Laid column quotes (' ' :: cs) (' ' :: written)
  | fold {cs written : List Char} (solid : Solid written) (later : Laid column quotes cs written) :
    Laid column quotes (' ' :: cs) ('\n' :: (List.replicate column ' ' ++ written))
  | breaks {marks cs written : List Char} (held : marks ≠ [])
      (kept : ∀ c ∈ marks, isLineMark c = true ∧ c ≠ '\x85') (solid : Solid written)
      (later : Laid column quotes cs written) :
    Laid column quotes (marks ++ cs) (fed marks ++ (List.replicate column ' ' ++ written))

namespace Laid

variable {column : Nat} {quotes : Bool} {cs written : List Char}

theorem solid (laid : Laid column quotes cs written)
    (front : ∀ c, cs.head? = some c → c ≠ ' ' ∧ isLineMark c = false) : Solid written := by
  cases laid with
  | nil => rintro c ⟨⟩
  | @char c cs written visible later =>
    intro d first
    have same : d = c := by
      unfold doubled at first
      split at first <;> simpa using first.symm
    subst same
    have blank := (front d rfl).1
    simp only [isSpaceOrEnd, isBreakOrEnd, Bool.or_eq_false_iff] at visible
    exact ⟨blank, visible.2.2⟩
  | space => exact absurd rfl (front ' ' rfl).1
  | fold => exact absurd rfl (front ' ' rfl).1
  | @breaks marks cs written held kept =>
    cases marks with
    | nil => exact absurd rfl held
    | cons mark marks =>
      have visible := (front mark rfl).2
      rw [(kept mark List.mem_cons_self).1] at visible
      cases visible

theorem spaces (inline : ∀ c, written.head? = some c → isBreak c = false)
    (laid : Laid column quotes cs written) (n : Nat) :
    Laid column quotes (List.replicate n ' ' ++ cs) (List.replicate n ' ' ++ written) := by
  induction n with
  | zero => exact laid
  | succ n ih =>
    rw [List.replicate_succ, List.cons_append, List.cons_append]
    refine .space (fun c first => ?_) ih
    cases n with
    | zero => exact inline c first
    | succ n =>
      cases first
      decide

theorem word (run : List Char) (visible : ∀ c ∈ run, isSpaceOrEnd c = false)
    (laid : Laid column quotes cs written) :
    Laid column quotes (run ++ cs) (run.flatMap (doubled quotes) ++ written) := by
  induction run with
  | nil => exact laid
  | cons c run ih =>
    rw [List.flatMap_cons, List.append_assoc]
    exact .char (visible c List.mem_cons_self) (ih fun d mem => visible d (List.mem_cons_of_mem _ mem))

end Laid

/-- A character that is written as it is, and is neither a space nor a line mark, can be seen. -/
theorem visible_of_clean {c : Char} (clean : isSpecial c = false) (kind : kindOf c = 2) :
    isSpaceOrEnd c = false := by
  have notSpace : c ≠ ' ' := fun same => by simp [kindOf_eq_zero.mpr same] at kind
  have notMark : isLineMark c = false := by
    rw [← Bool.not_eq_true, ← kindOf_eq_one, kind]
    decide
  have ne (d : Char) (special : isSpecial d = true) : c ≠ d := by
    rintro rfl
    rw [clean] at special
    cases special
  simp only [isLineMark, Bool.or_eq_false_iff, beq_eq_false_iff_ne] at notMark
  simp [isSpaceOrEnd, isBreakOrEnd, isBreak, notSpace, notMark, ne '\t' (by decide),
    ne '\x00' (by decide), ne '\r' (by decide)]

/-- A run of characters of one kind, which is not that of line marks, is laid out in one line. -/
theorem Laid.run {column kind : Nat} {quotes : Bool} {cs written run : List Char} (held : run ≠ [])
    (same : ∀ c ∈ run, kindOf c = kind) (unmarked : kind ≠ 1) (clean : Clean run)
    (solid : kind = 0 → Solid written) (laid : Laid column quotes cs written) :
    Laid column quotes (run ++ cs) (run.flatMap (doubled quotes) ++ written) := by
  rcases List.exists_mem_of_ne_nil run held with ⟨c, mem⟩
  have kinds : kind = 0 ∨ kind = 1 ∨ kind = 2 := same c mem ▸ kindOf_cases c
  rcases kinds with space | mark | visible
  · have blanks := eq_replicate_of_spaces fun d inRun => (same d inRun).trans space
    have single : (List.replicate run.length ' ').flatMap (doubled quotes) =
        List.replicate run.length ' ' := by
      rw [List.flatMap_replicate]
      simp [doubled]
    rw [blanks, single]
    exact laid.spaces (fun d first => (solid space d first).2) _
  · exact absurd mark unmarked
  · exact laid.word run fun d inRun => visible_of_clean (clean d inRun) ((same d inRun).trans visible)

theorem isBreak_eq_false_of_clean {c : Char} (clean : isSpecial c = false)
    (inline : isLineMark c = false) : isBreak c = false := by
  by_cases space : c = ' '
  · subst space
    decide
  · have kind : kindOf c = 2 := by
      rcases kindOf_cases c with zero | one | two
      · exact absurd (kindOf_eq_zero.mp zero) space
      · rw [kindOf_eq_one.mp one] at inline
        cases inline
      · exact two
    have visible := visible_of_clean clean kind
    simp only [isSpaceOrEnd, isBreakOrEnd, Bool.or_eq_false_iff] at visible
    exact visible.2.2

theorem head?_doubled (quotes : Bool) (c : Char) (rest : List Char) :
    (doubled quotes c ++ rest).head? = some c := by
  unfold doubled
  split <;> rfl

/-- A text without line marks is laid out in one line. -/
theorem laid_inline (column : Nat) (quotes : Bool) {cs : List Char} (clean : Clean cs)
    (inline : isMultiline cs = false) : Laid column quotes cs (cs.flatMap (doubled quotes)) := by
  induction cs with
  | nil => exact .nil
  | cons c cs ih =>
    rw [isMultiline, List.any_cons, Bool.or_eq_false_iff] at inline
    have cleanRest : Clean cs := clean_of_subset (List.subset_cons_self _ _) clean
    have later := ih cleanRest inline.2
    rw [List.flatMap_cons]
    rcases kindOf_cases c with space | mark | visible
    · rw [kindOf_eq_zero.mp space]
      have alone : doubled quotes ' ' = [' '] := by
        unfold doubled
        rw [if_neg (by simp)]
      rw [alone, List.singleton_append]
      refine .space (fun d first => ?_) later
      cases cs with
      | nil => cases first
      | cons e rest =>
        rw [List.flatMap_cons, head?_doubled] at first
        cases first
        exact isBreak_eq_false_of_clean (cleanRest d List.mem_cons_self)
          (by simpa using List.any_eq_false.mp inline.2 d List.mem_cons_self)
    · rw [kindOf_eq_one.mp mark] at inline
      cases inline.1
    · exact .char (visible_of_clean (clean c List.mem_cons_self) visible) later

namespace Page

variable {p : Page} {column : Nat}

/-- Outside the indentation of its line, the page goes on in the next one. -/
theorem indent_outside (outside : p.inIndent = false ∨ column < p.column) :
    p.indent column =
      { p with
        written := List.replicate column ' ' ++ '\n' :: p.written
        column := column
        afterBlank := true
        inIndent := true } := by
  have ends : (!p.inIndent || decide (column < p.column) ||
      (decide (p.column = column) && !p.afterBlank)) = true := by
    rcases outside with outside | outside <;> simp [outside]
  unfold indent
  dsimp only
  rw [if_pos ends]
  cases column with
  | zero => rfl
  | succ column => simp [endLine, write]

/-- Inside the indentation of its line, the page goes on in the same one. -/
theorem indent_inside (inside : p.inIndent = true)
    (before : p.column < column ∨ p.column = column ∧ p.afterBlank = true) :
    p.indent column =
      { p with
        written := List.replicate (column - p.column) ' ' ++ p.written
        column := column
        afterBlank := true } := by
  have stays : (!p.inIndent || decide (column < p.column) ||
      (decide (p.column = column) && !p.afterBlank)) = false := by
    rcases before with before | ⟨same, blank⟩
    · simp [inside, Nat.not_lt.mpr before.le, before.ne]
    · simp [inside, same, blank]
  unfold indent
  dsimp only
  rw [if_neg (ne_true_of_eq_false stays)]
  rcases before with before | ⟨same, blank⟩
  · rw [if_pos before]
    simp [write, Nat.add_sub_cancel' before.le]
  · rw [if_neg (by omega), same, Nat.sub_self]
    cases p
    cases same
    cases blank
    rfl

theorem fold_outside (outside : p.inIndent = false) :
    p.fold column =
      { p with
        written := List.replicate column ' ' ++ '\n' :: p.written
        column := column
        afterBlank := false
        inIndent := false } := by
  rw [fold, indent_outside (.inl outside)]

/-! ## Scalars without marks and in single quotes -/

/-- A text without line marks is laid out. -/
theorem plainRuns_laid (column : Nat) {cs : List Char} (divided : Pieces cs) (clean : Clean cs)
    (inline : isMultiline cs = false) {p : Page} (outside : p.inIndent = false) :
    ∃ written, Laid column false cs written ∧
      (plainRuns (some column) (runs cs) p).written = written.reverse ++ p.written ∧
      (plainRuns (some column) (runs cs) p).inIndent = false ∧
      (plainRuns (some column) (runs cs) p).openEnded = p.openEnded := by
  induction divided generalizing p with
  | nil => exact ⟨[], .nil, rfl, outside, rfl⟩
  | @run kind run rest held same other later ih =>
    have cleanRest : Clean rest := clean_of_subset (List.subset_append_right _ _) clean
    rw [isMultiline, List.any_append, Bool.or_eq_false_iff] at inline
    have solid {written : List Char} (laid : Laid column false rest written) (spaces : kind = 0) :
        Solid written := laid.solid fun c first => by
      refine ⟨fun space => other c first ?_, ?_⟩
      · rw [spaces, kindOf_eq_zero, space]
      · exact by simpa using List.any_eq_false.mp inline.2 c (List.mem_of_mem_head? first)
    rw [runs_run held same other, plainRuns]
    split
    · -- a single space becomes the end of a line
      rename_i folds
      have single : run = [' '] := beq_iff_eq.mp (Bool.and_eq_true_iff.mp folds).1
      have spaces : kind = 0 := by
        rw [← same ' ' (by simp [single])]
        rfl
      have next := ih cleanRest inline.2 (p := p.fold column) rfl
      rw [fold_outside outside] at next ⊢
      rcases next with ⟨written, laid, adds, ends⟩
      refine ⟨'\n' :: (List.replicate column ' ' ++ written), ?_, ?_, ends⟩
      · rw [single]
        exact .fold (solid laid spaces) laid
      · rw [adds]
        simp
    · rcases ih cleanRest inline.2 (p := p.write run) outside with ⟨written, laid, adds, ends⟩
      refine ⟨run ++ written, ?_, by rw [adds]; simp [write], ends⟩
      have unmarked : kind ≠ 1 := by
        rintro rfl
        rcases List.exists_mem_of_ne_nil run held with ⟨c, mem⟩
        exact List.any_eq_false.mp inline.1 c mem (kindOf_eq_one.mp (same c mem))
      have cleanRun : Clean run := clean_of_subset (List.subset_append_left _ _) clean
      have line := laid.run held same unmarked cleanRun (solid laid)
      rwa [flatMap_doubled_false] at line

/-- A text without folding is written as it is. -/
theorem plainRuns_none (pieces : List (List Char)) (p : Page) :
    plainRuns none pieces p = p.write pieces.flatten := by
  induction pieces generalizing p with
  | nil => simp [plainRuns, write]
  | cons run rest ih =>
    rw [plainRuns, ih]
    simp [write, Nat.add_assoc]

/-- A page on which a text in single quotes can go on: it is outside the indentation of its line, or
no space comes next. -/
def Ready (p : Page) (column : Nat) (cs : List Char) : Prop :=
  p.inIndent = false ∨ column < p.column ∨ column ≤ p.column ∧ cs.head? ≠ some ' '

theorem lineMarks_eq {marks : List Char} (held : marks ≠ []) (p : Page) :
    lineMarks column marks p =
      { p with
        written := List.replicate column ' ' ++ (fed marks).reverse ++ p.written
        column := column
        afterBlank := true
        inIndent := true } := by
  have ended (marks : List Char) (held : marks ≠ []) (p : Page) : marks.foldl endLine p =
      { p with
        written := marks.reverse ++ p.written
        column := 0
        afterBlank := true
        inIndent := true } := by
    induction marks generalizing p with
    | nil => exact absurd rfl held
    | cons mark rest ih =>
      rw [List.foldl_cons]
      cases rest with
      | nil => rfl
      | cons next rest =>
        rw [ih (List.cons_ne_nil _ _)]
        simp [endLine]
  unfold lineMarks
  dsimp only
  rw [ended marks held, indent_inside rfl]
  · unfold fed
    split <;> simp [endLine]
  · cases column with
    | zero => exact .inr ⟨rfl, rfl⟩
    | succ column => exact .inl (Nat.succ_pos column)

theorem Ready.written {p : Page} {run rest : List Char} (ready : p.Ready column (run ++ rest))
    (held : run ≠ []) (put : List Char) (longer : run.length ≤ put.length) :
    (p.write put).Ready column rest := by
  have positive := List.length_pos_iff.mpr held
  rcases ready with outside | beyond | ⟨reached, _⟩
  · exact .inl outside
  · exact .inr (.inl (by simp only [write]; omega))
  · exact .inr (.inl (by simp only [write]; omega))

theorem length_le_doubled (cs : List Char) : cs.length ≤ (cs.flatMap (doubled true)).length := by
  induction cs with
  | nil => exact le_rfl
  | cons c cs ih =>
    rw [List.flatMap_cons, List.length_append, List.length_cons]
    have one : 1 ≤ (doubled true c).length := by
      unfold doubled
      split <;> simp
    omega

theorem doubled_true : (fun c => if c == '\x27' then ['\x27', '\x27'] else [c]) = doubled true := by
  funext c
  unfold doubled
  by_cases quote : c = '\x27'
  · subst quote
    rfl
  · simp [quote]

section

variable {kind : Nat} {run rest : List Char} (held : run ≠ []) (same : ∀ c ∈ run, kindOf c = kind)
  (single : allowsSingle (run ++ rest) = true)
include held same single

/-- In a text for single quotes, spaces and line marks are not side by side. -/
theorem apart_of_allowsSingle {d : Char} (first : rest.head? = some d) :
    ¬ (kind = 1 ∧ d = ' ') ∧ ¬ (kind = 0 ∧ isLineMark d = true) := by
  rw [allowsSingle, Bool.not_eq_true', Bool.or_eq_false_iff, anyNeighbours_eq_false,
    List.isChain_append] at single
  have clash := single.2.2.2 _ (List.getLast?_eq_some_getLast held) d first
  have last := same _ (List.getLast_mem held)
  simp only [Bool.or_eq_false_iff, Bool.and_eq_false_iff, beq_eq_false_iff_ne] at clash
  constructor
  · rintro ⟨rfl, rfl⟩
    rcases clash.1 with unmarked | differs
    · rw [kindOf_eq_one.mp last] at unmarked
      cases unmarked
    · exact differs rfl
  · rintro ⟨rfl, mark⟩
    rcases clash.2 with differs | unmarked
    · exact differs (kindOf_eq_zero.mp last)
    · rw [mark] at unmarked
      cases unmarked

/-- What is written after a run of spaces or of line marks can be the front of a line. -/
theorem solid_of_allowsSingle (other : ∀ d, rest.head? = some d → kindOf d ≠ kind)
    {written : List Char} (laid : Laid column true rest written) (blanks : kind = 0 ∨ kind = 1) :
    Solid written := by
  refine laid.solid fun d first => ?_
  rcases apart_of_allowsSingle held same single first with ⟨unspaced, unmarked⟩
  rcases blanks with rfl | rfl
  · refine ⟨fun space => other d first (kindOf_eq_zero.mpr space), ?_⟩
    rw [← Bool.not_eq_true]
    exact fun mark => unmarked ⟨rfl, mark⟩
  · refine ⟨fun space => unspaced ⟨rfl, space⟩, ?_⟩
    rw [← Bool.not_eq_true, ← kindOf_eq_one]
    exact other d first

end

theorem allowsSingle_append {run rest : List Char} (single : allowsSingle (run ++ rest) = true) :
    Clean run ∧ allowsSingle rest = true := by
  rw [allowsSingle, Bool.not_eq_true', Bool.or_eq_false_iff, anyNeighbours_eq_false,
    List.any_append, Bool.or_eq_false_iff, List.isChain_append] at single
  rcases single with ⟨⟨clean, cleanRest⟩, _, chain, _⟩
  exact ⟨clean_of_any clean, by simp [allowsSingle, cleanRest, anyNeighbours_eq_false.mpr chain]⟩

/-- A text whose spaces are apart from its line marks is laid out in single quotes. -/
theorem singleRuns_laid {cs : List Char} (divided : Pieces cs) (single : allowsSingle cs = true)
    (kept : '\x85' ∉ cs) (canFold isFirst : Bool) {p : Page} (ready : p.Ready column cs) :
    ∃ written, Laid column true cs written ∧
      (singleRuns column canFold isFirst (runs cs) p).written = written.reverse ++ p.written := by
  induction divided generalizing p isFirst with
  | nil => exact ⟨[], .nil, rfl⟩
  | @run kind run rest held same other later ih =>
    rcases allowsSingle_append single with ⟨clean, again⟩
    have keptRest : '\x85' ∉ rest := fun mem => kept (List.mem_append_right _ mem)
    have solid {written : List Char} (laid : Laid column true rest written) :=
      solid_of_allowsSingle held same single other laid
    rw [runs_run held same other, singleRuns, doubled_true]
    split
    · -- line marks, and the indentation of the line after them
      rename_i marked
      rcases List.any_eq_true.mp marked with ⟨c, mem, mark⟩
      have marks : kind = 1 := (same c mem).symm.trans (kindOf_eq_one.mpr mark)
      rw [lineMarks_eq held]
      have next : Ready { p with
          written := List.replicate column ' ' ++ (fed run).reverse ++ p.written
          column := column, afterBlank := true, inIndent := true } column rest :=
        .inr (.inr ⟨le_rfl, fun first =>
          (apart_of_allowsSingle held same single first).1 ⟨marks, rfl⟩⟩)
      rcases ih again keptRest false next with ⟨written, laid, adds⟩
      refine ⟨fed run ++ (List.replicate column ' ' ++ written), .breaks held ?_
        (solid laid (.inr marks)) laid, by rw [adds]; simp⟩
      intro d inRun
      refine ⟨kindOf_eq_one.mp ((same d inRun).trans marks), ?_⟩
      rintro rfl
      exact kept (List.mem_append_left _ inRun)
    rename_i inline
    split
    · -- a single space becomes the end of a line
      rename_i folds
      simp only [Bool.and_eq_true, beq_iff_eq] at folds
      obtain rfl := folds.1.1.1.1
      have spaces : kind = 0 := (same ' ' (List.mem_singleton_self _)).symm
      have outside : p.inIndent = false ∨ column < p.column := by
        rcases ready with outside | beyond | ⟨_, other⟩
        · exact .inl outside
        · exact .inr beyond
        · exact absurd rfl other
      rw [indent_outside outside]
      have next : Ready { p with
          written := List.replicate column ' ' ++ '\n' :: p.written
          column := column, afterBlank := true, inIndent := true } column rest :=
        .inr (.inr ⟨le_rfl, fun first => other ' ' first spaces.symm⟩)
      rcases ih again keptRest false next with ⟨written, laid, adds⟩
      exact ⟨'\n' :: (List.replicate column ' ' ++ written), .fold (solid laid (.inl spaces)) laid,
        by rw [adds]; simp⟩
    · have next := ready.written held _ (length_le_doubled run)
      rcases ih again keptRest false next with ⟨written, laid, adds⟩
      have unmarked : kind ≠ 1 := by
        rintro rfl
        rcases List.exists_mem_of_ne_nil run held with ⟨c, mem⟩
        exact inline (List.any_eq_true.mpr ⟨c, mem, kindOf_eq_one.mp (same c mem)⟩)
      exact ⟨run.flatMap (doubled true) ++ written,
        laid.run held same unmarked clean fun spaces => solid laid (.inl spaces),
        by rw [adds]; simp [write]⟩

theorem singleRuns_inline {pieces : List (List Char)} {isFirst : Bool} {p : Page}
    (inline : isMultiline pieces.flatten = false) :
    singleRuns column false isFirst pieces p = p.write (pieces.flatten.flatMap (doubled true)) := by
  induction pieces generalizing p isFirst with
  | nil => simp [singleRuns, write]
  | cons run rest ih =>
    rw [List.flatten_cons, isMultiline, List.any_append, Bool.or_eq_false_iff] at inline
    rw [singleRuns, if_neg (by simp [inline.1]), if_neg (by simp), ih inline.2, doubled_true]
    simp [write, Nat.add_assoc]

/-! ## Scalars in double quotes -/

/-- A character as it is written in double quotes. -/
def inDouble (c : Char) : List Char :=
  if isLiteralInDouble c then [c] else escape c

theorem head?_escape (c : Char) : (escape c).head? = some '\\' := by
  unfold escape
  split
  · rfl
  · dsimp only
    split
    · rfl
    · split <;> rfl

/-- The ways to lay out a text in double quotes.  An end of a line is escaped, and a space at the
front of the next line has to be escaped as well. -/
inductive Escaped (column : Nat) : List Char → List Char → Prop
  | nil : Escaped column [] []
  | char {c : Char} {cs written : List Char} (later : Escaped column cs written) :
    Escaped column (c :: cs) (inDouble c ++ written)
  | space {cs written : List Char} (later : Escaped column cs written) :
    Escaped column (' ' :: cs) ('\\' :: ' ' :: written)
  | fold {cs written : List Char} (apart : written.head? ≠ some ' ')
      (later : Escaped column cs written) :
    Escaped column cs ('\\' :: '\n' :: (List.replicate column ' ' ++ written))

theorem Escaped.head?_ne {c : Char} {cs written : List Char}
    (escaped : Escaped column (c :: cs) written) (other : c ≠ ' ') :
    written.head? ≠ some ' ' := by
  cases escaped with
  | char later =>
    unfold inDouble
    split
    · simpa using other
    · rw [List.head?_append, head?_escape]
      simp
  | space => simp
  | fold => simp

/-- No escaped character stands before a space; the last character of the text does not count. -/
def SpacesApart (cs : List Char) : Prop :=
  anyNeighbours (fun a b => !isLiteralInDouble a && b == ' ') cs.dropLast = false

theorem SpacesApart.tail {c : Char} {cs : List Char} (apart : SpacesApart (c :: cs)) :
    SpacesApart cs := by
  unfold SpacesApart at apart ⊢
  cases cs with
  | nil => rfl
  | cons d rest =>
    rw [List.dropLast_cons_cons, anyNeighbours_eq_false] at apart
    rw [anyNeighbours_eq_false]
    exact apart.tail

/-- A text that can be folded at a column without harm: either the column leaves room for one more
character, or no escaped character stands before a space.  The first character is never folded. -/
def Foldable (column : Nat) (isFirst : Bool) (cs : List Char) : Prop :=
  column < lineWidth ∨ SpacesApart (if isFirst then cs.drop 1 else cs)

theorem Foldable.tail {isFirst : Bool} {c : Char} {cs : List Char}
    (foldable : Foldable column isFirst (c :: cs)) : Foldable column false cs := by
  refine foldable.imp_right fun apart => ?_
  cases isFirst with
  | true => exact apart
  | false => exact apart.tail

theorem foldDouble_eq (column : Nat) (next : Char) (outside : p.inIndent = false) :
    foldDouble column next p =
      { p with
        written := (if next = ' ' then ['\\'] else []) ++
          (List.replicate column ' ' ++ '\n' :: '\\' :: p.written)
        column := column + if next = ' ' then 1 else 0
        afterBlank := false
        inIndent := false } := by
  have folded : (p.write ['\\']).fold column = _ := fold_outside outside
  rw [foldDouble, folded]
  by_cases space : next = ' '
  · simp [space, write]
  · simp [space, write]

/-- After an escaped character, a space can be folded without harm. -/
theorem Foldable.room {c : Char} {cs : List Char} (foldable : Foldable column false (c :: ' ' :: cs))
    (special : ¬ isLiteralInDouble c = true) : column < lineWidth ∨ cs = [] := by
  refine foldable.imp_right fun apart => ?_
  cases cs with
  | nil => rfl
  | cons d cs => simp [SpacesApart, anyNeighbours, special] at apart

/-- Between two pages, a text is written as it can be laid out in double quotes. -/
def WritesDouble (column : Nat) (cs : List Char) (p after : Page) : Prop :=
  ∃ written, Escaped column cs written ∧ after.written = written.reverse ++ p.written

namespace WritesDouble

variable {c : Char} {cs : List Char} {after : Page}

theorem char (later : WritesDouble column cs (p.write (inDouble c)) after) :
    WritesDouble column (c :: cs) p after := by
  rcases later with ⟨written, escaped, adds⟩
  refine ⟨_, .char escaped, ?_⟩
  rw [adds]
  simp [write]

/-- The line ends before a text that does not begin with a space. -/
theorem fold (outside : p.inIndent = false) (other : c ≠ ' ')
    (later : WritesDouble column (c :: cs) (foldDouble column c p) after) :
    WritesDouble column (c :: cs) p after := by
  rcases later with ⟨written, escaped, adds⟩
  refine ⟨_, .fold (escaped.head?_ne other) escaped, ?_⟩
  rw [adds, foldDouble_eq column c outside]
  simp [other]

/-- The line ends before a space, which is escaped. -/
theorem foldSpace (outside : p.inIndent = false)
    (later : WritesDouble column cs ((foldDouble column ' ' p).write [' ']) after) :
    WritesDouble column (' ' :: cs) p after := by
  rcases later with ⟨written, escaped, adds⟩
  refine ⟨_, .fold (by simp) (.space escaped), ?_⟩
  rw [adds, foldDouble_eq column ' ' outside]
  simp [write]

end WritesDouble

theorem inIndent_foldDouble (column : Nat) (next : Char) (outside : p.inIndent = false) :
    (foldDouble column next p).inIndent = false := by
  rw [foldDouble_eq column next outside]

/-- A space does not end the line where the column leaves room for it, or where it is the last. -/
theorem doubleChars_space {canFold isFirst afterEscape : Bool} {cs : List Char}
    (room : p.column ≤ lineWidth ∨ cs = []) :
    doubleChars column canFold isFirst afterEscape (' ' :: cs) p =
      doubleChars column canFold false false cs (p.write [' ']) := by
  have stays : (canFold && !isFirst && !cs.isEmpty && (' ' == ' ' || afterEscape) &&
      decide (lineWidth < p.column)) = false := by
    rcases room with narrow | rfl
    · rw [decide_eq_false (Nat.not_lt.mpr narrow), Bool.and_false]
    · simp
  rw [doubleChars]
  dsimp only
  rw [if_pos (by decide), if_neg (ne_true_of_eq_false stays)]

theorem doubleChars_escaped {cs : List Char} {canFold isFirst : Bool} (afterEscape : Bool) {p : Page}
    (foldable : canFold = true → Foldable column isFirst cs) (outside : p.inIndent = false) :
    WritesDouble column cs p (doubleChars column canFold isFirst afterEscape cs p) := by
  induction length : cs.length using Nat.strong_induction_on
    generalizing cs isFirst afterEscape p with
  | _ n ih =>
    cases cs with
    | nil => exact ⟨[], .nil, rfl⟩
    | cons c rest =>
      have next (afterEscape : Bool) {p : Page} (outside : p.inIndent = false) :=
        ih rest.length (by rw [← length]; exact Nat.lt_succ_self _) afterEscape
          (fun folds => (foldable folds).tail) outside rfl
      rw [doubleChars]
      dsimp only
      split
      · rename_i literal
        have alone : inDouble c = [c] := if_pos literal
        split
        · -- the line ends before the character
          have goes := next false (p := (foldDouble column c p).write [c])
            (inIndent_foldDouble column c outside)
          by_cases space : c = ' '
          · subst space
            exact .foldSpace outside goes
          · exact .fold outside space (.char (alone ▸ goes))
        · exact .char (alone ▸ next false outside)
      · rename_i special
        have escapes : inDouble c = escape c := if_neg special
        have after : (p.write (escape c)).inIndent = false := outside
        refine .char ?_
        rw [escapes]
        split
        · -- the line ends after the character
          rename_i folds
          simp only [Bool.and_eq_true, Bool.not_eq_true', List.isEmpty_eq_false_iff] at folds
          rcases folds with ⟨⟨⟨can, rfl⟩, more⟩, _⟩
          cases rest with
          | nil => exact absurd rfl more
          | cons d rest =>
            rw [List.headD_cons]
            have outsideNext := inIndent_foldDouble column d after
            by_cases space : d = ' '
            · -- the space after it is escaped, and does not end the line once more
              subst space
              have room : (foldDouble column ' ' (p.write (escape c))).column ≤ lineWidth ∨
                  rest = [] := by
                rw [foldDouble_eq column ' ' after]
                exact (foldable can).room special
              rw [doubleChars_space room]
              refine .foldSpace after (ih rest.length ?_ false
                (fun folds => (foldable folds).tail.tail) outsideNext rfl)
              rw [← length, List.length_cons, List.length_cons]
              omega
            · exact .fold after space (next true outsideNext)
        · exact next true outside

theorem doubleChars_inline {isFirst afterEscape : Bool} {cs : List Char} {p : Page} :
    doubleChars column false isFirst afterEscape cs p = p.write (cs.flatMap inDouble) := by
  induction cs generalizing p isFirst afterEscape with
  | nil => simp [doubleChars, write]
  | cons c cs ih =>
    rw [doubleChars]
    by_cases literal : isLiteralInDouble c = true
    · simp [literal, ih, write, inDouble, Nat.add_assoc, Nat.add_comm]
    · simp [literal, ih, write, inDouble, Nat.add_assoc]

/-! ## Scalars -/

/-- The blank before a scalar or a mark, where one is needed. -/
def blankBefore (p : Page) : List Char :=
  if p.afterBlank then [] else [' ']

/-- A scalar of some style, as it can be written. -/
inductive Formed (column : Nat) (cs : List Char) : Style → List Char → Prop
  | plain {written : List Char} (laid : Laid column false cs written) :
    Formed column cs .plain written
  | single {written : List Char} (laid : Laid column true cs written) :
    Formed column cs .single ('\x27' :: (written ++ ['\x27']))
  | double {written : List Char} (escaped : Escaped column cs written) :
    Formed column cs .double ('\x22' :: (written ++ ['\x22']))

/-- The condition under which a scalar comes back from its lines.  In single quotes there is no way
to write a next-line character so that it comes back. -/
def Keeps (column : Nat) (canFold : Bool) : Style → List Char → Prop
  | .single, cs => '\x85' ∉ cs
  | .double, cs => canFold = true → Foldable column true cs
  | .plain, _ | .literal, _ => True

theorem written_mark {mark : String} {needsBlank opens : Bool} :
    (p.mark mark needsBlank opens).written =
      mark.toList.reverse ++ ((if needsBlank then p.blankBefore else []) ++ p.written) := by
  unfold Page.mark blankBefore
  cases p.afterBlank <;> cases needsBlank <;> simp [write]

theorem plain_eq {foldAt : Option Nat} {cs : List Char} (held : cs ≠ []) :
    p.plain foldAt cs = plainRuns foldAt (runs cs)
      { p.write p.blankBefore with afterBlank := false, inIndent := false } := by
  unfold Page.plain blankBefore
  rw [if_neg (by simpa using held)]
  cases blank : p.afterBlank <;> simp [held, write]

/-- A scalar as it is written where it cannot be folded. -/
def unfolded (style : Style) (cs : List Char) : List Char :=
  match style with
  | .plain => cs
  | .single => '\x27' :: (cs.flatMap (doubled true) ++ ['\x27'])
  | .double => '\x22' :: (cs.flatMap inDouble ++ ['\x22'])
  | .literal => []

/-- What a scalar that is written adds to a page. -/
structure Adds (p : Page) (form : List Char) (after : Page) : Prop where
  written : after.written = form.reverse ++ (p.blankBefore ++ p.written)
  inIndent : after.inIndent = false
  openEnded : p.openEnded = false → after.openEnded = false

theorem plain_adds {foldAt : Option Nat} {cs : List Char} (plain : allowsPlain cs = true)
    (held : cs ≠ []) (given : foldAt = none ∨ foldAt = some column) :
    ∃ form, Formed column cs .plain form ∧ p.Adds form (p.plain foldAt cs) ∧
      (foldAt = none → form = cs) := by
  simp only [allowsPlain, Bool.not_eq_true', Bool.or_eq_false_iff] at plain
  rcases plain with ⟨⟨⟨_, inline⟩, special⟩, _⟩
  have clean := clean_of_any special
  have starts (blank : List Char) : (blank = p.blankBefore) → blank.reverse = blank := by
    rintro rfl
    unfold blankBefore
    split <;> rfl
  rw [plain_eq held]
  rcases given with rfl | rfl
  · have joined : (runs cs).flatten = cs := List.flatten_splitBy _ _
    rw [plainRuns_none, joined]
    refine ⟨cs, .plain ?_, ⟨?_, rfl, id⟩, fun _ => rfl⟩
    · have laid := laid_inline column false clean inline
      rwa [flatMap_doubled_false] at laid
    · simp [write, starts _ rfl]
  · rcases plainRuns_laid column (pieces cs) clean inline
      (p := { p.write p.blankBefore with afterBlank := false, inIndent := false }) rfl with
      ⟨form, laid, adds, outside, ended⟩
    refine ⟨form, .plain laid, ⟨?_, outside, fun closed => ended.trans closed⟩, by simp⟩
    rw [adds]
    simp [write, starts _ rfl]

theorem single_adds {canFold : Bool} {cs : List Char} (single : allowsSingle cs = true)
    (kept : '\x85' ∉ cs) :
    ∃ form, Formed column cs .single form ∧ p.Adds form (p.single column canFold cs) ∧
      (canFold = false → isMultiline cs = false → form = unfolded .single cs) := by
  have ready : (p.mark "\x27" true false).Ready column cs := .inl (by simp [Page.mark])
  rcases singleRuns_laid (pieces cs) single kept canFold true ready with ⟨written, laid, adds⟩
  refine ⟨_, .single laid, ⟨?_, by simp [Page.single, Page.mark],
    fun _ => rfl⟩, fun still inline => ?_⟩
  · rw [Page.single, written_mark, adds, written_mark]
    simp
  · have joined : (runs cs).flatten = cs := List.flatten_splitBy _ _
    subst still
    rw [singleRuns_inline (by rwa [joined]), joined] at adds
    have same : cs.flatMap (doubled true) = written := by simpa [write] using adds
    rw [unfolded, same]

theorem double_adds {canFold : Bool} {cs : List Char}
    (foldable : canFold = true → Foldable column true cs) :
    ∃ form, Formed column cs .double form ∧ p.Adds form (p.double column canFold cs) ∧
      (canFold = false → form = unfolded .double cs) := by
  have outside : (p.mark "\x22" true false).inIndent = false := by simp [Page.mark]
  rcases doubleChars_escaped false foldable outside with ⟨written, escaped, adds⟩
  refine ⟨_, .double escaped, ⟨?_, by simp [Page.double, Page.mark],
    fun _ => rfl⟩, fun still => ?_⟩
  · rw [Page.double, written_mark, adds, written_mark]
    simp
  · subst still
    rw [doubleChars_inline] at adds
    have same : cs.flatMap inDouble = written := by simpa [write] using adds
    rw [unfolded, same]

/-- A scalar without marks has a text that allows it. -/
theorem allows_of_styleOf {tag : Tag} (cs : List Char) (other : tag ≠ .binary) :
    match styleOf tag cs with
    | .plain => implicitTag cs = tag ∧ allowsPlain cs = true
    | .single => allowsSingle cs = true
    | .double => True
    | .literal => False := by
  fun_cases styleOf tag cs with
  | case1 given => simp [other] at given
  | case2 _ given => simpa using given
  | case3 _ _ single => exact single
  | case4 => trivial

/-- A scalar is written in one of the forms of its style. -/
theorem scalar_adds {indent : Nat} {canFold : Bool} {tag : Tag} {cs : List Char}
    (other : tag ≠ .binary) (notNull : tag ≠ .null)
    (keeps : Keeps (indent + indentStep) canFold (styleOf tag cs) cs) :
    ∃ form, Formed (indent + indentStep) cs (styleOf tag cs) form ∧
      p.Adds form (p.scalar (some indent) canFold tag cs) ∧
      (canFold = false → isMultiline cs = false → form = unfolded (styleOf tag cs) cs) := by
  have allows := allows_of_styleOf cs other
  unfold Page.scalar
  rw [if_neg other, Option.getD_some]
  cases style : styleOf tag cs with
  | plain =>
    rw [style] at allows
    have held : cs ≠ [] := by
      rintro rfl
      exact notNull (allows.1.symm.trans (by decide))
    have given : (if canFold then some (indent + indentStep) else none) = none ∨
        (if canFold then some (indent + indentStep) else none) = some (indent + indentStep) := by
      cases canFold <;> simp
    rcases plain_adds (p := p) allows.2 held given with ⟨form, formed, adds, still⟩
    refine ⟨form, formed, ⟨adds.written, adds.inIndent, fun closed => ?_⟩, fun unfold _ => ?_⟩
    · simp [closed]
    · exact still (by simp [unfold])
  | single =>
    rw [style] at allows keeps
    exact single_adds allows keeps
  | double =>
    rw [style] at keeps
    rcases double_adds (p := p) keeps with ⟨form, formed, adds, still⟩
    exact ⟨form, formed, adds, fun unfold _ => still unfold⟩
  | literal =>
    rw [style] at allows
    exact allows.elim

end Page
end Yaml
end Consignment
