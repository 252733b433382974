import Consignment.Condition.Reader
import Consignment.Proofs.Outcome
import Mathlib.Data.List.TakeWhile

namespace Consignment

/-!
# The written forms of conditions

A text spells a condition when it is a term, an operator and a term, each of which may have
spaces behind it.  Which texts these are is said here without the reader: by ranges of
characters for the names of variables and for literals, and by the written forms of terms.

The reader accepts exactly these texts.  It takes as many characters of a name as it can, so
that a name is read as a whole only because nothing that may follow a term can continue one;
a literal ends at its quote, and every number of spaces is read in one way only.  Hence a
text spells one condition at most, and the canonical spelling of a condition that was read is
read as the same condition again.
-/

/-! ## Characters and terms -/

/-- One of the letters of ASCII. -/
def IsLetter (c : Char) : Prop :=
  ('A' ≤ c ∧ c ≤ 'Z') ∨ ('a' ≤ c ∧ c ≤ 'z')

/-- One of the digits of ASCII. -/
def IsDigit (c : Char) : Prop :=
  '0' ≤ c ∧ c ≤ '9'

def Term.WellFormed : Term → Prop
  | .literal value =>
    ∀ c ∈ value.toList, IsLetter c ∨ IsDigit c ∨ c = '_' ∨ c = '-' ∨ c = '.'
  | .reference name =>
    ∃ first rest, name.toList = first :: rest ∧ IsLetter first ∧
      ∀ c ∈ rest, IsLetter c ∨ IsDigit c ∨ c = '_'

namespace Condition

theorem isNameStart_iff {c : Char} : isNameStart c = true ↔ IsLetter c := by
  have upper : c.isUpper = true ↔ 'A' ≤ c ∧ c ≤ 'Z' := decide_eq_true_iff
  have lower : c.isLower = true ↔ 'a' ≤ c ∧ c ≤ 'z' := by
    change (decide ('a' ≤ c) && decide (c ≤ 'z')) = true ↔ _
    rw [Bool.and_eq_true, decide_eq_true_iff, decide_eq_true_iff]
  change (c.isUpper || c.isLower) = true ↔ IsLetter c
  rw [Bool.or_eq_true, upper, lower, IsLetter]

theorem isNameChar_iff {c : Char} : isNameChar c = true ↔ IsLetter c ∨ IsDigit c ∨ c = '_' := by
  have letter : c.isAlpha = true ↔ IsLetter c := isNameStart_iff
  have digit : c.isDigit = true ↔ IsDigit c := by
    simp only [Char.isDigit, IsDigit, Char.le_def, Bool.and_eq_true, decide_eq_true_eq]
  rw [isNameChar, Char.isAlphanum, Bool.or_eq_true, Bool.or_eq_true, beq_iff_eq, letter, digit,
    or_assoc]

theorem isLiteralChar_iff {c : Char} :
    isLiteralChar c = true ↔ IsLetter c ∨ IsDigit c ∨ c = '_' ∨ c = '-' ∨ c = '.' := by
  rw [isLiteralChar, Bool.or_eq_true, Bool.or_eq_true, beq_iff_eq, beq_iff_eq, isNameChar_iff]
  simp only [or_assoc]

/-! ## Terms with what follows them -/

/-- What follows a term does not continue it: a literal has an end of its own, and a name
ends where no further character of a name stands. -/
def StopsAt (rest : List Char) : Term → Prop
  | .literal _ => True
  | .reference _ => ∀ c, rest.head? = some c → isNameChar c = false

/-- A run of characters of one kind is found as a whole if what follows is not of the kind. -/
theorem span_append {p : Char → Bool} {front rest : List Char} (all : ∀ c ∈ front, p c = true)
    (stop : ∀ c, rest.head? = some c → p c = false) :
    (front ++ rest).takeWhile p = front ∧ (front ++ rest).dropWhile p = rest := by
  rw [List.takeWhile_append_of_pos all, List.dropWhile_append_of_pos all]
  cases rest with
  | nil => simp
  | cons c rest => simp [stop c rfl]

theorem head?_dropWhile_eq_false {p : Char → Bool} {cs : List Char} (c : Char)
    (first : (cs.dropWhile p).head? = some c) : p c = false := by
  have stopped := List.head?_dropWhile_not p cs
  rw [first] at stopped
  simpa using stopped

theorem readTerm_reference {name : String} {rest : List Char}
    (formed : (Term.reference name).WellFormed) (stop : StopsAt rest (.reference name)) :
    readTerm ('$' :: name.toList ++ rest) = .ok (.reference name, rest) := by
  rcases formed with ⟨first, later, named, letter, all⟩
  have whole : ∀ c ∈ name.toList, isNameChar c = true := by
    intro c mem
    apply isNameChar_iff.mpr
    rcases List.mem_cons.mp (named ▸ mem) with rfl | after
    · exact Or.inl letter
    · exact all c after
  have start : ((name.toList ++ rest).head?.map isNameStart).getD false = true := by
    simp [named, isNameStart_iff.mpr letter]
  have cut := span_append whole stop
  simp only [List.cons_append, readTerm, start, if_true, cut, String.ofList_toList]

theorem readTerm_literal {value : String} {rest : List Char}
    (formed : (Term.literal value).WellFormed) :
    readTerm ('\x27' :: value.toList ++ '\x27' :: rest) = .ok (.literal value, rest) := by
  have quote : ∀ c, ('\x27' :: rest).head? = some c → isLiteralChar c = false := by
    intro c same
    cases same
    decide
  have cut := span_append (fun c mem => isLiteralChar_iff.mpr (formed c mem)) quote
  simp only [List.cons_append, readTerm, cut, String.ofList_toList]

/-- A term that was read is well formed, and its written form was taken. -/
theorem written_of_readTerm {cs rest : List Char} {t : Term} (read : readTerm cs = .ok (t, rest)) :
    t.WellFormed ∧ cs = t.text.toList ++ rest ∧ StopsAt rest t := by
  unfold readTerm at read
  split at read
  · rename_i after
    split at read
    · rename_i start
      cases read
      refine ⟨?_, ?_, head?_dropWhile_eq_false⟩
      · cases after with
        | nil => simp at start
        | cons first later =>
          have letter : isNameStart first = true := by simpa using start
          have kept : isNameChar first = true :=
            isNameChar_iff.mpr (Or.inl (isNameStart_iff.mp letter))
          refine ⟨first, later.takeWhile isNameChar, ?_, isNameStart_iff.mp letter, ?_⟩
          · rw [String.toList_ofList, List.takeWhile_cons_of_pos kept]
          · exact fun c mem => isNameChar_iff.mp (List.mem_takeWhile_imp mem)
      · simp [Term.text]
    · exact absurd read (by simp)
  · rename_i after
    split at read
    · rename_i behind ended
      cases read
      have whole := List.takeWhile_append_dropWhile (p := isLiteralChar) (l := after)
      rw [ended] at whole
      refine ⟨?_, ?_, trivial⟩
      · intro c mem
        rw [String.toList_ofList] at mem
        exact isLiteralChar_iff.mp (List.mem_takeWhile_imp mem)
      · simpa [Term.text] using whole.symm
    · exact absurd read (by simp)
  · exact absurd read (by simp)

/-- A term is read exactly where its written form stands and does not go on. -/
theorem readTerm_eq_ok {cs rest : List Char} {t : Term} :
    readTerm cs = .ok (t, rest) ↔
      t.WellFormed ∧ cs = t.text.toList ++ rest ∧ StopsAt rest t := by
  constructor
  · exact written_of_readTerm
  · rintro ⟨formed, rfl, stop⟩
    cases t with
    | literal value =>
      have written : readTerm ('\x27' :: value.toList ++ '\x27' :: rest) =
          .ok (.literal value, rest) := readTerm_literal formed
      simpa [Term.text] using written
    | reference name =>
      have written := readTerm_reference formed stop
      simpa [Term.text] using written

/-! ## Operators -/

/-- What an operator makes of the terms around it. -/
def Makes (operator : String) (make : Term → Term → Condition) : Prop :=
  (operator = "==" ∧ make = equal) ∨ (operator = "!=" ∧ make = unequal)

theorem readOperator_eq_ok {cs rest : List Char} {make : Term → Term → Condition} :
    readOperator cs = .ok (make, rest) ↔
      ∃ operator, Makes operator make ∧ cs = operator.toList ++ rest := by
  constructor
  · intro read
    unfold readOperator at read
    split at read
    · cases read
      exact ⟨"==", Or.inl ⟨rfl, rfl⟩, rfl⟩
    · cases read
      exact ⟨"!=", Or.inr ⟨rfl, rfl⟩, rfl⟩
    · exact absurd read (by simp)
  · rintro ⟨operator, ⟨rfl, rfl⟩ | ⟨rfl, rfl⟩, rfl⟩
    · rfl
    · rfl

/-- An operator begins with a character that is neither a space nor part of a name. -/
theorem Makes.head {operator : String} {make : Term → Term → Condition}
    (makes : Makes operator make) (rest : List Char) :
    ∃ c, (operator.toList ++ rest).head? = some c ∧ c ≠ ' ' ∧ isNameChar c = false := by
  rcases makes with ⟨rfl, rfl⟩ | ⟨rfl, rfl⟩
  · exact ⟨'=', rfl, by decide, by decide⟩
  · exact ⟨'!', rfl, by decide, by decide⟩

/-! ## Spaces -/

def spaces (n : Nat) : String :=
  String.ofList (List.replicate n ' ')

theorem skipSpaces_spaces (n : Nat) {rest : List Char} (visible : rest.head? ≠ some ' ') :
    skipSpaces ((spaces n).toList ++ rest) = rest := by
  have blank : ∀ c ∈ (spaces n).toList, (c == ' ') = true := by
    intro c mem
    rw [spaces, String.toList_ofList] at mem
    exact beq_iff_eq.mpr (List.eq_of_mem_replicate mem)
  apply (span_append blank _).2
  intro c first
  apply beq_eq_false_iff_ne.mpr
  rintro rfl
  exact visible first

theorem exists_spaces (cs : List Char) :
    ∃ n, cs = (spaces n).toList ++ skipSpaces cs := by
  refine ⟨(cs.takeWhile (· == ' ')).length, ?_⟩
  have blank : cs.takeWhile (· == ' ') = List.replicate (cs.takeWhile (· == ' ')).length ' ' := by
    apply List.eq_replicate_of_mem
    intro c mem
    exact beq_iff_eq.mp (List.mem_takeWhile_imp (p := (· == ' ')) mem)
  rw [spaces, String.toList_ofList, ← blank]
  exact List.takeWhile_append_dropWhile.symm

/-- Spaces do not continue a term. -/
theorem stopsAt_spaces (n : Nat) {rest : List Char} {t : Term}
    (stop : ∀ c, rest.head? = some c → isNameChar c = false) :
    StopsAt ((spaces n).toList ++ rest) t := by
  cases t with
  | literal value => trivial
  | reference name =>
    intro c first
    cases n with
    | zero => exact stop c first
    | succ n =>
      rw [spaces, String.toList_ofList, List.replicate_succ] at first
      cases first
      decide

theorem head?_text (t : Term) (rest : List Char) : (t.text.toList ++ rest).head? ≠ some ' ' := by
  cases t <;> simp [Term.text]

/-! ## Whole conditions -/

/-- A text is two terms with an operator between them, and spaces behind each of the three. -/
def Compares (text : String) (left : Term) (operator : String) (right : Term) : Prop :=
  left.WellFormed ∧ right.WellFormed ∧
    ∃ a b c, text = left.text ++ spaces a ++ operator ++ spaces b ++ right.text ++ spaces c

/-- Read a text from its second term on. -/
def readSecond (make : Term → Condition) (cs : List Char) : Except (List Char) Condition := do
  let (right, rest) ← readTerm cs
  match skipSpaces rest with
  | [] => return make right
  | stuck => throw stuck

/-- Read a text from its operator on. -/
def readComparison (left : Term) (cs : List Char) : Except (List Char) Condition := do
  let found ← readOperator cs
  readSecond (found.1 left) (skipSpaces found.2)

theorem readChars_eq (cs : List Char) :
    readChars cs = (do
      let found ← readTerm cs
      readComparison found.1 (skipSpaces found.2)) := rfl

/-- Reading goes on behind a term and its spaces. -/
theorem readChars_term {left : Term} {a : Nat} {rest : List Char} (formed : left.WellFormed)
    (stop : StopsAt ((spaces a).toList ++ rest) left) (visible : rest.head? ≠ some ' ') :
    readChars (left.text.toList ++ ((spaces a).toList ++ rest)) = readComparison left rest := by
  rw [readChars_eq, readTerm_eq_ok.mpr ⟨formed, rfl, stop⟩, Outcome.ok_bind,
    skipSpaces_spaces a visible]

/-- Reading goes on behind an operator and its spaces. -/
theorem readChars_operator {left : Term} {operator : String} {make : Term → Term → Condition}
    {a b : Nat} {rest : List Char} (formed : left.WellFormed) (makes : Makes operator make)
    (visible : rest.head? ≠ some ' ') :
    readChars (left.text.toList ++
        ((spaces a).toList ++ (operator.toList ++ ((spaces b).toList ++ rest)))) =
      readSecond (make left) rest := by
  rcases makes.head ((spaces b).toList ++ rest) with ⟨mark, here, shown, other⟩
  have stop : StopsAt ((spaces a).toList ++ (operator.toList ++ ((spaces b).toList ++ rest)))
      left := by
    apply stopsAt_spaces
    intro c first
    cases here.symm.trans first
    exact other
  have begins : (operator.toList ++ ((spaces b).toList ++ rest)).head? ≠ some ' ' := by
    rw [here]
    exact fun same => shown (Option.some.inj same)
  rw [readChars_term formed stop begins, readComparison,
    readOperator_eq_ok.mpr ⟨operator, makes, rfl⟩, Outcome.ok_bind, skipSpaces_spaces b visible]

theorem readChars_written {left right : Term} {operator : String}
    {make : Term → Term → Condition} {a b c : Nat} (formed : left.WellFormed)
    (makes : Makes operator make) (alsoFormed : right.WellFormed) :
    readChars (left.text.toList ++ ((spaces a).toList ++ (operator.toList ++
        ((spaces b).toList ++ (right.text.toList ++ (spaces c).toList))))) =
      .ok (make left right) := by
  have stop : StopsAt ((spaces c).toList ++ []) right := stopsAt_spaces c (by simp)
  have toEnd : skipSpaces ((spaces c).toList ++ []) = [] := skipSpaces_spaces c (by simp)
  rw [List.append_nil] at stop toEnd
  rw [readChars_operator formed makes (head?_text right _), readSecond,
    readTerm_eq_ok.mpr ⟨alsoFormed, rfl, stop⟩, Outcome.ok_bind]
  simp only [toEnd]
  rfl

theorem readChars_of_compares {text operator : String} {left right : Term}
    {make : Term → Term → Condition} (makes : Makes operator make)
    (compares : Compares text left operator right) :
    readChars text.toList = .ok (make left right) := by
  rcases compares with ⟨leftFormed, rightFormed, a, b, c, rfl⟩
  simp only [String.toList_append, List.append_assoc]
  exact readChars_written leftFormed makes rightFormed

theorem compares_of_readChars {text : String} {condition : Condition}
    (read : readChars text.toList = .ok condition) :
    ∃ left operator right make, Makes operator make ∧ condition = make left right ∧
      Compares text left operator right := by
  rw [readChars] at read
  simp only [Outcome.bind_eq_ok, Prod.exists] at read
  rcases read with ⟨left, afterLeft, readLeft, make, afterMake, readMake, right, afterRight,
    readRight, ended⟩
  split at ended
  · rename_i nothing
    cases ended
    rcases readTerm_eq_ok.mp readLeft with ⟨leftFormed, whole, _⟩
    rcases readOperator_eq_ok.mp readMake with ⟨operator, makes, fromOperator⟩
    rcases readTerm_eq_ok.mp readRight with ⟨rightFormed, fromRight, _⟩
    rcases exists_spaces afterLeft with ⟨a, beforeOperator⟩
    rcases exists_spaces afterMake with ⟨b, beforeRight⟩
    rcases exists_spaces afterRight with ⟨c, atEnd⟩
    refine ⟨left, operator, right, make, makes, rfl, leftFormed, rightFormed, a, b, c, ?_⟩
    apply String.toList_injective
    rw [whole, beforeOperator, fromOperator, beforeRight, fromRight, atEnd, nothing]
    simp only [String.toList_append, List.append_assoc, List.append_nil]
  · exact absurd ended (by simp [throw, throwThe, MonadExceptOf.throw])

theorem readChars_eq_ok {text : String} {condition : Condition} :
    readChars text.toList = .ok condition ↔
      ∃ left operator right make, Makes operator make ∧ condition = make left right ∧
        Compares text left operator right := by
  constructor
  · exact compares_of_readChars
  · rintro ⟨left, operator, right, make, makes, rfl, compares⟩
    exact readChars_of_compares makes compares

/-- The grammar of conditions: which texts are written forms of a condition.  An entry
without a condition has no text at all. -/
def Spells (text : String) : Condition → Prop
  | always => False
  | equal left right => Compares text left "==" right
  | unequal left right => Compares text left "!=" right

theorem spells_iff {text : String} {condition : Condition} :
    Spells text condition ↔
      ∃ left operator right make, Makes operator make ∧ condition = make left right ∧
        Compares text left operator right := by
  constructor
  · intro spelled
    cases condition with
    | always => exact spelled.elim
    | equal left right => exact ⟨left, _, right, _, Or.inl ⟨rfl, rfl⟩, rfl, spelled⟩
    | unequal left right => exact ⟨left, _, right, _, Or.inr ⟨rfl, rfl⟩, rfl, spelled⟩
  · rintro ⟨left, operator, right, make, ⟨rfl, rfl⟩ | ⟨rfl, rfl⟩, rfl, compares⟩
    · exact compares
    · exact compares

theorem read_eq_ok {text : String} {condition : Condition} :
    read (some text) = .ok condition ↔ Spells text condition := by
  rw [spells_iff, ← readChars_eq_ok, read]
  cases readChars text.toList with
  | error stuck => simp
  | ok found => simp

theorem read_eq_error {text : String} :
    (∃ fault, read (some text) = .error fault) ↔ ∀ condition, ¬ Spells text condition := by
  simp only [← read_eq_ok]
  cases read (some text) with
  | error fault => simp
  | ok found => simp

/-- The spelling with one space around the operator. -/
theorem Spells.text {text : String} {condition : Condition} (spelled : Spells text condition) :
    Spells condition.text condition := by
  rcases spells_iff.mp spelled with ⟨left, operator, right, make, makes, rfl, leftFormed,
    rightFormed, _⟩
  rcases makes with ⟨rfl, rfl⟩ | ⟨rfl, rfl⟩
  · refine ⟨leftFormed, rightFormed, 1, 1, 0, ?_⟩
    apply String.toList_injective
    simp [Condition.text, spaces]
  · refine ⟨leftFormed, rightFormed, 1, 1, 0, ?_⟩
    apply String.toList_injective
    simp [Condition.text, spaces]

/-- A condition is read from the texts that spell it, and every other text is refused.  So a
text spells one condition at most, all spellings of a condition are read alike, and what was
read is read again from its canonical spelling. -/
theorem read_iff_spells (text : String) (condition : Condition) :
    (read (some text) = .ok condition ↔ Spells text condition) ∧
    ((∃ fault, read (some text) = .error fault) ↔ ∀ other, ¬ Spells text other) ∧
    (∀ other, Spells text condition → Spells text other → other = condition) ∧
    (∀ spelling, Spells text condition → Spells spelling condition →
      read (some spelling) = read (some text)) ∧
    (read (some text) = .ok condition → read (some condition.text) = .ok condition) := by
  refine ⟨read_eq_ok, read_eq_error, ?_, ?_, ?_⟩
  · intro other spelled spelledOther
    have same := (read_eq_ok.mpr spelledOther).symm.trans (read_eq_ok.mpr spelled)
    exact Except.ok.inj same
  · intro spelling spelled respelled
    exact (read_eq_ok.mpr respelled).trans (read_eq_ok.mpr spelled).symm
  · intro read
    exact read_eq_ok.mpr (read_eq_ok.mp read).text

/-- A name that touches the operator, an empty literal, and spaces at the end only. -/
theorem read_iff_spells_bare :
    read (some "$env!=''  ") = .ok (unequal (.reference "env") (.literal "")) ∧
      Spells "$env!=''  " (unequal (.reference "env") (.literal "")) ∧
      read (some "$env != ''") = .ok (unequal (.reference "env") (.literal "")) := by
  have read : read (some "$env!=''  ") = .ok (unequal (.reference "env") (.literal "")) := by
    rfl
  have facts := read_iff_spells "$env!=''  " (unequal (.reference "env") (.literal ""))
  exact ⟨read, facts.1.mp read, facts.2.2.2.2 read⟩

end Condition
end Consignment
