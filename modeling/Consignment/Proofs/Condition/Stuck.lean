import Consignment.Proofs.Condition.Grammar

namespace Consignment
namespace Condition

/-!
# Where reading gets stuck

A text that is no condition is refused at a place: what stands before the place could still
begin a condition, and what stands there cannot follow.  The places are described here
without the reader.  Either a term is broken, at the beginning or behind an operator, or no
operator follows a term, or something follows a condition.  A broken term is an open
literal, or nothing that begins a term; a dollar sign without a name counts as nothing,
because a name that is missing is reported with its dollar sign.

The reader is stuck exactly at these places.  Which place it is depends on two characters
from there on: a variable and an operator are refused where they begin, and both show in
their first two characters that they are none.  So an error points at the first character
that is wrong, or at the one before it.
-/

/-! ## Terms -/

/-- What stands in front of the place where a term is broken, and what stands there. -/
inductive BrokenTerm : List Char → List Char → Prop
  | missing {stuck : List Char} (absent : ∀ c, stuck.head? = some c → c ≠ '$' ∧ c ≠ '\x27') :
      BrokenTerm [] stuck
  | unnamed {rest : List Char} (absent : ∀ c, rest.head? = some c → isNameStart c = false) :
      BrokenTerm [] ('$' :: rest)
  | opened {value stuck : List Char} (valid : ∀ c ∈ value, isLiteralChar c = true)
      (stops : ∀ c, stuck.head? = some c → c ≠ '\x27' ∧ isLiteralChar c = false) :
      BrokenTerm ('\x27' :: value) stuck

theorem readTerm_of_broken {front stuck : List Char} (broken : BrokenTerm front stuck) :
    readTerm (front ++ stuck) = .error stuck := by
  cases broken with
  | missing absent =>
    rw [List.nil_append]
    unfold readTerm
    split
    · exact absurd rfl (absent _ rfl).1
    · exact absurd rfl (absent _ rfl).2
    · rfl
  | @unnamed rest absent =>
    have unnamed : ¬ (rest.head?.map isNameStart).getD false = true := by
      cases first : rest.head? with
      | none => simp
      | some c => simp [absent c first]
    rw [List.nil_append, readTerm, if_neg unnamed]
  | opened valid stops =>
    have cut := span_append valid fun c first => (stops c first).2
    rw [List.cons_append, readTerm, cut.2]
    split
    · exact absurd rfl (stops _ rfl).1
    · rfl

theorem broken_of_readTerm {cs stuck : List Char} (failed : readTerm cs = .error stuck) :
    ∃ front, BrokenTerm front stuck ∧ cs = front ++ stuck := by
  unfold readTerm at failed
  split at failed
  · rename_i rest
    split at failed
    · exact absurd failed (by simp)
    · rename_i unnamed
      cases failed
      refine ⟨[], .unnamed ?_, rfl⟩
      intro c first
      rw [first] at unnamed
      simpa using unnamed
  · rename_i rest
    split at failed
    · exact absurd failed (by simp)
    · rename_i unquoted
      cases failed
      refine ⟨'\x27' :: rest.takeWhile isLiteralChar, .opened ?_ ?_, ?_⟩
      · intro c mem
        exact List.mem_takeWhile_imp mem
      · intro c first
        refine ⟨?_, head?_dropWhile_eq_false c first⟩
        rintro rfl
        rcases List.head?_eq_some_iff.mp first with ⟨after, quoted⟩
        exact unquoted after quoted
      · rw [List.cons_append, List.takeWhile_append_dropWhile]
  · rename_i noVariable noLiteral
    cases failed
    refine ⟨[], .missing ?_, rfl⟩
    intro c first
    rcases List.head?_eq_some_iff.mp first with ⟨rest, rfl⟩
    refine ⟨?_, ?_⟩
    · rintro rfl
      exact noVariable rest rfl
    · rintro rfl
      exact noLiteral rest rfl

theorem wellFormed_empty : (Term.literal "").WellFormed := by
  simp [Term.WellFormed]

/-- The front of a broken term begins a literal. -/
theorem BrokenTerm.exists_literal {front stuck : List Char} (broken : BrokenTerm front stuck) :
    ∃ ending value, (Term.literal value).WellFormed ∧
      front ++ ending = (Term.literal value).text.toList := by
  cases broken with
  | missing absent => exact ⟨['\x27', '\x27'], "", wellFormed_empty, rfl⟩
  | unnamed absent => exact ⟨['\x27', '\x27'], "", wellFormed_empty, rfl⟩
  | @opened value stuck valid stops =>
    refine ⟨['\x27'], String.ofList value, ?_, by simp [Term.text]⟩
    intro c mem
    rw [String.toList_ofList] at mem
    exact isLiteralChar_iff.mp (valid c mem)

/-- Two characters show that a term is broken. -/
theorem BrokenTerm.congr {front rest other : List Char} {a b : Char}
    (broken : BrokenTerm front (a :: b :: rest)) : BrokenTerm front (a :: b :: other) := by
  cases broken with
  | missing absent => exact .missing absent
  | unnamed absent => exact .unnamed absent
  | opened valid stops => exact .opened valid stops

/-! ## Conditions -/

/-- The first character of what follows a run does not depend on what follows it. -/
theorem head?_append_cons (front rest other : List Char) (c : Char) :
    (front ++ c :: rest).head? = (front ++ c :: other).head? := by
  cases front with
  | nil => rfl
  | cons d front => rfl

theorem StopsAt.congr {rest other : List Char} {t : Term} (stops : StopsAt rest t)
    (same : rest.head? = other.head?) : StopsAt other t := by
  cases t with
  | literal value => trivial
  | reference name =>
    intro c first
    exact stops c (same.trans first)

/-- What stands in front of the place where a text is refused, and what stands there. -/
inductive Refused : List Char → List Char → Prop
  | first {front stuck : List Char} (broken : BrokenTerm front stuck) : Refused front stuck
  | operator {left : Term} {a : Nat} {stuck : List Char} (formed : left.WellFormed)
      (stops : StopsAt ((spaces a).toList ++ stuck) left) (visible : stuck.head? ≠ some ' ')
      (absent : ∀ operator make, Makes operator make → ¬ operator.toList <+: stuck) :
      Refused (left.text.toList ++ (spaces a).toList) stuck
  | second {left : Term} {operator : String} {make : Term → Term → Condition} {a b : Nat}
      {front stuck : List Char} (formed : left.WellFormed) (makes : Makes operator make)
      (visible : (front ++ stuck).head? ≠ some ' ') (broken : BrokenTerm front stuck) :
      Refused (left.text.toList ++
        ((spaces a).toList ++ (operator.toList ++ ((spaces b).toList ++ front)))) stuck
  | behind {left right : Term} {operator : String} {make : Term → Term → Condition} {a b c : Nat}
      {stuck : List Char} (formed : left.WellFormed) (makes : Makes operator make)
      (alsoFormed : right.WellFormed) (stops : StopsAt ((spaces c).toList ++ stuck) right)
      (visible : stuck.head? ≠ some ' ') (more : stuck ≠ []) :
      Refused (left.text.toList ++ ((spaces a).toList ++ (operator.toList ++
        ((spaces b).toList ++ (right.text.toList ++ (spaces c).toList))))) stuck

theorem readOperator_eq_error {cs stuck : List Char} :
    readOperator cs = .error stuck ↔
      stuck = cs ∧ ∀ operator make, Makes operator make → ¬ operator.toList <+: cs := by
  cases read : readOperator cs with
  | error place =>
    have here : place = cs := by
      unfold readOperator at read
      split at read <;> cases read
      rfl
    have absent : ∀ operator make, Makes operator make → ¬ operator.toList <+: cs := by
      rintro operator make makes ⟨rest, rfl⟩
      rw [readOperator_eq_ok.mpr ⟨operator, makes, rfl⟩] at read
      exact absurd read (by simp)
    rw [here]
    constructor
    · intro same
      cases same
      exact ⟨rfl, absent⟩
    · intro refused
      rw [refused.1]
  | ok found =>
    rcases readOperator_eq_ok.mp read with ⟨operator, makes, begins⟩
    constructor
    · intro same
      exact absurd same (by simp)
    · intro refused
      exact absurd ⟨found.2, begins.symm⟩ (refused.2 operator found.1 makes)

theorem readChars_of_refused {front stuck : List Char} (refused : Refused front stuck) :
    readChars (front ++ stuck) = .error stuck := by
  cases refused with
  | first broken => rw [readChars_eq, readTerm_of_broken broken, Outcome.error_bind]
  | operator formed stops visible absent =>
    rw [List.append_assoc, readChars_term formed stops visible, readComparison,
      readOperator_eq_error.mpr ⟨rfl, absent⟩, Outcome.error_bind]
  | second formed makes visible broken =>
    simp only [List.append_assoc]
    rw [readChars_operator formed makes visible, readSecond, readTerm_of_broken broken,
      Outcome.error_bind]
  | behind formed makes alsoFormed stops visible more =>
    simp only [List.append_assoc]
    rw [readChars_operator formed makes (head?_text _ _), readSecond,
      readTerm_eq_ok.mpr ⟨alsoFormed, rfl, stops⟩, Outcome.ok_bind]
    simp only [skipSpaces_spaces _ visible]
    rfl

theorem head?_skipSpaces (cs : List Char) : (skipSpaces cs).head? ≠ some ' ' := by
  intro first
  have shown := head?_dropWhile_eq_false (p := (· == ' ')) ' ' first
  exact absurd shown (by decide)

theorem refused_of_readChars {cs stuck : List Char} (failed : readChars cs = .error stuck) :
    ∃ front, Refused front stuck ∧ cs = front ++ stuck := by
  rw [readChars_eq, Outcome.bind_eq_error] at failed
  rcases failed with failed | ⟨⟨left, afterLeft⟩, read, failed⟩
  · rcases broken_of_readTerm failed with ⟨front, broken, whole⟩
    exact ⟨front, .first broken, whole⟩
  rcases readTerm_eq_ok.mp read with ⟨formed, rfl, stops⟩
  rcases exists_spaces afterLeft with ⟨a, toOperator⟩
  rw [readComparison, Outcome.bind_eq_error] at failed
  rcases failed with failed | ⟨⟨make, afterOperator⟩, read, failed⟩
  · rcases readOperator_eq_error.mp failed with ⟨rfl, absent⟩
    refine ⟨_, .operator formed (toOperator ▸ stops) (head?_skipSpaces afterLeft) absent, ?_⟩
    rw [List.append_assoc, ← toOperator]
  rcases readOperator_eq_ok.mp read with ⟨operator, makes, begins⟩
  rcases exists_spaces afterOperator with ⟨b, toRight⟩
  rw [begins] at toOperator
  rw [readSecond, Outcome.bind_eq_error] at failed
  rcases failed with failed | ⟨⟨right, afterRight⟩, read, failed⟩
  · rcases broken_of_readTerm failed with ⟨front, broken, rest⟩
    have visible : (front ++ stuck).head? ≠ some ' ' := rest ▸ head?_skipSpaces afterOperator
    refine ⟨_, .second (a := a) (b := b) formed makes visible broken, ?_⟩
    rw [toOperator, toRight, rest]
    simp only [List.append_assoc]
  · rcases readTerm_eq_ok.mp read with ⟨alsoFormed, rest, stopsToo⟩
    rcases exists_spaces afterRight with ⟨c, toEnd⟩
    dsimp only at failed rest toEnd
    split at failed
    · exact absurd failed (by simp [pure, Except.pure])
    · rename_i more
      cases failed
      refine ⟨_, .behind (a := a) (b := b) (c := c) formed makes alsoFormed (toEnd ▸ stopsToo)
        (head?_skipSpaces afterRight) more, ?_⟩
      rw [toOperator, toRight, rest]
      simp only [List.append_assoc, ← toEnd]

/-! ## What a place says about the text -/

theorem read_eq_error_iff {text : String} {fault : SyntaxFault} :
    read (some text) = .error fault ↔
      ∃ front stuck, Refused front stuck ∧ text.toList = front ++ stuck ∧
        fault = ⟨text, front.length, ""⟩ := by
  constructor
  · intro rejected
    rw [read] at rejected
    split at rejected
    · exact absurd rejected (by simp)
    · rename_i stuck taken
      rcases refused_of_readChars taken with ⟨front, refused, whole⟩
      refine ⟨front, stuck, refused, whole, ?_⟩
      rw [whole, List.length_append, Nat.add_sub_cancel] at rejected
      exact (Except.error.inj rejected).symm
  · rintro ⟨front, stuck, refused, whole, rfl⟩
    have taken : readChars text.toList = .error stuck := whole ▸ readChars_of_refused refused
    have place : text.toList.length - stuck.length = front.length := by
      rw [whole, List.length_append, Nat.add_sub_cancel]
    rw [read, taken, ← place]

/-- A comparison with the empty literal ends a condition. -/
theorem readChars_equalsEmpty {left : Term} {a : Nat} (formed : left.WellFormed) :
    readChars (left.text.toList ++ ((spaces a).toList ++ "==''".toList)) =
      .ok (equal left (.literal "")) := by
  have written : "==''".toList = "==".toList ++ ((spaces 0).toList ++
      ((Term.literal "").text.toList ++ (spaces 0).toList)) := by
    decide
  rw [written]
  exact readChars_written formed (.inl ⟨rfl, rfl⟩) wellFormed_empty

/-- What stands in front of the place begins a condition. -/
theorem Refused.exists_condition {front stuck : List Char} (refused : Refused front stuck) :
    ∃ ending condition, readChars (front ++ ending) = .ok condition := by
  cases refused with
  | first broken =>
    rcases broken.exists_literal with ⟨ending, value, formed, begins⟩
    refine ⟨ending ++ ((spaces 0).toList ++ "==''".toList),
      equal (.literal value) (.literal ""), ?_⟩
    rw [← List.append_assoc, begins]
    exact readChars_equalsEmpty formed
  | @operator left a stuck formed stops visible absent =>
    refine ⟨"==''".toList, equal left (.literal ""), ?_⟩
    rw [List.append_assoc]
    exact readChars_equalsEmpty formed
  | @second left operator make a b front stuck formed makes visible broken =>
    rcases broken.exists_literal with ⟨ending, value, alsoFormed, begins⟩
    refine ⟨ending, make left (.literal value), ?_⟩
    simp only [List.append_assoc, begins]
    simpa [spaces] using readChars_written (c := 0) formed makes alsoFormed
  | @behind left right operator make a b c stuck formed makes alsoFormed stops visible more =>
    refine ⟨[], make left right, ?_⟩
    rw [List.append_nil]
    exact readChars_written formed makes alsoFormed

/-- Two characters show that a text is refused. -/
theorem Refused.congr {front rest other : List Char} {a b : Char}
    (refused : Refused front (a :: b :: rest)) : Refused front (a :: b :: other) := by
  cases refused with
  | first broken => exact .first broken.congr
  | operator formed stops visible absent =>
    refine .operator formed (stops.congr (head?_append_cons _ _ _ _)) visible ?_
    rintro operator make makes ⟨later, begins⟩
    apply absent operator make makes
    rcases makes with ⟨rfl, rfl⟩ | ⟨rfl, rfl⟩
    · cases begins
      exact ⟨rest, rfl⟩
    · cases begins
      exact ⟨rest, rfl⟩
  | second formed makes visible broken =>
    exact .second formed makes (head?_append_cons _ _ _ _ ▸ visible) broken.congr
  | behind formed makes alsoFormed stops visible more =>
    exact .behind formed makes alsoFormed (stops.congr (head?_append_cons _ _ _ _)) visible
      (List.cons_ne_nil _ _)

/-- A text is refused at one of its characters or behind the last.  The characters in front of
the place begin some condition, and with two more characters no condition begins: whatever
follows these two, the text is refused at the same place. -/
theorem offset_of_rejected {text : String} {fault : SyntaxFault}
    (rejected : read (some text) = .error fault) :
    fault.offset ≤ text.length ∧
    (∃ accepted condition, read (some accepted) = .ok condition ∧
      text.toList.take fault.offset <+: accepted.toList) ∧
    (fault.offset + 2 ≤ text.length →
      (∀ accepted condition, text.toList.take (fault.offset + 2) <+: accepted.toList →
        read (some accepted) ≠ .ok condition) ∧
      ∀ other, text.toList.take (fault.offset + 2) <+: other.toList →
        ∃ refusal, read (some other) = .error refusal ∧ refusal.offset = fault.offset) := by
  rcases read_eq_error_iff.mp rejected with ⟨front, stuck, refused, whole, rfl⟩
  have length : text.length = front.length + stuck.length := by
    rw [← String.length_toList, whole, List.length_append]
  have alike : front.length + 2 ≤ text.length → ∀ other : String,
      text.toList.take (front.length + 2) <+: other.toList →
        read (some other) = .error ⟨other, front.length, ""⟩ := by
    intro far other shared
    match stuck, length, refused, whole with
    | [], length, _, _ => simp at length; omega
    | [_], length, _, _ => simp at length; omega
    | a :: b :: rest, _, refused, whole =>
      rcases shared with ⟨later, begins⟩
      rw [whole, List.take_length_add_append] at begins
      refine read_eq_error_iff.mpr ⟨front, a :: b :: later, refused.congr, ?_, rfl⟩
      simpa using begins.symm
  refine ⟨?_, ?_, ?_⟩
  · dsimp only
    omega
  · rcases refused.exists_condition with ⟨ending, condition, accepted⟩
    refine ⟨String.ofList (front ++ ending), condition, ?_, ending, ?_⟩
    · rw [read, String.toList_ofList, accepted]
    · rw [String.toList_ofList, whole, List.take_left]
  · intro far
    refine ⟨?_, ?_⟩
    · intro accepted condition shared taken
      exact absurd ((alike far accepted shared).symm.trans taken) (by simp)
    · intro other shared
      exact ⟨_, alike far other shared, rfl⟩

/-- A single equals sign is refused where it stands, whatever follows the space behind it. -/
theorem offset_of_rejected_single_equals :
    read (some "$env = 'prod'") = .error ⟨"$env = 'prod'", 5, ""⟩ ∧
      ∃ refusal, read (some "$env = = 'prod'") = .error refusal ∧ refusal.offset = 5 := by
  have rejected : read (some "$env = 'prod'") = .error ⟨"$env = 'prod'", 5, ""⟩ := by
    rfl
  refine ⟨rejected, ?_⟩
  apply ((offset_of_rejected rejected).2.2 (by decide)).2
  exact ⟨"= 'prod'".toList, rfl⟩

end Condition
end Consignment
