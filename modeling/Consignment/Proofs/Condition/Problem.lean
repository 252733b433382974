import Consignment.Proofs.Condition.Stuck

namespace Consignment
namespace Condition

/-!
# What a refusal says about the text

The message about a text that is no condition names its problem: the word at the place where
the text is refused, or the end of the condition.  The word is what stands between the place
and the next space, so there is none not only at the end of the text, but also where a space
is refused.  The message then speaks of an end although the text goes on.

A space is refused in front of the first term and within a literal, and nowhere else: between
the parts of a condition spaces are skipped, and a name or an operator that a space cuts short
is refused where it begins.
-/

namespace SyntaxFault

/-- The word at the stuck place is a longest run without spaces. -/
theorem exists_drop_eq (f : SyntaxFault) :
    ∃ rest, f.text.toList.drop f.offset = f.unexpected ++ rest ∧ ' ' ∉ f.unexpected ∧
      ∀ c, rest.head? = some c → c = ' ' := by
  refine ⟨(f.text.toList.drop f.offset).dropWhile (· != ' '), ?_, ?_, ?_⟩
  · exact List.takeWhile_append_dropWhile.symm
  · intro mem
    have shown := List.mem_takeWhile_imp (p := (· != ' ')) mem
    exact absurd shown (by decide)
  · intro c first
    have stopped := head?_dropWhile_eq_false (p := (· != ' ')) c first
    simpa using stopped

theorem unexpected_eq_nil {f : SyntaxFault} :
    f.unexpected = [] ↔ ∀ c, f.text.toList[f.offset]? = some c → c = ' ' := by
  rw [unexpected, ← List.head?_drop]
  cases f.text.toList.drop f.offset with
  | nil => simp
  | cons c rest => simp [List.takeWhile_cons]

theorem problem_of_unexpected {f : SyntaxFault} (word : f.unexpected ≠ []) :
    f.problem = "unexpected text \"" ++ String.ofList f.unexpected ++ "\"" := by
  rw [problem, if_neg]
  simpa using word

/-- The end of the condition is reported where no word stands. -/
theorem problem_eq_end {f : SyntaxFault} :
    f.problem = "unexpected end of condition" ↔ f.unexpected = [] := by
  constructor
  · intro ended
    by_contra word
    have quoted := congrArg String.toList ((problem_of_unexpected word).symm.trans ended)
    -- The two messages differ in the first letter behind "unexpected".
    simp at quoted
  · intro nothing
    rw [problem, nothing]
    rfl

end SyntaxFault

/-! ## Refused spaces -/

/-- The beginnings of a condition at whose end a space is refused: nothing at all, and
everything up to a character of an open literal. -/
inductive Interrupted : List Char → Prop
  | nothing : Interrupted []
  | first {value : List Char} (valid : ∀ c ∈ value, isLiteralChar c = true) :
      Interrupted ('\x27' :: value)
  | second {left : Term} {operator : String} {make : Term → Term → Condition} {a b : Nat}
      {value : List Char} (formed : left.WellFormed) (makes : Makes operator make)
      (valid : ∀ c ∈ value, isLiteralChar c = true) :
      Interrupted (left.text.toList ++
        ((spaces a).toList ++ (operator.toList ++ ((spaces b).toList ++ '\x27' :: value))))

/-- A term is broken by a space when it has not begun, or when it is an open literal. -/
theorem BrokenTerm.at_space {front rest : List Char} :
    BrokenTerm front (' ' :: rest) ↔
      front = [] ∨ ∃ value, (∀ c ∈ value, isLiteralChar c = true) ∧ front = '\x27' :: value := by
  constructor
  · intro broken
    cases broken with
    | missing absent => exact .inl rfl
    | opened valid stops => exact .inr ⟨_, valid, rfl⟩
  · rintro (rfl | ⟨value, valid, rfl⟩)
    · apply BrokenTerm.missing
      rintro c ⟨⟩
      decide
    · apply BrokenTerm.opened valid
      rintro c ⟨⟩
      decide

theorem refused_at_space {front rest : List Char} :
    Refused front (' ' :: rest) ↔ Interrupted front := by
  constructor
  · intro refused
    cases refused with
    | first broken =>
      rcases BrokenTerm.at_space.mp broken with rfl | ⟨value, valid, rfl⟩
      · exact .nothing
      · exact .first valid
    | operator formed stops visible absent => exact absurd rfl visible
    | second formed makes visible broken =>
      rcases BrokenTerm.at_space.mp broken with rfl | ⟨value, valid, rfl⟩
      · exact absurd rfl visible
      · exact .second formed makes valid
    | behind formed makes alsoFormed stops visible more => exact absurd rfl visible
  · intro interrupted
    cases interrupted with
    | nothing => exact .first (BrokenTerm.at_space.mpr (.inl rfl))
    | first valid => exact .first (BrokenTerm.at_space.mpr (.inr ⟨_, valid, rfl⟩))
    | second formed makes valid =>
      refine .second formed makes ?_ (BrokenTerm.at_space.mpr (.inr ⟨_, valid, rfl⟩))
      simp

/-- The problem of a refused text is the word at the place where it is refused.  Where no word
stands the end of the condition is reported: at the end of the text, and at a space, that is,
at a space in front of the condition or within a literal. -/
theorem problem_of_rejected {text : String} {fault : SyntaxFault}
    (rejected : read (some text) = .error fault) :
    (fault.problem = "unexpected end of condition" ↔
      fault.offset = text.length ∨ text.toList[fault.offset]? = some ' ') ∧
    (fault.problem ≠ "unexpected end of condition" →
      ∃ word rest, text.toList.drop fault.offset = word ++ rest ∧ word ≠ [] ∧ ' ' ∉ word ∧
        (∀ c, rest.head? = some c → c = ' ') ∧
        fault.problem = "unexpected text \"" ++ String.ofList word ++ "\"") ∧
    ∀ front rest, text.toList = front ++ ' ' :: rest →
      (fault.offset = front.length ↔ Interrupted front) := by
  rcases read_eq_error_iff.mp rejected with ⟨front, stuck, refused, whole, rfl⟩
  refine ⟨?_, ?_, ?_⟩
  · have length : text.length = front.length + stuck.length := by
      rw [← String.length_toList, whole, List.length_append]
    have here : text.toList[front.length]? = stuck.head? := by
      rw [whole, List.getElem?_append_right (Nat.le_refl _), Nat.sub_self, List.head?_eq_getElem?]
    rw [SyntaxFault.problem_eq_end, SyntaxFault.unexpected_eq_nil]
    dsimp only
    rw [here, length]
    cases stuck with
    | nil => simp
    | cons c rest => simp
  · intro notEnded
    have word : SyntaxFault.unexpected ⟨text, front.length, ""⟩ ≠ [] :=
      fun nothing => notEnded (SyntaxFault.problem_eq_end.mpr nothing)
    rcases SyntaxFault.exists_drop_eq ⟨text, front.length, ""⟩ with ⟨rest, cut, visible, longest⟩
    exact ⟨_, rest, cut, word, visible, longest, SyntaxFault.problem_of_unexpected word⟩
  · intro before rest split
    constructor
    · intro same
      rcases List.append_inj (whole.symm.trans split) same with ⟨rfl, rfl⟩
      exact refused_at_space.mp refused
    · intro interrupted
      have also : read (some text) = .error ⟨text, before.length, ""⟩ :=
        read_eq_error_iff.mpr ⟨before, _, refused_at_space.mpr interrupted, split, rfl⟩
      exact congrArg SyntaxFault.offset (Except.error.inj (rejected.symm.trans also))

/-- The word at the place where a second equals sign is missing. -/
theorem problem_of_rejected_single_equals :
    read (some "$env = 'prod'") = .error ⟨"$env = 'prod'", 5, ""⟩ ∧
      ∃ word rest, "$env = 'prod'".toList.drop 5 = word ++ rest ∧ word ≠ [] ∧ ' ' ∉ word ∧
        (∀ c, rest.head? = some c → c = ' ') ∧
        SyntaxFault.problem ⟨"$env = 'prod'", 5, ""⟩ =
          "unexpected text \"" ++ String.ofList word ++ "\"" := by
  have rejected : read (some "$env = 'prod'") = .error ⟨"$env = 'prod'", 5, ""⟩ := by
    rfl
  refine ⟨rejected, ?_⟩
  exact (problem_of_rejected rejected).2.1 (by decide)

/-- A literal with a space in it is refused with the end of the condition as the problem,
although the text goes on. -/
theorem problem_eq_end_within_literal :
    ∃ fault, read (some "'a b' == $c") = .error fault ∧
      fault.problem = "unexpected end of condition" ∧ fault.offset ≠ "'a b' == $c".length :=
  ⟨⟨"'a b' == $c", 2, ""⟩, rfl, by decide, by decide⟩

end Condition
end Consignment
