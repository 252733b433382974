import Consignment.Proofs.Outcome
import Consignment.Proofs.Path
import Consignment.Proofs.Value.Showable
import Consignment.Proofs.Yaml.Folding
import Consignment.Yaml.Scalar

namespace Consignment
namespace Yaml

/-!
# Integers and their texts

An integer is written in decimal, without marks.  Its text has the shape of an integer and of
nothing else that a scalar can be, and it is read back as the integer, unless it has too many digits
to be written in the first place.
-/

/-! ## Digits -/

/-- The text of a number, with a sign before it if it is less than zero. -/
theorem toList_decimal (n : Int) :
    (Text.decimal n).toList = (if n < 0 then ['-'] else []) ++ Nat.toDigits 10 n.natAbs := by
  unfold Text.decimal
  cases n with
  | ofNat n => simp
  | negSucc n => simp [Int.negSucc_lt_zero]

theorem isDigit_toDigits {n : Nat} {c : Char} (mem : c ∈ Nat.toDigits 10 n) : c.isDigit = true :=
  Nat.isDigit_of_mem_toDigits (by decide) (Nat.le_refl 10) mem

/-- A number has no zero in front. -/
theorem head?_toDigits {n : Nat} (positive : 0 < n) : (Nat.toDigits 10 n).head? ≠ some '0' := by
  induction n using Nat.strongRecOn with
  | _ n ih =>
    rw [Nat.toDigits_eq_if (by decide)]
    split
    · rw [List.head?_cons, ne_eq, Option.some.injEq, Nat.digitChar_eq_zero]
      exact positive.ne'
    · rename_i large
      have fewer := ih (n / 10) (Nat.div_lt_self positive (by decide)) (Nat.div_pos (by omega) (by decide))
      rwa [List.head?_append_of_ne_nil _ Nat.toDigits_ne_nil]

/-- A character that the text of an integer can hold. -/
theorem mem_decimal {n : Int} {c : Char} (mem : c ∈ (Text.decimal n).toList) :
    c = '-' ∨ c.isDigit = true := by
  rw [toList_decimal, List.mem_append] at mem
  rcases mem with sign | digit
  · split at sign
    · exact .inl (List.mem_singleton.mp sign)
    · cases sign
  · exact .inr (isDigit_toDigits digit)

theorem eq_digitChar {c : Char} (digit : c.isDigit = true) : ∃ m : Fin 10, c = Nat.digitChar m := by
  have bounds : 48 ≤ c.toNat ∧ c.toNat ≤ 57 := by
    simp only [Char.isDigit, Bool.and_eq_true, decide_eq_true_eq, UInt32.le_iff_toNat_le] at digit
    exact digit
  refine ⟨⟨c.toNat - 48, by omega⟩, Char.toNat_inj.mp ?_⟩
  rw [Nat.toNat_digitChar_of_lt_ten (by simp only; omega)]
  simp only
  omega

/-- What no digit and no sign satisfies, no character of an integer's text does. -/
theorem forall_decimal (test : Char → Bool) {n : Int}
    (none : test '-' = false ∧ ∀ m : Fin 10, test (Nat.digitChar m) = false) {c : Char}
    (mem : c ∈ (Text.decimal n).toList) : test c = false := by
  rcases mem_decimal mem with rfl | digit
  · exact none.1
  · rcases eq_digitChar digit with ⟨m, rfl⟩
    exact none.2 m

theorem notMem_decimal {n : Int} (c : Char) (other : c ≠ '-' ∧ c.isDigit = false) :
    c ∉ (Text.decimal n).toList := by
  intro mem
  rcases mem_decimal mem with same | digit
  · exact other.1 same
  · rw [other.2] at digit
    cases digit

theorem dropSign_decimal (n : Int) :
    dropSign (Text.decimal n).toList = Nat.toDigits 10 n.natAbs := by
  rw [toList_decimal]
  split
  · rfl
  · cases held : Nat.toDigits 10 n.natAbs with
    | nil => rfl
    | cons c rest =>
      have digit : c.isDigit = true := isDigit_toDigits (n := n.natAbs) (by rw [held]; simp)
      rw [List.nil_append]
      unfold dropSign
      split
      · rename_i same
        cases same
        cases digit
      · rename_i same
        cases same
        cases digit
      · rfl

/-! ## The tag of an integer's text -/

/-- The first character of an integer's text. -/
theorem front_decimal (n : Int) :
    ∃ c rest, (Text.decimal n).toList = c :: rest ∧ (c = '-' ∨ c.isDigit = true) := by
  cases held : (Text.decimal n).toList with
  | nil =>
    rw [toList_decimal, List.append_eq_nil_iff] at held
    exact absurd held.2 Nat.toDigits_ne_nil
  | cons c rest => exact ⟨c, rest, rfl, mem_decimal (n := n) (by rw [held]; simp)⟩

/-- An integer's text is none of some words that begin otherwise. -/
theorem notMem_words {words : List String} (n : Int)
    (other : words.all (fun word => word.toList.head?.all fun c => c != '-' && !c.isDigit) = true) :
    Text.decimal n ∉ words := by
  intro mem
  rcases front_decimal n with ⟨c, rest, held, front⟩
  have apart : c ≠ '-' ∧ c.isDigit = false := by
    have here := List.all_eq_true.mp other _ mem
    rw [held] at here
    simpa using here
  rcases front with same | digit
  · exact apart.1 same
  · rw [apart.2] at digit
    cases digit

theorem isInteger_decimal (n : Int) : isInteger (Text.decimal n).toList = true := by
  unfold isInteger
  rw [dropSign_decimal]
  rcases Nat.eq_zero_or_pos n.natAbs with zero | positive
  · rw [zero, Nat.toDigits_zero]
    rfl
  · have front := head?_toDigits positive
    have colon : ':' ∉ Nat.toDigits 10 n.natAbs := fun mem => absurd (isDigit_toDigits mem) (by decide)
    have digits : isSpacedNumber (Nat.toDigits 10 n.natAbs) = true := by
      cases held : Nat.toDigits 10 n.natAbs with
      | nil => exact absurd held Nat.toDigits_ne_nil
      | cons c rest =>
        have each (d : Char) (mem : d ∈ c :: rest) : d.isDigit = true :=
          isDigit_toDigits (n := n.natAbs) (held ▸ mem)
        simp only [isSpacedNumber, Bool.and_eq_true, List.all_eq_true, isSpacedDigit, Bool.or_eq_true]
        exact ⟨each c List.mem_cons_self, fun d mem => .inl (each d (List.mem_cons_of_mem c mem))⟩
    split
    · rfl
    · rename_i same
      exact absurd (by rw [same]; rfl) front
    · rename_i same
      exact absurd (by rw [same]; rfl) front
    · rename_i same
      exact absurd (by rw [same]; rfl) front
    · rw [Text.splitAt_of_plain colon]
      simp [digits]

theorem isFloat_decimal (n : Int) : isFloat (Text.decimal n).toList = false := by
  have points (word : String) (point : '.' ∈ word.toList) :
      Text.decimal n ≠ word ∧ String.ofList (Nat.toDigits 10 n.natAbs) ≠ word := by
    constructor
    · rintro rfl
      exact absurd (mem_decimal point) (by decide)
    · intro same
      rw [← same, String.toList_ofList] at point
      exact absurd (isDigit_toDigits point) (by decide)
  have point : '.' ∉ Nat.toDigits 10 n.natAbs := fun mem => absurd (isDigit_toDigits mem) (by decide)
  unfold isFloat
  dsimp only
  rw [dropSign_decimal, String.ofList_toList, if_neg, if_neg, if_pos]
  · simpa using point
  · simp [(points ".nan" (by decide)).1, (points ".NaN" (by decide)).1, (points ".NAN" (by decide)).1]
  · simp [(points ".inf" (by decide)).2, (points ".Inf" (by decide)).2, (points ".INF" (by decide)).2]

/-- The shape of an integer's text gives it the tag of integers. -/
theorem implicitTag_decimal (n : Int) : implicitTag (Text.decimal n).toList = .int := by
  have feed : '\n' ∉ (Text.decimal n).toList := notMem_decimal '\n' (by decide)
  have shape : dropLastLineFeed (Text.decimal n).toList = (Text.decimal n).toList := by
    unfold dropLastLineFeed
    rw [if_neg]
    intro last
    exact feed (List.mem_of_getLast? (beq_iff_eq.mp last))
  unfold implicitTag
  dsimp only
  rw [shape, String.ofList_toList, if_neg, if_neg, isFloat_decimal, if_neg Bool.false_ne_true,
    isInteger_decimal, if_pos rfl]
  · rw [List.contains_iff_mem]
    exact notMem_words n (by decide)
  · intro same
    rw [beq_iff_eq] at same
    exact feed (by rw [same]; simp)

/-- No integer's text begins a structure: a sign has a digit after it. -/
theorem startsStructure_decimal (n : Int) : startsStructure (Text.decimal n).toList = false := by
  cases digits : Nat.toDigits 10 n.natAbs with
  | nil => exact absurd digits Nat.toDigits_ne_nil
  | cons d rest =>
    have digit : d.isDigit = true := isDigit_toDigits (n := n.natAbs) (by rw [digits]; simp)
    rcases eq_digitChar digit with ⟨m, rfl⟩
    have shown := toList_decimal n
    rw [digits] at shown
    rw [shown]
    have unmarked : ∀ m : Fin 10,
        "#,[]\x7b\x7d&*!|>\x27\x22%@\x60".toList.contains (Nat.digitChar m) = false ∧
          Nat.digitChar m ≠ '?' ∧ Nat.digitChar m ≠ ':' ∧ Nat.digitChar m ≠ '-' ∧
          Nat.digitChar m ≠ '.' ∧ isSpaceOrEnd (Nat.digitChar m) = false := by decide
    have front := unmarked m
    split
    · simp [startsStructure, front]
    · simp [startsStructure, front]
      exact m.isLt.trans (by decide)

theorem allowsPlain_decimal (n : Int) : allowsPlain (Text.decimal n).toList = true := by
  have absent (c : Char) (other : c ≠ '-' ∧ c.isDigit = false) : c ∉ (Text.decimal n).toList :=
    notMem_decimal c other
  have inline : isMultiline (Text.decimal n).toList = false :=
    List.any_eq_false.mpr fun c mem => by simp [forall_decimal isLineMark (by decide) mem]
  have clean : (Text.decimal n).toList.any isSpecial = false :=
    List.any_eq_false.mpr fun c mem => by simp [forall_decimal isSpecial (by decide) mem]
  have first : (Text.decimal n).toList.head? ≠ some ' ' :=
    fun same => absent ' ' (by decide) (List.mem_of_mem_head? same)
  have last (c : Char) (other : c ≠ '-' ∧ c.isDigit = false) :
      (Text.decimal n).toList.getLast? ≠ some c :=
    fun same => absent c other (List.mem_of_getLast? same)
  have apart (test : Char → Char → Bool)
      (none : ∀ a ∈ (Text.decimal n).toList, ∀ b ∈ (Text.decimal n).toList, test a b = false) :
      anyNeighbours test (Text.decimal n).toList = false := by
    rw [anyNeighbours_eq_false]
    exact (List.pairwise_of_forall_mem_list none).isChain
  have colons : anyNeighbours (fun a b => a == ':' && isSpaceOrEnd b) (Text.decimal n).toList.tail =
      false := by
    have whole := apart (fun a b => a == ':' && isSpaceOrEnd b) fun a mem b _ => by
      simp [forall_decimal (· == ':') (by decide) mem]
    rw [anyNeighbours_eq_false] at whole ⊢
    exact whole.tail
  have signs : anyNeighbours (fun a b => isSpaceOrEnd a && b == '#') (Text.decimal n).toList = false :=
    apart _ fun a _ b mem => by simp [forall_decimal (· == '#') (by decide) mem]
  simp [allowsPlain, holdsStructure, first, last ' ' (by decide), last ':' (by decide), inline, clean,
    startsStructure_decimal, colons, signs]

/-- Integers are written without marks. -/
theorem styleOf_decimal (n : Int) : styleOf .int (Text.decimal n).toList = .plain := by
  unfold styleOf
  rw [if_neg (by simp), implicitTag_decimal, allowsPlain_decimal]
  rfl

/-! ## The integer of a text -/

theorem digitIn_digitChar (m : Fin 10) :
    (Nat.digitChar m == '_') = false ∧ Number.digitIn 10 (Nat.digitChar m) = some m.val ∧
      Nat.digitChar m.val ≠ '-' ∧ Nat.digitChar m.val ≠ '+' ∧
      Number.isIntegerBlank (Nat.digitChar m) = false := by
  revert m
  decide

theorem ne_sign_of_isDigit {c : Char} (digit : c.isDigit = true) : c ≠ '-' ∧ c ≠ '+' := by
  rcases eq_digitChar digit with ⟨m, rfl⟩
  exact ⟨(digitIn_digitChar m).2.2.1, (digitIn_digitChar m).2.2.2.1⟩

/-- Digits are read one by one. -/
theorem digitsIn_digits {digits : List Char} (each : ∀ c ∈ digits, c.isDigit = true) (value count : Nat)
    (afterDigit : Bool) (some : afterDigit = true ∨ digits ≠ []) :
    Number.digitsIn 10 afterDigit value count digits =
      .some (Nat.ofDigitChars 10 digits value, count + digits.length) := by
  induction digits generalizing value count afterDigit with
  | nil =>
    rw [Number.digitsIn, if_pos (some.resolve_right fun none => none rfl)]
    rfl
  | cons c rest ih =>
    rcases eq_digitChar (each c List.mem_cons_self) with ⟨m, rfl⟩
    have digit := digitIn_digitChar m
    rw [Number.digitsIn, digit.1, if_neg Bool.false_ne_true, digit.2.1]
    dsimp only
    rw [ih (fun c mem => each c (List.mem_cons_of_mem _ mem)) _ _ true (.inl rfl),
      Nat.ofDigitChars_cons_digitChar_of_lt_ten m.isLt, Nat.mul_comm value, List.length_cons,
      Nat.add_right_comm, Nat.add_assoc]

theorem length_toDigits_le {n most : Nat} (positive : 0 < most) (short : n < Number.tenTo most) :
    (Nat.toDigits 10 n).length ≤ most :=
  (Nat.length_toDigits_le_iff (by decide) positive).mpr short

theorem readInteger_toDigits {n : Nat} (short : n < Number.tenTo Number.maxDecimalDigits) :
    Number.readInteger 10 (Nat.toDigits 10 n) = .ok (n : Int) := by
  have each (c : Char) (mem : c ∈ Nat.toDigits 10 n) : c.isDigit = true := isDigit_toDigits mem
  have trimmed : Number.trimInteger (Nat.toDigits 10 n) = Nat.toDigits 10 n := by
    have blank (c : Char) (mem : c ∈ Nat.toDigits 10 n) : ¬ Number.isIntegerBlank c = true := by
      rcases eq_digitChar (each c mem) with ⟨m, rfl⟩
      simp [(digitIn_digitChar m).2.2.2.2]
    have front := List.dropWhile_eq_self_iff.mpr fun long => blank _ (List.getElem_mem long)
    have back := List.dropWhile_eq_self_iff.mpr fun long =>
      blank _ (List.mem_reverse.mp (List.getElem_mem long))
    rw [Number.trimInteger, front, back, List.reverse_reverse]
  have unsigned : Number.takeSign (Nat.toDigits 10 n) = (false, Nat.toDigits 10 n) := by
    have front (c : Char) (first : (Nat.toDigits 10 n).head? = some c) :=
      ne_sign_of_isDigit (each c (List.mem_of_mem_head? first))
    unfold Number.takeSign
    split
    · rename_i same
      exact absurd rfl (front '-' (by rw [same]; rfl)).1
    · rename_i same
      exact absurd rfl (front '+' (by rw [same]; rfl)).2
    · rfl
  have unmarked : Number.dropMarker 10 (Nat.toDigits 10 n) = Nat.toDigits 10 n := by
    unfold Number.dropMarker
    split
    · rw [if_neg (by simp [Number.baseLetters])]
      rename_i same
      exact same.symm
    · rfl
  have few := length_toDigits_le (by decide) short
  unfold Number.readInteger
  rw [trimmed, unsigned]
  dsimp only
  rw [unmarked, digitsIn_digits each 0 0 false (.inr Nat.toDigits_ne_nil), Nat.ofDigitChars_ten_toDigits,
    Nat.zero_add]
  dsimp only
  rw [if_neg (fun long => absurd long.2 (Nat.not_lt.mpr few))]
  rfl

/-- A sign and digits of which the first is not zero. -/
theorem readInt_signed {d : Char} {rest : List Char} {m : Int} (negative : Bool)
    (digits : ∀ c ∈ d :: rest, c.isDigit = true) (front : d ≠ '0')
    (read : Number.readInteger 10 (d :: rest) = .ok m) :
    readInt ((if negative then ['-'] else []) ++ d :: rest) =
      .ok (if negative then -m else m) := by
  have other (mark : Char) (letter : mark.isDigit = false) : mark ∉ d :: rest := fun mem => by
    rw [digits mark mem] at letter
    cases letter
  have unsigned := ne_sign_of_isDigit (digits d List.mem_cons_self)
  have plain : (d :: rest).filter (· != '_') = d :: rest :=
    List.filter_eq_self.mpr fun c mem => by
      simpa using fun same : c = '_' => other '_' (by decide) (same ▸ mem)
  have colon : ¬(':' = d ∨ ':' ∈ rest) := by
    simpa using other ':' (by decide)
  unfold readInt
  rw [List.filter_append, plain]
  cases negative with
  | true => simp [front, colon, read, Except.map, Except.mapError]
  | false => simp [front, colon, read, unsigned, Except.map, Except.mapError]

/-- An integer that is short enough to be written out is read back. -/
theorem readInt_decimal {n : Int} (short : (Value.int n).isShowable = true) :
    readInt (Text.decimal n).toList = .ok n := by
  have few : n.natAbs < Number.tenTo Number.maxDecimalDigits := by
    simpa [Value.isShowable] using short
  have read := readInteger_toDigits few
  rcases Nat.eq_zero_or_pos n.natAbs with zero | positive
  · rw [Int.natAbs_eq_zero.mp zero]
    rfl
  have front := head?_toDigits positive
  have shown := toList_decimal n
  cases digits : Nat.toDigits 10 n.natAbs with
  | nil => exact absurd digits Nat.toDigits_ne_nil
  | cons d rest =>
    rw [digits] at shown read front
    have back := readInt_signed (decide (n < 0))
      (fun c mem => isDigit_toDigits (n := n.natAbs) (digits ▸ mem)) (fun same => front (same ▸ rfl)) read
    have value : (if n < 0 then -(n.natAbs : Int) else n.natAbs) = n := by
      split <;> omega
    simp only [decide_eq_true_eq, value] at back
    rwa [shown]

end Yaml
end Consignment
