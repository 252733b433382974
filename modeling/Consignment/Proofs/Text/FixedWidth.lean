import Consignment.Text.Digits
import Mathlib.Data.List.Forall2
import Mathlib.Data.List.Lex
import Mathlib.Data.String.Basic

namespace Consignment
namespace Text

/-!
# Numbers of a fixed width in order

Texts are compared character by character, numbers by their size.  The two agree on numbers
that are written in one width, because the first digit in which they differ is the most
significant one.  They also agree on rows of such numbers, each row written in the same widths:
a row comes before another one if the first number in which they differ does.

Nothing of this is true of numbers that outgrow their width, and so every statement asks that
they fit.
-/

/-- Two pairs that are ordered alike are also equal alike. -/
theorem eq_iff_of_lt_iff {α β : Type} [LinearOrder α] [LinearOrder β] {x y : α} {x' y' : β}
    (less : x < y ↔ x' < y') (more : y < x ↔ y' < x') : x = y ↔ x' = y' := by
  rw [eq_iff_le_not_lt, eq_iff_le_not_lt, ← not_lt, ← not_lt, less, more]

/-- Fronts of one length are compared first, and then the rest. -/
theorem append_lt_append_iff {front front' : List Char} (width : front.length = front'.length)
    (rest rest' : List Char) :
    front ++ rest < front' ++ rest' ↔ front < front' ∨ front = front' ∧ rest < rest' := by
  induction front generalizing front' with
  | nil =>
    cases front' with
    | nil => simp
    | cons c others => cases width
  | cons c others ih =>
    cases front' with
    | nil => cases width
    | cons c' others' =>
      have shorter : others.length = others'.length := Nat.succ.inj width
      simp only [List.cons_append, List.cons_lt_cons_iff, ih shorter, List.cons.injEq]
      constructor
      · rintro (less | ⟨same, less | ⟨sames, less⟩⟩)
        · exact .inl (.inl less)
        · exact .inl (.inr ⟨same, less⟩)
        · exact .inr ⟨⟨same, sames⟩, less⟩
      · rintro ((less | ⟨same, less⟩) | ⟨⟨same, sames⟩, less⟩)
        · exact .inl less
        · exact .inr ⟨same, .inl less⟩
        · exact .inr ⟨same, .inr ⟨sames, less⟩⟩

/-! ## Numbers -/

/-- The quotient is compared first, and then the remainder. -/
theorem div_lt_or_mod_lt_iff (m n base : Nat) :
    m / base < n / base ∨ m / base = n / base ∧ m % base < n % base ↔ m < n := by
  have whole := Nat.div_add_mod m base
  have whole' := Nat.div_add_mod n base
  constructor
  · rintro (less | ⟨same, less⟩)
    · exact Nat.lt_of_div_lt_div less
    · rw [← whole, ← whole', same]
      exact Nat.add_lt_add_left less _
  · intro less
    have front : m / base ≤ n / base := Nat.div_le_div_right (Nat.le_of_lt less)
    rcases Nat.lt_or_eq_of_le front with front | same
    · exact .inl front
    · refine .inr ⟨same, ?_⟩
      rw [← whole, ← whole', same] at less
      exact Nat.lt_of_add_lt_add_left less

section fixedDigits

variable {digit : Nat → Char} {base : Nat} (ascending : ∀ m n, m < n → n < base → digit m < digit n)
include ascending

theorem digit_lt_iff {m n : Nat} (small : m < base) (small' : n < base) :
    digit m < digit n ↔ m < n := by
  refine ⟨fun less => ?_, fun less => ascending m n less small'⟩
  by_contra notLess
  rcases Nat.eq_or_lt_of_le (Nat.not_lt.mp notLess) with rfl | more
  · exact Char.lt_irrefl _ less
  · exact Char.lt_asymm less (ascending n m more small)

/-- Numbers of one width are compared like their digits. -/
theorem fixedDigits_lt_iff {width m n : Nat} (fits : m < base ^ width) (fits' : n < base ^ width) :
    fixedDigits digit base width m < fixedDigits digit base width n ↔ m < n := by
  induction width generalizing m n with
  | zero =>
    rw [Nat.pow_zero, Nat.lt_one_iff] at fits fits'
    subst fits fits'
    simp
  | succ width ih =>
    have some : 0 < base := Nat.pos_of_ne_zero fun none => by simp [none] at fits
    have front (k : Nat) (fits : k < base ^ (width + 1)) : k / base < base ^ width :=
      Nat.div_lt_of_lt_mul (by rwa [Nat.pow_succ, Nat.mul_comm] at fits)
    have less := ih (front m fits) (front n fits')
    have more := ih (front n fits') (front m fits)
    have same : fixedDigits digit base width (m / base) = fixedDigits digit base width (n / base) ↔
        m / base = n / base := eq_iff_of_lt_iff less more
    have last : [digit (m % base)] < [digit (n % base)] ↔ m % base < n % base := by
      rw [List.cons_lt_cons_iff,
        digit_lt_iff ascending (Nat.mod_lt m some) (Nat.mod_lt n some)]
      simp
    rw [fixedDigits, fixedDigits, append_lt_append_iff (by simp), less, same, last]
    exact div_lt_or_mod_lt_iff m n base

end fixedDigits

theorem digitChar_ascending (m n : Nat) (less : m < n) (small : n < 10) :
    Nat.digitChar m < Nat.digitChar n := by
  have each : ∀ n : Fin 10, ∀ m : Fin 10, m < n → Nat.digitChar m < Nat.digitChar n := by decide
  exact each ⟨n, small⟩ ⟨m, Nat.lt_trans less small⟩ less

/-- A number that fits its width is filled with zeros up to the width. -/
theorem paddedDecimal_eq_fixedDigits {width n : Nat} (fits : n < 10 ^ (width + 1)) :
    paddedDecimal (width + 1) n = fixedDigits Nat.digitChar 10 (width + 1) n := by
  have written (n : Nat) : (toString n).toList = Nat.toDigits 10 n := Nat.toList_repr
  simp only [paddedDecimal, written]
  induction width generalizing n with
  | zero =>
    have digit : n < 10 := by simpa using fits
    rw [Nat.toDigits_of_lt_base digit]
    simp [fixedDigits, Nat.mod_eq_of_lt digit]
  | succ width ih =>
    have front : n / 10 < 10 ^ (width + 1) :=
      Nat.div_lt_of_lt_mul (by rwa [Nat.pow_succ, Nat.mul_comm] at fits)
    rw [fixedDigits, ← ih front]
    rcases Nat.lt_or_ge n 10 with digit | more
    · rw [Nat.toDigits_of_lt_base digit, Nat.div_eq_of_lt digit, Nat.mod_eq_of_lt digit,
        Nat.toDigits_zero]
      simp [List.replicate_succ']
    · rw [Nat.toDigits_of_base_le (by decide) more]
      simp

theorem paddedDecimal_lt_iff {width m n : Nat} (some : 0 < width) (fits : m < 10 ^ width)
    (fits' : n < 10 ^ width) : paddedDecimal width m < paddedDecimal width n ↔ m < n := by
  rcases Nat.exists_eq_add_one_of_ne_zero (Nat.ne_of_gt some) with ⟨width, rfl⟩
  rw [paddedDecimal_eq_fixedDigits fits, paddedDecimal_eq_fixedDigits fits']
  exact fixedDigits_lt_iff digitChar_ascending fits fits'

theorem paddedDecimal_inj {width m n : Nat} (some : 0 < width) (fits : m < 10 ^ width)
    (fits' : n < 10 ^ width) : paddedDecimal width m = paddedDecimal width n ↔ m = n :=
  eq_iff_of_lt_iff (paddedDecimal_lt_iff some fits fits') (paddedDecimal_lt_iff some fits' fits)

theorem length_paddedDecimal {width n : Nat} (some : 0 < width) (fits : n < 10 ^ width) :
    (paddedDecimal width n).length = width := by
  rcases Nat.exists_eq_add_one_of_ne_zero (Nat.ne_of_gt some) with ⟨width, rfl⟩
  rw [paddedDecimal_eq_fixedDigits fits, length_fixedDigits]

/-! ## Rows of numbers -/

/-- Numbers in the widths that are given for them, a point before each. -/
def dotted : List Nat → List Nat → List Char
  | width :: widths, n :: numbers => '.' :: paddedDecimal width n ++ dotted widths numbers
  | _, _ => []

/-- There is one width for every number, and the number fits it. -/
def FitWidths (widths numbers : List Nat) : Prop :=
  List.Forall₂ (fun width n => 0 < width ∧ n < 10 ^ width) widths numbers

/-- Rows in one list of widths are compared like the lists of their numbers. -/
theorem dotted_lt_iff {widths row row' : List Nat} (fits : FitWidths widths row)
    (fits' : FitWidths widths row') : dotted widths row < dotted widths row' ↔ row < row' := by
  induction fits generalizing row' with
  | nil =>
    cases fits'
    simp [dotted]
  | @cons width n widths row fit fits ih =>
    rcases fits' with _ | ⟨fit', fits'⟩
    have length : (paddedDecimal width n).length = _ :=
      (length_paddedDecimal fit.1 fit.2).trans (length_paddedDecimal fit.1 fit'.2).symm
    simp only [dotted, List.cons_append, List.cons_lt_cons_iff, Char.lt_irrefl, false_or, true_and,
      append_lt_append_iff length, paddedDecimal_lt_iff fit.1 fit.2 fit'.2,
      paddedDecimal_inj fit.1 fit.2 fit'.2, ih fits']

end Text
end Consignment
