import Consignment.Value.Basic

namespace Consignment
namespace Value

/-!
# Whether two values are the same

Values of documents that are made of texts, integers and truth values can be compared, so
that a round trip of such a document can be evaluated.  Values of other kinds are not
compared: floating-point numbers have no equality that is an identity.
-/

mutual

/-- Whether two values of comparable kinds are the same. -/
def agrees : Value → Value → Bool
  | .null, .null => true
  | .bool a, .bool b => a == b
  | .int a, .int b => a == b
  | .text a, .text b => a == b
  | .list first, .list second => itemsAgree first second
  | .map first, .map second => entriesAgree first second
  | _, _ => false

def itemsAgree : List Value → List Value → Bool
  | [], [] => true
  | a :: first, b :: second => agrees a b && itemsAgree first second
  | _, _ => false

def entriesAgree : List (Value × Value) → List (Value × Value) → Bool
  | [], [] => true
  | (key, a) :: first, (other, b) :: second =>
    agrees key other && agrees a b && entriesAgree first second
  | _, _ => false

end

/-- Values that agree are the same. -/
theorem eq_of_agrees {v w : Value} : agrees v w = true → v = w := by
  -- the cases are those of the three definitions, the last of each being "anything else"
  apply agrees.induct (fun v w => agrees v w = true → v = w)
    (fun first second => entriesAgree first second = true → first = second)
    (fun first second => itemsAgree first second = true → first = second)
  case case1 | case8 | case11 => exact fun _ => rfl
  case case2 | case3 | case4 =>
    intro a b same
    rw [agrees, beq_iff_eq] at same
    rw [same]
  case case5 | case6 =>
    intro first second inside same
    rw [agrees] at same
    rw [inside same]
  case case9 =>
    intro a first b second inside later same
    rw [itemsAgree, Bool.and_eq_true] at same
    rw [inside same.1, later same.2]
  case case12 =>
    intro key a first other b second keys inside later same
    rw [entriesAgree, Bool.and_eq_true, Bool.and_eq_true] at same
    rw [keys same.1.1, inside same.1.2, later same.2]
  case case7 =>
    intros
    simp_all [agrees]
  case case10 =>
    intros
    simp_all [itemsAgree]
  case case13 =>
    intros
    simp_all [entriesAgree]

end Value
end Consignment
