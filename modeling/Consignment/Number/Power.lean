namespace Consignment
namespace Number

/-!
# Powers of two and ten

Binary and decimal forms of a number are compared by bringing both to whole numbers, and
the factors for that are these powers.
-/

def twoTo (exponent : Nat) : Nat :=
  Nat.pow 2 exponent

def tenTo (exponent : Nat) : Nat :=
  Nat.pow 10 exponent

end Number
end Consignment
