/-!
# Powers of two and ten

Binary numbers are scaled by powers of two, decimal ones by powers of ten.
-/

set_option autoImplicit false

namespace CohortQuery.Decimal

def twoTo (n : Nat) : Nat := Nat.pow 2 n

def tenTo (n : Nat) : Nat := Nat.pow 10 n

end CohortQuery.Decimal
