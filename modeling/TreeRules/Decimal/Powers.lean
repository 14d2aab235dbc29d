/-!
Powers of the two bases that numbers are written in.
-/

namespace TreeRules.Decimal

def twoTo (power : Nat) : Nat := Nat.pow 2 power

def tenTo (power : Nat) : Nat := Nat.pow 10 power

end TreeRules.Decimal
