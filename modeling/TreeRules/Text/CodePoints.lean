/-!
Sets of characters, given by the ranges of their code points. The tables of this library are those of
version 17 of the Unicode standard.
-/

namespace TreeRules.Text

/-- Ranges of code points, both ends included. -/
abbrev CodePoints := List (Nat × Nat)

def CodePoints.contains (ranges : CodePoints) (c : Char) : Bool :=
  ranges.any fun range => range.1 ≤ c.toNat && c.toNat ≤ range.2

end TreeRules.Text
