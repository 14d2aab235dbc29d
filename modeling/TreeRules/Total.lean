/-!
Sums of natural numbers.
-/

namespace TreeRules

def total : List Nat → Nat
  | [] => 0
  | value :: rest => value + total rest

@[simp]
theorem total_nil : total [] = 0 := rfl

@[simp]
theorem total_cons (value : Nat) (rest : List Nat) : total (value :: rest) = value + total rest := rfl

@[simp]
theorem total_append (left right : List Nat) : total (left ++ right) = total left + total right := by
  induction left with
  | nil => simp
  | cons value rest ih => simp [ih, Nat.add_assoc]

end TreeRules
