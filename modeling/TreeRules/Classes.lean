/-!
Sorting the elements of a list into classes of equal ones. A class is named by the place of its
first member.
-/

namespace TreeRules

variable {β : Type} [BEq β]

/-- The class of each value: the first place that holds an equal one. -/
def classes (values : List β) : List Nat :=
  values.map fun value => values.findIdx (· == value)

/-- The number of values that differ from every earlier one. -/
def distinctCount (values : List β) : Nat :=
  (classes values).eraseDups.length

@[simp]
theorem length_classes (values : List β) : (classes values).length = values.length := by
  simp [classes]

end TreeRules
