import TreeRules.Log.Level

/-!
Thresholds: from which level on messages are written, and how a threshold is read from its rank or
its name.
-/

namespace TreeRules.Log

/-- The least urgent level that is written, or none for nothing at all. -/
abbrev Threshold := Option Level

namespace Threshold

def admits (threshold : Threshold) (level : Level) : Bool :=
  threshold.any fun least => level.rank ≤ least.rank

/-- The threshold of a rank, zero standing for nothing. -/
def ofRank? (rank : Nat) : Option Threshold :=
  if rank = 0 then some none else (Level.all.find? (·.rank == rank)).map some

def digitsValue? (digits : List Char) : Option Nat :=
  if digits.isEmpty || !digits.all Char.isDigit then none
  else some (digits.foldl (fun value d => value * 10 + (d.toNat - 48)) 0)

/-- A number in digits, with an optional plus sign before it. -/
def rankOf? (text : String) : Option Nat :=
  match text.toList with
  | '+' :: digits => digitsValue? digits
  | digits => digitsValue? digits

/-- The threshold of a level's name, in letters of either case. -/
def ofName? (text : String) : Option Threshold :=
  let name := text.map Char.toUpper
  if name = "OFF" then some none else (Level.all.find? (·.name == name)).map some

/-- Reads a threshold: a rank from 0 to 5, or a name. -/
def ofText? (text : String) : Option Threshold :=
  match (rankOf? text).bind ofRank? with
  | some threshold => some threshold
  | none => ofName? text

end Threshold

end TreeRules.Log
