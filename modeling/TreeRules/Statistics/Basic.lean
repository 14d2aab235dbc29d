import TreeRules.Statistics.Table

/-!
What happened while nodes were dispatched: how many nodes entered the rule list, how many were
deleted or inserted, and the counts of every rule. Rules of one name share one entry.
-/

namespace TreeRules

structure Statistics where
  dispatched : Nat := 0
  deleted : Nat := 0
  inserted : Nat := 0
  rules : CountTable := {}
deriving DecidableEq

namespace Statistics

/-- A node entered the rule list. -/
def recordDispatch (statistics : Statistics) : Statistics :=
  { statistics with dispatched := statistics.dispatched + 1 }

/-- The rule `name` was asked about a node. -/
def recordOffer (statistics : Statistics) (name : String) : Statistics :=
  { statistics with rules := statistics.rules.bump name RuleCounts.addOffer }

/-- The rule `name` replaced one node by `emitted` nodes: none is a deletion, each one beyond the
first is an insertion. -/
def recordVisit (statistics : Statistics) (name : String) (emitted : Nat) : Statistics :=
  { statistics with
    deleted := statistics.deleted + (if emitted = 0 then 1 else 0)
    inserted := statistics.inserted + (emitted - 1)
    rules := statistics.rules.bump name (RuleCounts.addVisit emitted) }

/-- The counts of the rule `name`, if it was ever recorded. -/
def rule? (statistics : Statistics) (name : String) : Option RuleCounts :=
  statistics.rules.get? name

/-- The number of recorded visits, over all rules. -/
def totalMatches (statistics : Statistics) : Nat :=
  statistics.rules.totalMatched

end Statistics

end TreeRules
