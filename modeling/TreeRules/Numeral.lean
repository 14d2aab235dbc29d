import TreeRules.Rule
import TreeRules.Tree.Host

/-!
Trees of integers, as a host of their own. A node counts how often it was rebuilt; rules pick nodes
by the residue of their integer and put other integers in their place.
-/

namespace TreeRules

structure Numeral where
  value : Int64
  rebuilt : Nat := 0
deriving DecidableEq, Repr

/-- A rebuilt node keeps its integer and counts one more time. -/
instance : Relabel Numeral := ⟨fun numeral => { numeral with rebuilt := numeral.rebuilt + 1 }⟩

abbrev NumeralTree := Tree Numeral

namespace Numeral

/-- The residue modulo three, which is 0, 1 or 2 for negative integers too. -/
def residue (numeral : Numeral) : Nat := (numeral.value.toInt % 3).toNat

end Numeral

namespace NumeralTree

/-- The node itself for a zero, else a new node with a shifted integer over the same children. -/
def shift (node : NumeralTree) (delta : Int64) : StateM Supply NumeralTree :=
  if delta = 0 then return node
  else Tree.create { value := node.label.value + delta } node.children

def shiftEach (node : NumeralTree) : List Int64 → StateM Supply (List NumeralTree)
  | [] => return []
  | delta :: rest => do
    let here ← node.shift delta
    let others ← shiftEach node rest
    return here :: others

/-- The rule that puts one shifted node for every delta in the place of a node of the residue. -/
def rule (name : String) (residue : Nat) (deltas : List Int64) : Rule Unit Empty NumeralTree where
  name := name
  wants node := return node.label.residue == residue
  visit node := RuleM.create (shiftEach node deltas)

end NumeralTree

end TreeRules
