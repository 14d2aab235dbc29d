import TreeRules.Text.Display

/-!
What a unit became: the nodes its root was replaced by.
-/

namespace TreeRules

open Text (Display)

inductive UnitOutput (N : Type) where
  | single (root : N)
  | deleted
  | expanded (nodes : List N)
deriving BEq

namespace UnitOutput

variable {N : Type}

def ofNodes : List N → UnitOutput N
  | [] => deleted
  | [root] => single root
  | nodes => expanded nodes

def root? : UnitOutput N → Option N
  | single root => some root
  | deleted | expanded _ => none

def nodes : UnitOutput N → List N
  | single root => [root]
  | deleted => []
  | expanded nodes => nodes

def isDeleted : UnitOutput N → Bool
  | deleted => true
  | single _ | expanded _ => false

@[simp]
theorem nodes_ofNodes (nodes : List N) : (ofNodes nodes).nodes = nodes := by
  match nodes with
  | [] | [_] | _ :: _ :: _ => rfl

def caseName : UnitOutput N → String
  | single _ => "Rewritten"
  | deleted => "Deleted"
  | expanded _ => "Expanded"

def display (displayNode : N → Display) (output : UnitOutput N) : Display :=
  match output with
  | single root => .apply output.caseName [displayNode root]
  | deleted => .word output.caseName
  | expanded nodes => .apply output.caseName [.list (nodes.map displayNode)]

end UnitOutput

end TreeRules
