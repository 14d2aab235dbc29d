import TreeRules.Tree.Supply

/-!
Blueprints: descriptions of trees that say which objects are shared. Building one twice makes two
equal trees of different objects.
-/

namespace TreeRules

inductive Blueprint (α : Type) where
  | node (label : α) (children : List (Blueprint α))
  /-- The inner tree under `count` nodes of one child each. -/
  | chain (label : α) (count : Nat) (inner : Blueprint α)
  /-- One node whose `count` children are the very same object. -/
  | shared (label : α) (count : Nat) (child : Blueprint α)
  /-- The tree once more, as a new root object with another label around the same children. -/
  | relabel (change : α → α) (tree : Blueprint α)
  /-- The root of the tree once more, as a new object with other children. -/
  | withChildren (tree : Blueprint α) (children : List (Blueprint α))

namespace Blueprint

variable {α : Type}

/-- Puts a tree under `count` nodes of one child each. -/
def wrap (label : α) : Nat → Tree α → StateM Supply (Tree α)
  | 0, tree => return tree
  | count + 1, tree => do wrap label count (← Tree.create label [tree])

mutual

def build : Blueprint α → StateM Supply (Tree α)
  | node label children => do Tree.create label (← buildEach children)
  | chain label count inner => do wrap label count (← build inner)
  | shared label count child => do
    let child ← build child
    Tree.create label (List.replicate count child)
  | relabel change tree => do
    let tree ← build tree
    tree.relabel (change tree.label)
  | withChildren tree children => do
    let tree ← build tree
    Tree.create tree.label (← buildEach children)

def buildEach : List (Blueprint α) → StateM Supply (List (Tree α))
  | [] => return []
  | tree :: rest => do
    let here ← build tree
    let others ← buildEach rest
    return here :: others

end

end Blueprint

end TreeRules
