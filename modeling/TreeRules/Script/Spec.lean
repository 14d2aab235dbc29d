import TreeRules.Node.Blueprint

/-!
Scripted rules: which nodes a rule wants and what it does with them, as data.
-/

namespace TreeRules.Script

/-- What a node must fulfil to be wanted; a condition that is not given holds of every node. -/
structure Conditions where
  kinds : Option (List Kind) := none
  texts : Option (List String) := none
  hasText : Option Bool := none
  /-- The least and the greatest number of children. -/
  arity : Option (Nat × Nat) := none
  /-- Whether the text is among the symbols of the context. -/
  known : Option Bool := none
  /-- How many visits an instance makes before it wants nothing more. -/
  limit : Option Nat := none

/-- A step of a visit. Every step appends nodes to the result. -/
inductive Action where
  | self
  /-- A new object with the same label around the same child objects. -/
  | copy
  | text (text : String)
  | append (suffix : String)
  /-- A text that ends in the instance's own counter, which then goes up. -/
  | number (stem : String)
  /-- A text that ends in the context's counter, which then goes up. -/
  | shared (stem : String)
  /-- The node as the only child of a new node. -/
  | wrap (kind : Kind)
  | kind (kind : Kind)
  | unwrap
  | withChildren (children : List NodeBlueprint)
  | push (child : NodeBlueprint)
  | unshift (child : NodeBlueprint)
  | reverse
  /-- The node without the child at a place. -/
  | drop (index : Nat)
  /-- The child at a place, if there is one. -/
  | child (index : Nat)
  | tree (tree : NodeBlueprint)
  /-- Nothing; the node's text becomes a symbol of the context. -/
  | collect

/-- A failure that comes after a number of visits. -/
structure Failure where
  after : Nat
  message : String

structure Spec where
  name : String := ""
  conditions : Conditions := {}
  failure : Option Failure := none
  actions : List Action := []

namespace Spec

def idle : Spec where
  conditions := { kinds := some [] }

end Spec

end TreeRules.Script
