import TreeRules.Node.Basic

/-!
Names and what they stand for. A variable declaration binds the name it declares to its second
child; of several declarations of one name the first in preorder holds. A name resolves by following
identifiers until something else is reached.
-/

namespace TreeRules.Node

/-- The name that a node binds, and the node it is bound to. -/
def binding? (node : Node) : Option (String × Node) :=
  match node.declaredName, node.children[1]? with
  | some name, some initializer => some (name, initializer)
  | _, _ => none

/-- Keeps the first entry of every name. -/
def firstOfEach : List (String × Node) → List (String × Node)
  | [] => []
  | (name, node) :: rest =>
    (name, node) :: (firstOfEach rest).filter fun entry => entry.1 != name

/-- The bindings of a tree, one for every name that is bound. -/
def bindings (root : Node) : List (String × Node) :=
  firstOfEach (root.preorder.filterMap binding?)

/-- Follows a name for at most `steps` bindings. -/
def follow (bindings : List (String × Node)) : Nat → String → Option String
  | 0, _ => none
  | steps + 1, name =>
    match bindings.lookup name with
    | none => none
    | some initializer =>
      if initializer.kind = .identifier then initializer.text.bind (follow bindings steps)
      else initializer.text

/-- The text that a name stands for. A walk that takes more steps than there are bindings runs in a
circle. -/
def resolve (root : Node) (name : String) : Option String :=
  let bindings := root.bindings
  follow bindings (bindings.length + 1) name

end TreeRules.Node
