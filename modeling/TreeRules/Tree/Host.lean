import TreeRules.Total
import TreeRules.Tree.Basic

/-!
What the dispatcher needs of a tree: the identity of a node object, its children in order, and a
copy of the node around other children. Any type with these three is a host; `Tree` is one for every
kind of label that says how a label changes when its node is rebuilt.
-/

namespace TreeRules

/-- Trees that rules can be run over. A host is finite below every node, and a copy is the new
object that it was asked to be. -/
class Host (N : Type) where
  identity : N → ObjectId
  children : N → List N
  withChildren : ObjectId → List N → N → N
  identity_withChildren : ∀ i nodes node, identity (withChildren i nodes node) = i
  wellFounded : WellFounded fun child node : N => child ∈ children node

namespace Host

/-- A host whose copies hold exactly the children they were given. -/
class Faithful (N : Type) [Host N] : Prop where
  children_withChildren : ∀ i (nodes : List N) (node : N), children (withChildren i nodes node) = nodes

variable {N : Type} [Host N]

/-- Whether two nodes are the very same object. -/
def sameObject (left right : N) : Bool := identity left == identity right

def isLeaf (node : N) : Bool := (children node).isEmpty

instance : WellFoundedRelation N := ⟨fun child node => child ∈ children node, wellFounded⟩

/-- The number of nodes in the subtree of `node`, counted per appearance. -/
def subtreeSize (node : N) : Nat :=
  1 + total ((children node).attach.map fun child => subtreeSize child.1)
termination_by node
decreasing_by exact child.2

/-- The number of levels in the subtree of `node`; a leaf has one. -/
def subtreeDepth (node : N) : Nat :=
  1 + ((children node).attach.map fun child => subtreeDepth child.1).foldr max 0
termination_by node
decreasing_by exact child.2

theorem subtreeSize_eq (node : N) :
    subtreeSize node = 1 + total ((children node).map subtreeSize) := by
  rw [subtreeSize, List.attach_map_val (f := subtreeSize)]

theorem subtreeDepth_eq (node : N) :
    subtreeDepth node = 1 + ((children node).map subtreeDepth).foldr max 0 := by
  rw [subtreeDepth, List.attach_map_val (f := subtreeDepth)]

end Host

/-- How a label changes when its node is rebuilt around other children. -/
class Relabel (α : Type) where
  rebuilt : α → α

namespace Tree

variable {α : Type} [Relabel α]

/-- A new object with the same label, as rebuilding leaves it, around other children. -/
def withChildren (i : ObjectId) (nodes : List (Tree α)) (tree : Tree α) : Tree α :=
  node i (Relabel.rebuilt tree.label) nodes

instance : Host (Tree α) where
  identity := id
  children := children
  withChildren := withChildren
  identity_withChildren _ _ _ := rfl
  wellFounded := Subrelation.wf sizeOf_lt_of_mem_children (measure sizeOf).wf

instance : Host.Faithful (Tree α) where
  children_withChildren _ _ _ := rfl

end Tree

end TreeRules
