import TreeRules.Tree.Outline

/-!
Trees of node objects. Every node carries the identity of the object that holds it, so that sharing
can be seen: one object may occur at several places of a tree, and a tree that was left alone is the
very same object. Structural equality forgets the identities.
-/

namespace TreeRules

/-- The number under which a node object was created. -/
abbrev ObjectId := Nat

inductive Tree (α : Type) where
  | node (id : ObjectId) (label : α) (children : List (Tree α))

namespace Tree

variable {α : Type}

def id : Tree α → ObjectId
  | node id _ _ => id

def label : Tree α → α
  | node _ label _ => label

def children : Tree α → List (Tree α)
  | node _ _ children => children

@[simp]
theorem id_node (i : ObjectId) (label : α) (children : List (Tree α)) :
    (node i label children).id = i := rfl

@[simp]
theorem label_node (i : ObjectId) (label : α) (children : List (Tree α)) :
    (node i label children).label = label := rfl

@[simp]
theorem children_node (i : ObjectId) (label : α) (children : List (Tree α)) :
    (node i label children).children = children := rfl

theorem sizeOf_lt_of_mem_children {child tree : Tree α} (h : child ∈ tree.children) :
    sizeOf child < sizeOf tree := by
  cases tree with
  | node id label children =>
    have below := List.sizeOf_lt_of_mem (show child ∈ children from h)
    simp only [node.sizeOf_spec]
    omega

mutual

/-- What is left of a tree once the identities are forgotten. -/
def outline : Tree α → Outline α
  | node _ label children => .node label (outlineOfAll children)

def outlineOfAll : List (Tree α) → List (Outline α)
  | [] => []
  | child :: rest => outline child :: outlineOfAll rest

end

theorem outlineOfAll_eq_map (children : List (Tree α)) :
    outlineOfAll children = children.map outline := by
  induction children with
  | nil => rfl
  | cons child rest ih => simp [outlineOfAll, ih]

@[simp]
theorem outline_node (i : ObjectId) (label : α) (children : List (Tree α)) :
    (node i label children).outline = .node label (children.map outline) := by
  simp [outline, outlineOfAll_eq_map]

/-- Structural equality: labels and shape agree, whatever objects hold the nodes. -/
instance [DecidableEq α] : BEq (Tree α) where
  beq left right := decide (left.outline = right.outline)

theorem beq_iff_outline_eq [DecidableEq α] {left right : Tree α} :
    (left == right) = true ↔ left.outline = right.outline := decide_eq_true_iff

mutual

/-- The nodes in preorder, each with all that lies below it. -/
def preorder : Tree α → List (Tree α)
  | node i label children => node i label children :: preorderOfAll children

def preorderOfAll : List (Tree α) → List (Tree α)
  | [] => []
  | child :: rest => preorder child ++ preorderOfAll rest

end

theorem preorderOfAll_eq_flatMap (children : List (Tree α)) :
    preorderOfAll children = children.flatMap preorder := by
  induction children with
  | nil => rfl
  | cons child rest ih => simp [preorderOfAll, ih]

theorem preorder_node (i : ObjectId) (label : α) (children : List (Tree α)) :
    (node i label children).preorder = node i label children :: children.flatMap preorder := by
  simp [preorder, preorderOfAll_eq_flatMap]

/-- Where each node of `outputs` comes from: the first place in the preorder of `root` that holds
the very same object, or none for an object that is not in `root`. -/
def origins (root : Tree α) (outputs : List (Tree α)) : List (Option Nat) :=
  let known := root.preorder.map id
  (outputs.flatMap preorder).map fun node => known.idxOf? node.id

end Tree

end TreeRules
