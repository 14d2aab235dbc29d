import Mathlib
import TreeRules.Proofs.OutputLabels

/-!
# Appearances

One object may appear at several places of a tree. An appearance is a node with the nodes above it,
so two appearances of one object differ when their ways from the root do. The appearances of a tree
are listed in preorder. When every node is repeated as often as its label says, an appearance is
repeated once for each choice on the way to it.
-/

namespace TreeRules

variable {α : Type}

structure Appearance (α : Type) where
  /-- The nodes above, from the root down. -/
  above : List (Tree α)
  node : Tree α

namespace Appearance

def path (x : Appearance α) : List (Tree α) := x.above ++ [x.node]

/-- The labels from the root down to the node. -/
def labels (x : Appearance α) : List α := x.path.map Tree.label

/-- The appearance in a larger tree, of which the tree was a child. -/
def under (tree : Tree α) (x : Appearance α) : Appearance α := ⟨tree :: x.above, x.node⟩

@[simp]
theorem node_under (tree : Tree α) (x : Appearance α) : (x.under tree).node = x.node := rfl

@[simp]
theorem above_under (tree : Tree α) (x : Appearance α) :
    (x.under tree).above = tree :: x.above := rfl

@[simp]
theorem path_under (tree : Tree α) (x : Appearance α) : (x.under tree).path = tree :: x.path := rfl

@[simp]
theorem labels_under (tree : Tree α) (x : Appearance α) :
    (x.under tree).labels = tree.label :: x.labels := rfl

end Appearance

namespace Tree

mutual

/-- Where the nodes of the tree appear in it, in preorder. -/
def appearances : Tree α → List (Appearance α)
  | node i label children =>
    ⟨[], node i label children⟩ :: (appearancesOfAll children).map (.under (node i label children))

def appearancesOfAll : List (Tree α) → List (Appearance α)
  | [] => []
  | child :: rest => appearances child ++ appearancesOfAll rest

end

theorem appearancesOfAll_eq_flatMap (trees : List (Tree α)) :
    appearancesOfAll trees = trees.flatMap appearances := by
  induction trees with
  | nil => rfl
  | cons tree rest ih => rw [appearancesOfAll, ih, List.flatMap_cons]

theorem appearances_eq (tree : Tree α) :
    tree.appearances = ⟨[], tree⟩ :: (tree.children.flatMap appearances).map (.under tree) := by
  obtain ⟨i, label, children⟩ := tree
  rw [appearances, appearancesOfAll_eq_flatMap, children_node]

/-- To prove something of all trees, prove it of a tree whose children have it. -/
theorem inductionOn {motive : Tree α → Prop} (tree : Tree α)
    (step : ∀ tree, (∀ child ∈ tree.children, motive child) → motive tree) : motive tree :=
  (measure sizeOf).wf.induction tree fun tree ih =>
    step tree fun child hchild => ih child (sizeOf_lt_of_mem_children hchild)

theorem preorder_subset_of_mem_children {child tree : Tree α} (h : child ∈ tree.children) :
    child.preorder ⊆ tree.preorder := by
  intro below hbelow
  rw [preorder_eq]
  exact List.mem_cons_of_mem _ (List.mem_flatMap.mpr ⟨child, h, hbelow⟩)

theorem mem_preorder_self (tree : Tree α) : tree ∈ tree.preorder := by
  rw [preorder_eq]
  exact List.mem_cons_self

theorem mem_preorder_of_mem_children {child node tree : Tree α} (hchild : child ∈ node.children)
    (hnode : node ∈ tree.preorder) : child ∈ tree.preorder := by
  induction tree using inductionOn with
  | step tree ih =>
      rw [preorder_eq] at hnode
      rcases List.mem_cons.mp hnode with rfl | hbelow
      · exact preorder_subset_of_mem_children hchild child.mem_preorder_self
      · obtain ⟨top, htop, hnode⟩ := List.mem_flatMap.mp hbelow
        exact preorder_subset_of_mem_children htop (ih top htop hnode)

theorem map_label_preorder (tree : Tree α) : tree.preorder.map label = tree.outline.labels := by
  induction tree using inductionOn with
  | step tree ih =>
      have hbelow : (tree.children.flatMap preorder).map label =
          tree.outline.children.flatMap Outline.labels := by
        rw [← map_outline_children, List.map_flatMap, List.flatMap_map]
        exact List.flatMap_congr ih
      rw [preorder_eq, List.map_cons, hbelow, label_eq_outline_label]
      obtain ⟨label, children⟩ := tree.outline
      exact (Outline.labels_node label children).symm

theorem map_node_appearances (tree : Tree α) :
    tree.appearances.map Appearance.node = tree.preorder := by
  induction tree using inductionOn with
  | step tree ih =>
      have hchildren : (tree.children.flatMap appearances).map Appearance.node =
          tree.children.flatMap preorder := by
        rw [List.map_flatMap]
        exact List.flatMap_congr ih
      rw [appearances_eq, preorder_eq, List.map_cons, List.map_map, ← hchildren]
      rfl

theorem node_mem_preorder {tree : Tree α} {x : Appearance α} (hx : x ∈ tree.appearances) :
    x.node ∈ tree.preorder := by
  rw [← map_node_appearances]
  exact List.mem_map_of_mem hx

theorem map_node_flatMap_appearances (trees : List (Tree α)) :
    (trees.flatMap appearances).map Appearance.node = trees.flatMap preorder := by
  rw [List.map_flatMap]
  exact List.flatMap_congr fun tree _ => tree.map_node_appearances

theorem length_flatMap_appearances (trees : List (Tree α)) :
    (trees.flatMap appearances).length = (trees.flatMap preorder).length := by
  rw [← map_node_flatMap_appearances, List.length_map]

end Tree

end TreeRules
