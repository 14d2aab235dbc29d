/-!
Ordered trees whose nodes carry a label and nothing else. An outline is what is left of a tree once
it is forgotten which object holds which node, so two trees are structurally equal exactly when
their outlines are equal.
-/

namespace TreeRules

inductive Outline (α : Type) where
  | node (label : α) (children : List (Outline α))

namespace Outline

variable {α : Type}

def label : Outline α → α
  | node label _ => label

def children : Outline α → List (Outline α)
  | node _ children => children

@[simp]
theorem label_node (label : α) (children : List (Outline α)) :
    (node label children).label = label := rfl

@[simp]
theorem children_node (label : α) (children : List (Outline α)) :
    (node label children).children = children := rfl

/-- To prove something of all outlines, prove it of a node over children that have it. -/
theorem inductionOn {motive : Outline α → Prop} (tree : Outline α)
    (node : ∀ label children, (∀ child ∈ children, motive child) → motive (.node label children)) :
    motive tree := by
  refine @Outline.rec α motive (fun children => ∀ child ∈ children, motive child) node ?_ ?_ tree
  · exact fun _ hmem => absurd hmem List.not_mem_nil
  · exact fun _ _ hhead htail => List.forall_mem_cons.mpr ⟨hhead, htail⟩

mutual

/-- The labels in preorder, a node before what lies below it. -/
def labels : Outline α → List α
  | node label children => label :: labelsOfAll children

def labelsOfAll : List (Outline α) → List α
  | [] => []
  | child :: rest => labels child ++ labelsOfAll rest

end

theorem labelsOfAll_eq_flatMap (children : List (Outline α)) :
    labelsOfAll children = children.flatMap labels := by
  induction children with
  | nil => rfl
  | cons child rest ih => simp [labelsOfAll, ih]

theorem labels_node (label : α) (children : List (Outline α)) :
    (node label children).labels = label :: children.flatMap labels := by
  simp [labels, labelsOfAll_eq_flatMap]

mutual

def decideEq [DecidableEq α] : (left right : Outline α) → Decidable (left = right)
  | node label children, node label' children' =>
    match decEq label label', decideEqAll children children' with
    | isTrue sameLabel, isTrue sameChildren => isTrue (by rw [sameLabel, sameChildren])
    | isFalse differ, _ => isFalse (by simp [differ])
    | _, isFalse differ => isFalse (by simp [differ])

def decideEqAll [DecidableEq α] : (left right : List (Outline α)) → Decidable (left = right)
  | [], [] => isTrue rfl
  | [], _ :: _ => isFalse (by simp)
  | _ :: _, [] => isFalse (by simp)
  | child :: rest, child' :: rest' =>
    match decideEq child child', decideEqAll rest rest' with
    | isTrue sameChild, isTrue sameRest => isTrue (by rw [sameChild, sameRest])
    | isFalse differ, _ => isFalse (by simp [differ])
    | _, isFalse differ => isFalse (by simp [differ])

end

instance [DecidableEq α] : DecidableEq (Outline α) := decideEq

end Outline

end TreeRules
