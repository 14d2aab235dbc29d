import Mathlib.Data.List.Forall2
import Mathlib.Logic.Relator
import TreeRules.Proofs.Appearance
import TreeRules.Proofs.Pairing

/-!
# Runs up to the names of objects

Two runs may do the same and yet give their new objects other identities. A matching tells which
object of the one run plays the part of which object of the other one. It grows while the runs go
on: what is matched anew is new on both sides. Whoever can compare identities, but cannot read them
off, finds the same in matched trees, so the dispatcher keeps and rebuilds the same objects in both.
-/

namespace TreeRules

variable {α : Type}

structure Matching where
  pairs : ObjectId → ObjectId → Prop
  /-- The identities that are still free on the left. -/
  left : Supply
  /-- The identities that are still free on the right. -/
  right : Supply
  biUnique : Relator.BiUnique pairs
  lt_left : ∀ {i j}, pairs i j → i < left.next
  lt_right : ∀ {i j}, pairs i j → j < right.next

namespace Matching

/-- Objects may have been made since, on either side, and some of them matched. -/
structure Precedes (m later : Matching) : Prop where
  left : m.left.next ≤ later.left.next
  right : m.right.next ≤ later.right.next
  keeps : ∀ {i j}, m.pairs i j → later.pairs i j
  fresh : ∀ {i j}, later.pairs i j → m.pairs i j ∨ m.left.next ≤ i ∧ m.right.next ≤ j

instance : Preorder Matching where
  le := Precedes
  le_refl _ := ⟨le_rfl, le_rfl, id, .inl⟩
  le_trans _ _ _ h h' :=
    { left := h.left.trans h'.left
      right := h.right.trans h'.right
      keeps := fun hpair => h'.keeps (h.keeps hpair)
      fresh := fun hpair => (h'.fresh hpair).elim h.fresh fun hnew =>
        .inr ⟨h.left.trans hnew.1, h.right.trans hnew.2⟩ }

variable {m later : Matching} {i i' j j' : ObjectId}

/-- Matched objects are the same on one side if and only if they are on the other one. -/
theorem eq_iff_eq (m : Matching) (h : m.pairs i i') (h' : m.pairs j j') : i = j ↔ i' = j' := by
  constructor
  · rintro rfl
    exact m.biUnique.2 h h'
  · rintro rfl
    exact m.biUnique.1 h h'

/-- Every object that exists is matched with itself. -/
def identical (supply : Supply) : Matching where
  pairs i j := i = j ∧ i < supply.next
  left := supply
  right := supply
  biUnique := ⟨fun _ _ _ h h' => h.1.trans h'.1.symm, fun _ _ _ h h' => h.1.symm.trans h'.1⟩
  lt_left h := h.2
  lt_right h := h.1 ▸ h.2

/-- An old object stays matched with itself only. -/
theorem eq_iff_of_identical_le {supply : Supply} (hle : identical supply ≤ m) (h : m.pairs i i')
    (hj : j < supply.next) : i = j ↔ i' = j :=
  m.eq_iff_eq h (hle.keeps ⟨rfl, hj⟩)

/-- The next object of either side is made, and they are matched. -/
def add (m : Matching) : Matching where
  pairs i j := m.pairs i j ∨ i = m.left.next ∧ j = m.right.next
  left := ⟨m.left.next + 1⟩
  right := ⟨m.right.next + 1⟩
  biUnique := by
    constructor
    · rintro i k j (h | ⟨rfl, rfl⟩) (h' | ⟨rfl, h'⟩)
      · exact m.biUnique.1 h h'
      · exact absurd (m.lt_right h) (h' ▸ lt_irrefl _)
      · exact absurd (m.lt_right h') (lt_irrefl _)
      · rfl
    · rintro i j k (h | ⟨rfl, rfl⟩) (h' | ⟨h', rfl⟩)
      · exact m.biUnique.2 h h'
      · exact absurd (m.lt_left h) (h' ▸ lt_irrefl _)
      · exact absurd (m.lt_left h') (lt_irrefl _)
      · rfl
  lt_left := by
    rintro i j (h | ⟨rfl, -⟩)
    · exact (m.lt_left h).trans (Nat.lt_succ_self _)
    · exact Nat.lt_succ_self _
  lt_right := by
    rintro i j (h | ⟨-, rfl⟩)
    · exact (m.lt_right h).trans (Nat.lt_succ_self _)
    · exact Nat.lt_succ_self _

theorem le_add (m : Matching) : m ≤ m.add where
  left := Nat.le_succ _
  right := Nat.le_succ _
  keeps := .inl
  fresh h := h.imp_right fun h => ⟨h.1.ge, h.2.ge⟩

/-- More objects were made, and none of them matched. -/
def grow (m : Matching) (left right : Supply) (hleft : m.left.next ≤ left.next)
    (hright : m.right.next ≤ right.next) : Matching where
  pairs := m.pairs
  left := left
  right := right
  biUnique := m.biUnique
  lt_left h := (m.lt_left h).trans_le hleft
  lt_right h := (m.lt_right h).trans_le hright

theorem le_grow (m : Matching) {left right : Supply} (hleft : m.left.next ≤ left.next)
    (hright : m.right.next ≤ right.next) : m ≤ m.grow left right hleft hright :=
  ⟨hleft, hright, id, .inl⟩

/-- What both sides match with something in the middle. -/
def comp (m later : Matching) : Matching where
  pairs := Relation.Comp m.pairs later.pairs
  left := m.left
  right := later.right
  biUnique := by
    constructor
    · rintro i k j ⟨_, h, hlater⟩ ⟨_, h', hlater'⟩
      exact m.biUnique.1 h (later.biUnique.1 hlater hlater' ▸ h')
    · rintro i j k ⟨_, h, hlater⟩ ⟨_, h', hlater'⟩
      exact later.biUnique.2 hlater (m.biUnique.2 h h' ▸ hlater')
  lt_left := by
    rintro i k ⟨j, h, -⟩
    exact m.lt_left h
  lt_right := by
    rintro i k ⟨j, -, h⟩
    exact later.lt_right h

/-- What went on from the matching on the left, and from the same objects on the right, is later than
the matching. -/
theorem le_comp {start m later : Matching} (h : start ≤ m)
    (hlater : identical start.right ≤ later) : start ≤ m.comp later where
  left := h.left
  right := hlater.right
  keeps hpair := ⟨_, h.keeps hpair, hlater.keeps ⟨rfl, start.lt_right hpair⟩⟩
  fresh := by
    rintro i k ⟨j, hleft, hright⟩
    rcases h.fresh hleft with hold | ⟨hi, hj⟩ <;> rcases hlater.fresh hright with ⟨hsame, hj'⟩ | hnew
    · exact .inl (hsame ▸ hold)
    · exact absurd (start.lt_right hold) hnew.1.not_gt
    · exact absurd hj' hj.not_gt
    · exact .inr ⟨hi, hnew.2⟩

section Merge

variable {start first second : Matching} (hleft : start.left.next ≤ first.left.next)
  (hright : start.right.next ≤ second.right.next)
  (hfirst : start.grow start.left second.right le_rfl hright ≤ first)
  (hsecond : start.grow first.left start.right hleft le_rfl ≤ second)

section Shared

include hfirst hsecond

theorem first_of_second (h : first.pairs i j) (h' : second.pairs i j') : first.pairs i j' := by
  rcases hsecond.fresh h' with hold | ⟨hnew, -⟩
  · exact hfirst.keeps hold
  · exact absurd (first.lt_left h) hnew.not_gt

theorem second_of_first (h : first.pairs i j) (h' : second.pairs i' j) : second.pairs i j := by
  rcases hfirst.fresh h with hold | ⟨-, hnew⟩
  · exact hsecond.keeps hold
  · exact absurd (second.lt_right h') hnew.not_gt

end Shared

/-- Of two actions, the first one ran first on the left, and the second one ran first on the right.
What each of them has added does not meet what the other one has. -/
def merge : Matching where
  pairs i j := first.pairs i j ∨ second.pairs i j
  left := second.left
  right := first.right
  biUnique := by
    constructor
    · rintro i k j (h | h) (h' | h')
      · exact first.biUnique.1 h h'
      · exact second.biUnique.1 (second_of_first hleft hright hfirst hsecond h h') h'
      · exact second.biUnique.1 h (second_of_first hleft hright hfirst hsecond h' h)
      · exact second.biUnique.1 h h'
    · rintro i j k (h | h) (h' | h')
      · exact first.biUnique.2 h h'
      · exact first.biUnique.2 h (first_of_second hleft hright hfirst hsecond h h')
      · exact first.biUnique.2 (first_of_second hleft hright hfirst hsecond h' h) h'
      · exact second.biUnique.2 h h'
  lt_left := by
    rintro i j (h | h)
    · exact (first.lt_left h).trans_le hsecond.left
    · exact second.lt_left h
  lt_right := by
    rintro i j (h | h)
    · exact first.lt_right h
    · exact (second.lt_right h).trans_le hfirst.right

theorem le_merge : start ≤ merge hleft hright hfirst hsecond where
  left := hleft.trans hsecond.left
  right := hright.trans hfirst.right
  keeps h := .inl (hfirst.keeps h)
  fresh := by
    rintro i j (h | h)
    · exact (hfirst.fresh h).imp_right fun hnew => ⟨hnew.1, hright.trans hnew.2⟩
    · exact (hsecond.fresh h).imp_right fun hnew => ⟨hleft.trans hnew.1, hnew.2⟩

end Merge

end Matching

/-- The trees are equal, and the objects that hold their nodes are related. -/
inductive Tree.Matched (pairs : ObjectId → ObjectId → Prop) : Tree α → Tree α → Prop where
  | node {i i' : ObjectId} (label : α) {children children' : List (Tree α)} : pairs i i' →
    List.Forall₂ (Matched pairs) children children' →
    Matched pairs (node i label children) (node i' label children')

theorem forall₂_of_comp {β γ : Type} {R : α → β → Prop} {S : β → γ → Prop} {T : α → γ → Prop}
    {items : List α} {middles : List β} {others : List γ} (h : List.Forall₂ R items middles)
    (h' : List.Forall₂ S middles others) (hcomp : ∀ a b c, R a b → S b c → T a c) :
    List.Forall₂ T items others := by
  induction h generalizing others with
  | nil =>
      cases h'
      exact .nil
  | cons hhead _ ih =>
      cases h' with
      | cons hhead' htail' => exact .cons (hcomp _ _ _ hhead hhead') (ih htail')

theorem forall_of_forall₂ {ι : Type*} {β : Type} {p : β → Prop} {items : List ι} {others : List β}
    (h : List.Forall₂ (fun _ other => p other) items others) : ∀ other ∈ others, p other := by
  induction h with
  | nil => exact fun _ hmem => absurd hmem List.not_mem_nil
  | cons hhead _ ih => exact List.forall_mem_cons.mpr ⟨hhead, ih⟩

theorem idxOf?_eq_of_forall_mem {known : List ObjectId} {i j : ObjectId}
    (h : ∀ k ∈ known, k = i ↔ k = j) : known.idxOf? i = known.idxOf? j := by
  induction known with
  | nil => rfl
  | cons k known ih =>
      obtain ⟨hhead, htail⟩ := List.forall_mem_cons.mp h
      have hsame : (k == i) = (k == j) := by rw [Bool.eq_iff_iff, beq_iff_eq, beq_iff_eq, hhead]
      rw [List.idxOf?_cons, List.idxOf?_cons, hsame, ih htail]

namespace Tree

namespace Matched

variable {pairs pairs' : ObjectId → ObjectId → Prop} {left middle right : Tree α}
  {lefts rights : List (Tree α)}

theorem id (h : Matched pairs left right) : pairs left.id right.id := by
  cases h with
  | node label hid hchildren => exact hid

theorem label_eq (h : Matched pairs left right) : left.label = right.label := by
  cases h with
  | node label hid hchildren => rfl

theorem children (h : Matched pairs left right) :
    List.Forall₂ (Matched pairs) left.children right.children := by
  cases h with
  | node label hid hchildren => exact hchildren

/-- To prove something of matched trees, prove it of two whose children are matched and have it. -/
theorem inductionOn {motive : Tree α → Tree α → Prop} (h : Matched pairs left right)
    (step : ∀ i i' label children children', pairs i i' →
      List.Forall₂ (fun child child' => Matched pairs child child' ∧ motive child child')
        children children' → motive (.node i label children) (.node i' label children')) :
    motive left right := by
  induction left using Tree.inductionOn generalizing right with
  | step left ih =>
      cases h with
      | node label hid hchildren =>
          refine step _ _ label _ _ hid (List.forall₂_iff_zip.mpr ⟨hchildren.length_eq, ?_⟩)
          intro child child' hmem
          have hchild := (List.forall₂_iff_zip.mp hchildren).2 hmem
          exact ⟨hchild, ih child (List.of_mem_zip hmem).1 hchild⟩

theorem mono (himp : ∀ {i j}, pairs i j → pairs' i j) (h : Matched pairs left right) :
    Matched pairs' left right := by
  refine h.inductionOn fun i i' label children children' hid hchildren => ?_
  exact .node label (himp hid) (hchildren.imp fun _ _ => And.right)

theorem outline_eq (h : Matched pairs left right) : left.outline = right.outline := by
  refine h.inductionOn (motive := fun left right => left.outline = right.outline)
    fun i i' label children children' hid hchildren => ?_
  rw [outline_node, outline_node, map_eq_of_forall₂ (hchildren.imp fun _ _ => And.right)]

/-- The nodes of matched trees are related one by one. -/
theorem preorder (h : Matched pairs left right) :
    List.Forall₂ (fun node node' => pairs node.id node'.id) left.preorder right.preorder := by
  refine h.inductionOn (motive := fun left right =>
    List.Forall₂ (fun node node' => pairs node.id node'.id) left.preorder right.preorder)
    fun i i' label children children' hid hchildren => ?_
  rw [preorder_node, preorder_node]
  exact .cons hid (List.rel_flatMap hchildren fun _ _ => And.right)

theorem comp (h : Matched pairs left middle) (h' : Matched pairs' middle right) :
    Matched (Relation.Comp pairs pairs') left right := by
  revert right
  refine h.inductionOn (motive := fun left middle => ∀ {right}, Matched pairs' middle right →
    Matched (Relation.Comp pairs pairs') left right)
    fun i i' label children children' hid hchildren right h' => ?_
  cases h' with
  | node label hid' hchildren' =>
      refine .node label ⟨i', hid, hid'⟩ (forall₂_of_comp hchildren hchildren' ?_)
      exact fun _ _ _ hchild hchild' => hchild.2 hchild'

/-- The objects of the tree on the right exist on the right. -/
theorem right_identical {m : Matching} (h : Matched m.pairs left right) :
    Matched (Matching.identical m.right).pairs right right := by
  refine h.inductionOn (motive := fun _ right =>
    Matched (Matching.identical m.right).pairs right right)
    fun i i' label children children' hid hchildren => ?_
  refine .node label ⟨rfl, m.lt_right hid⟩ (List.forall₂_same.mpr ?_)
  exact forall_of_forall₂ (hchildren.imp fun _ _ => And.right)

theorem map_outline_eq (h : List.Forall₂ (Matched pairs) lefts rights) :
    lefts.map outline = rights.map outline :=
  map_eq_of_forall₂ (h.imp fun _ _ => outline_eq)

end Matched

/-- A tree whose objects all exist is matched with itself. -/
theorem matched_identical {supply : Supply} {tree : Tree α}
    (h : ∀ node ∈ tree.preorder, node.id < supply.next) :
    Matched (Matching.identical supply).pairs tree tree := by
  induction tree using inductionOn with
  | step tree ih =>
      have hid := h tree tree.mem_preorder_self
      have hchildren : List.Forall₂ (Matched (Matching.identical supply).pairs) tree.children
          tree.children := by
        refine List.forall₂_same.mpr fun child hchild => ih child hchild fun node hnode => ?_
        exact h node (preorder_subset_of_mem_children hchild hnode)
      obtain ⟨i, label, children⟩ := tree
      exact .node label ⟨rfl, hid⟩ hchildren

/-- Nobody can tell the two lists apart who knows the objects of the root, but not the new ones. -/
structure Coincide (root : Tree α) (nodes nodes' : List (Tree α)) : Prop where
  outlines_eq : nodes.map outline = nodes'.map outline
  /-- The same objects of the root stand at the same places. -/
  origins_eq : origins root nodes = origins root nodes'

/-- What is matched since the root existed coincides. -/
theorem coincide_of_matched {supply : Supply} {m : Matching} {root : Tree α}
    {nodes nodes' : List (Tree α)} (hroot : ∀ node ∈ root.preorder, node.id < supply.next)
    (hle : Matching.identical supply ≤ m) (h : List.Forall₂ (Matched m.pairs) nodes nodes') :
    Coincide root nodes nodes' where
  outlines_eq := Matched.map_outline_eq h
  origins_eq := by
    have hplaces : List.Forall₂ (fun node node' => m.pairs node.id node'.id)
        (nodes.flatMap preorder) (nodes'.flatMap preorder) :=
      List.rel_flatMap h fun _ _ => Matched.preorder
    refine map_eq_of_forall₂ (hplaces.imp fun node node' hpair => ?_)
    refine idxOf?_eq_of_forall_mem (List.forall_mem_map.mpr fun known hknown => ?_)
    rw [eq_comm, eq_comm (b := node'.id)]
    exact Matching.eq_iff_of_identical_le hle hpair (hroot known hknown)

end Tree

end TreeRules
