import Mathlib.Data.Set.Insert
import Mathlib.Order.Basic
import TreeRules.Rule
import TreeRules.Tree.Host

/-!
# Heap

What it means that nodes are objects: an identity is that of one object and no other, for ever, and
a new object gets an identity that was free until then.
-/

namespace TreeRules

variable {σ β γ N : Type} [Host N]

/-- The objects that exist at some moment, and the supply of identities that are still free. What
lies below an object exists as well. -/
structure Heap (N : Type) [Host N] where
  objects : Set N
  supply : Supply
  children_mem : ∀ {node}, node ∈ objects → ∀ child ∈ Host.children node, child ∈ objects
  eq_of_identity_eq : ∀ {left right}, left ∈ objects → right ∈ objects →
    Host.identity left = Host.identity right → left = right
  identity_lt : ∀ {node}, node ∈ objects → Host.identity node < supply.next

namespace Heap

/-- Objects stay, and new ones have identities that were free. -/
instance : Preorder (Heap N) where
  le earlier later := earlier.objects ⊆ later.objects ∧ earlier.supply.next ≤ later.supply.next ∧
    ∀ node ∈ later.objects, node ∈ earlier.objects ∨ earlier.supply.next ≤ Host.identity node
  le_refl heap := ⟨subset_rfl, le_rfl, fun _ hnode => .inl hnode⟩
  le_trans first second third := by
    rintro ⟨hobjects, hsupply, hnew⟩ ⟨hobjects', hsupply', hnew'⟩
    refine ⟨hobjects.trans hobjects', hsupply.trans hsupply', fun node hnode => ?_⟩
    rcases hnew' node hnode with hnode | hfree
    · exact hnew node hnode
    · exact .inr (hsupply.trans hfree)

variable {earlier later : Heap N}

theorem mem_of_le (h : earlier ≤ later) {node : N} (hnode : node ∈ earlier.objects) :
    node ∈ later.objects := h.1 hnode

theorem next_le_of_le (h : earlier ≤ later) : earlier.supply.next ≤ later.supply.next := h.2.1

theorem mem_or_next_le (h : earlier ≤ later) {node : N} (hnode : node ∈ later.objects) :
    node ∈ earlier.objects ∨ earlier.supply.next ≤ Host.identity node := h.2.2 node hnode

/-- The heap when an identity was taken for an object that no rule gets to see. -/
def spend (heap : Heap N) : Heap N where
  objects := heap.objects
  supply := ⟨heap.supply.next + 1⟩
  children_mem := heap.children_mem
  eq_of_identity_eq := heap.eq_of_identity_eq
  identity_lt hnode := Nat.lt_succ_of_lt (heap.identity_lt hnode)

theorem le_spend (heap : Heap N) : heap ≤ heap.spend :=
  ⟨subset_rfl, Nat.le_succ _, fun _ hnode => .inl hnode⟩

/-- The heap with a new object over children that exist already. -/
def add (heap : Heap N) (node : N) (hidentity : Host.identity node = heap.supply.next)
    (hchildren : ∀ child ∈ Host.children node, child ∈ heap.objects) : Heap N where
  objects := insert node heap.objects
  supply := ⟨heap.supply.next + 1⟩
  children_mem := by
    rintro _ (rfl | hmem) child hchild
    · exact .inr (hchildren child hchild)
    · exact .inr (heap.children_mem hmem child hchild)
  eq_of_identity_eq := by
    rintro left right (rfl | hleft) (rfl | hright) heq
    · rfl
    · exact absurd (heap.identity_lt hright) (by rw [← heq, hidentity]; exact Nat.lt_irrefl _)
    · exact absurd (heap.identity_lt hleft) (by rw [heq, hidentity]; exact Nat.lt_irrefl _)
    · exact heap.eq_of_identity_eq hleft hright heq
  identity_lt := by
    rintro _ (rfl | hmem)
    · rw [hidentity]
      exact Nat.lt_succ_self _
    · exact Nat.lt_succ_of_lt (heap.identity_lt hmem)

section Add

variable {heap : Heap N} {node : N} (hidentity : Host.identity node = heap.supply.next)
  (hchildren : ∀ child ∈ Host.children node, child ∈ heap.objects)

theorem mem_add : node ∈ (heap.add node hidentity hchildren).objects := .inl rfl

theorem le_add : heap ≤ heap.add node hidentity hchildren := by
  refine ⟨Set.subset_insert _ _, Nat.le_succ _, ?_⟩
  rintro _ (rfl | hmem)
  · exact .inr hidentity.ge
  · exact .inl hmem

end Add

def empty : Heap N where
  objects := ∅
  supply := {}
  children_mem hnode := hnode.elim
  eq_of_identity_eq hleft := hleft.elim
  identity_lt hnode := hnode.elim

/-- Making something takes the supply of the heap to that of a later one. -/
def Allocates (heap : Heap N) (make : StateM Supply β) (post : Heap N → β → Prop) : Prop :=
  ∃ later, heap ≤ later ∧ (make.run heap.supply).2 = later.supply ∧
    post later (make.run heap.supply).1

namespace Allocates

variable {heap : Heap N} {post : Heap N → β → Prop}

theorem pure {value : β} (h : post heap value) :
    heap.Allocates (pure value : StateM Supply β) post :=
  ⟨heap, le_rfl, rfl, h⟩

theorem bind {make : StateM Supply β} {next : β → StateM Supply γ} {last : Heap N → γ → Prop}
    (h : heap.Allocates make post)
    (hnext : ∀ later, heap ≤ later → ∀ value, post later value →
      later.Allocates (next value) last) :
    heap.Allocates (make >>= next) last := by
  obtain ⟨mid, hmid, hsupply, hpost⟩ := h
  obtain ⟨later, hlater, hfinish, hlast⟩ := hnext mid hmid _ hpost
  rw [← hsupply] at hfinish hlast
  exact ⟨later, hmid.trans hlater, hfinish, hlast⟩

end Allocates

/-- The workspace takes its identities from the heap's supply, and its state refers to nothing but
objects of the heap. -/
structure Covers (heap : Heap N) (refs : σ → Set N) (workspace : Workspace σ) : Prop where
  supply_eq : workspace.supply = heap.supply
  refs_subset : refs workspace.shared ⊆ heap.objects

end Heap

end TreeRules
