import Mathlib.Logic.Function.Iterate
import TreeRules.Proofs.Heap
import TreeRules.Tree.Blueprint

/-!
# Building trees

A tree that is built from a blueprint exists afterwards, and looks as the blueprint says, under
whatever identities it was built.
-/

namespace TreeRules

theorem run_stateM_bind {σ β γ : Type} (action : StateM σ β) (next : β → StateM σ γ) (state : σ) :
    (action >>= next).run state = (next (action.run state).1).run (action.run state).2 := rfl

variable {α : Type}

namespace Heap

variable [Relabel α] {heap : Heap (Tree α)}

theorem allocates_create {label : α} {children : List (Tree α)}
    (hchildren : ∀ child ∈ children, child ∈ heap.objects) :
    heap.Allocates (Tree.create label children) fun later tree => tree ∈ later.objects :=
  ⟨heap.add (.node heap.supply.next label children) rfl hchildren, le_add _ _, rfl, mem_add _ _⟩

theorem allocates_relabel {label : α} {tree : Tree α} (htree : tree ∈ heap.objects) :
    heap.Allocates (tree.relabel label) fun later tree => tree ∈ later.objects :=
  allocates_create (heap.children_mem htree)

theorem allocates_wrap {label : α} {count : Nat} {tree : Tree α} (htree : tree ∈ heap.objects) :
    heap.Allocates (Blueprint.wrap label count tree) fun later tree => tree ∈ later.objects := by
  induction count generalizing heap tree with
  | zero => exact .pure htree
  | succ count ih =>
      have hchildren : ∀ child ∈ [tree], child ∈ heap.objects := List.forall_mem_singleton.mpr htree
      refine (allocates_create hchildren).bind fun _ _ _ hwrapped => ?_
      exact ih hwrapped

mutual

/-- **Built trees exist.** -/
theorem allocates_build (heap : Heap (Tree α)) : (blueprint : Blueprint α) →
    heap.Allocates blueprint.build fun later tree => tree ∈ later.objects
  | .node _ children => by
      refine (allocates_buildEach heap children).bind fun _ _ _ htrees => ?_
      exact allocates_create htrees
  | .chain _ _ inner => by
      refine (allocates_build heap inner).bind fun _ _ _ htree => ?_
      exact allocates_wrap htree
  | .shared _ _ child => by
      refine (allocates_build heap child).bind fun _ _ _ htree => ?_
      exact allocates_create fun _ hmem => List.eq_of_mem_replicate hmem ▸ htree
  | .relabel _ tree => by
      refine (allocates_build heap tree).bind fun _ _ _ htree => ?_
      exact allocates_relabel htree
  | .withChildren tree children => by
      refine (allocates_build heap tree).bind fun later _ _ _ => ?_
      refine (allocates_buildEach later children).bind fun _ _ _ htrees => ?_
      exact allocates_create htrees

theorem allocates_buildEach (heap : Heap (Tree α)) : (blueprints : List (Blueprint α)) →
    heap.Allocates (Blueprint.buildEach blueprints) fun later trees =>
      ∀ tree ∈ trees, tree ∈ later.objects
  | [] => .pure fun _ hmem => absurd hmem List.not_mem_nil
  | blueprint :: rest => by
      refine (allocates_build heap blueprint).bind fun later _ _ htree => ?_
      refine (allocates_buildEach later rest).bind fun _ hlast _ htrees => .pure ?_
      exact List.forall_mem_cons.mpr ⟨mem_of_le hlast htree, htrees⟩

end

end Heap

namespace Tree

theorem label_eq_outline_label (tree : Tree α) : tree.label = tree.outline.label := by
  obtain ⟨_, label, children⟩ := tree
  rw [outline_node]
  rfl

theorem map_outline_children (tree : Tree α) :
    tree.children.map outline = tree.outline.children := by
  obtain ⟨_, label, children⟩ := tree
  rw [outline_node]
  rfl

end Tree

namespace Blueprint

mutual

def outline : Blueprint α → Outline α
  | node label children => .node label (outlineEach children)
  | chain label count inner => (fun tree => .node label [tree])^[count] inner.outline
  | shared label count child => .node label (List.replicate count child.outline)
  | relabel change tree => .node (change tree.outline.label) tree.outline.children
  | withChildren tree children => .node tree.outline.label (outlineEach children)

def outlineEach : List (Blueprint α) → List (Outline α)
  | [] => []
  | tree :: rest => outline tree :: outlineEach rest

end

theorem outline_create (label : α) (children : List (Tree α)) (supply : Supply) :
    ((Tree.create label children).run supply).1.outline =
      .node label (children.map Tree.outline) := by
  change (Tree.node supply.next label children).outline = _
  exact Tree.outline_node _ _ _

theorem outline_wrap (label : α) (count : Nat) (tree : Tree α) (supply : Supply) :
    ((wrap label count tree).run supply).1.outline =
      (fun outline => .node label [outline])^[count] tree.outline := by
  induction count generalizing tree supply with
  | zero => rfl
  | succ count ih =>
      change ((wrap label count (.node supply.next label [tree])).run
        ⟨supply.next + 1⟩).1.outline = _
      rw [ih, Tree.outline_node, Function.iterate_succ_apply]
      rfl

mutual

/-- **Built trees look like their blueprints.** -/
theorem outline_build (supply : Supply) : (blueprint : Blueprint α) →
    (blueprint.build.run supply).1.outline = blueprint.outline
  | .node label children => by
      rw [build, run_stateM_bind, outline_create, map_outline_buildEach supply children, outline]
  | .chain label count inner => by
      rw [build, run_stateM_bind, outline_wrap, outline_build supply inner, outline]
  | .shared label count child => by
      rw [build, run_stateM_bind, outline_create, List.map_replicate, outline_build supply child,
        outline]
  | .relabel change tree => by
      rw [build, run_stateM_bind, Tree.relabel, outline_create, Tree.label_eq_outline_label,
        Tree.map_outline_children, outline_build supply tree, outline]
  | .withChildren tree children => by
      rw [build, run_stateM_bind, run_stateM_bind, outline_create, Tree.label_eq_outline_label,
        map_outline_buildEach _ children, outline_build supply tree, outline]

theorem map_outline_buildEach (supply : Supply) : (blueprints : List (Blueprint α)) →
    ((buildEach blueprints).run supply).1.map Tree.outline = outlineEach blueprints
  | [] => rfl
  | blueprint :: rest => by
      rw [buildEach, run_stateM_bind, run_stateM_bind]
      change Tree.outline (build blueprint |>.run supply).1 ::
        List.map Tree.outline (buildEach rest |>.run _).1 = _
      rw [outline_build supply blueprint, map_outline_buildEach _ rest, outlineEach]

end

end Blueprint

end TreeRules
