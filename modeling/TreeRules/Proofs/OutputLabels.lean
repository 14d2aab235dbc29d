import TreeRules.Node.Basic
import TreeRules.Proofs.Emission
import TreeRules.Proofs.Sharing

/-!
# The labels of the output

Every survivor of a dispatch stands for one node of the result and gives it its label, whatever
became of its children. The labels of the result are those of all survivors, with their
multiplicities; so what all survivors have in common holds at every depth of the result.
-/

namespace TreeRules

namespace Tree

variable {α : Type}

theorem preorder_eq (tree : Tree α) : tree.preorder = tree :: tree.children.flatMap preorder := by
  obtain ⟨id, label, children⟩ := tree
  exact preorder_node id label children

theorem preorder_eq_hostPreorder [Relabel α] (tree : Tree α) :
    tree.preorder = Host.preorder tree := by
  induction tree using (Host.wellFounded (N := Tree α)).induction with
  | _ tree ih =>
      rw [preorder_eq, Host.preorder_eq]
      exact congrArg (tree :: ·) (List.flatMap_congr ih)

theorem length_flatMap_preorder [Relabel α] (trees : List (Tree α)) :
    (trees.flatMap preorder).length = total (trees.map Host.subtreeSize) := by
  rw [List.length_flatMap, total_eq_sum]
  refine congrArg List.sum (List.map_congr_left fun tree _ => ?_)
  rw [preorder_eq_hostPreorder, Host.length_preorder]

end Tree

namespace Dispatch

variable {heap : Heap Node} {count : Nat} {trace : Trace Node}

theorem Trace.Orderly.label_output (h : trace.Orderly count) {survival : Survival Node}
    (hsurvival : survival ∈ trace.survivals) : survival.output.label = survival.node.label := by
  rcases hcopy : survival.copy with _ | copy
  · rw [Survival.output, hcopy, Option.getD_none]
  · rw [Survival.output, hcopy, Option.getD_some, h.eq_of_copy survival hsurvival copy hcopy]
    rfl

/-- What stands below a node of the result are the results of the dispatches below it. -/
theorem Trace.children_output (h : ∀ inner ∈ trace.dispatches, inner.Settled heap count)
    {survival : Survival Node} (hsurvival : survival ∈ trace.survivals) :
    survival.output.children = survival.children.flatMap Trace.outputs := by
  obtain ⟨hself, hinner⟩ := Trace.forall_mem_dispatches_iff.mp h
  refine hself.children_output (fun survival hsurvival child hchild => ?_) hsurvival
  exact hinner survival hsurvival child hchild child child.mem_dispatches_self

/-- **The labels of the result are those of the survivors.** -/
theorem Trace.labels_perm (h : ∀ inner ∈ trace.dispatches, inner.Settled heap count) :
    ((trace.outputs.flatMap Tree.preorder).map Tree.label).Perm
      ((trace.dispatches.flatMap Trace.survivors).map Tree.label) := by
  induction trace using Trace.inductionOn with
  | dispatch node rounds survivals ih =>
      obtain ⟨hself, hinner⟩ := Trace.forall_mem_dispatches_iff.mp h
      -- One survivor: its own label, and below it what its children's dispatches gave.
      have hsurvival : ∀ survival ∈ survivals, (survival.output.preorder.map Tree.label).Perm
          ([survival.node.label] ++ survival.children.flatMap fun child =>
            (child.dispatches.flatMap Trace.survivors).map Tree.label) := by
        intro survival hsurvival
        have hbelow : survival.output.children = survival.children.flatMap Trace.outputs :=
          Trace.children_output h hsurvival
        rw [Tree.preorder_eq, List.map_cons, hself.orderly.label_output hsurvival, hbelow,
          List.flatMap_assoc, List.map_flatMap]
        refine List.Perm.cons _ (List.Perm.flatMap_left _ fun child hchild => ?_)
        exact ih survival hsurvival child hchild (hinner survival hsurvival child hchild)
      have hheads : (survivals.flatMap fun survival => [survival.node.label]) =
          survivals.map (Tree.label ∘ Survival.node) := List.flatMap_pure_eq_map _ _
      calc (((survivals.map Survival.output).flatMap Tree.preorder).map Tree.label)
          = survivals.flatMap fun survival => survival.output.preorder.map Tree.label := by
            rw [List.flatMap_map, List.map_flatMap]
        List.Perm _ (survivals.flatMap fun survival => [survival.node.label] ++
              survival.children.flatMap fun child =>
                (child.dispatches.flatMap Trace.survivors).map Tree.label) :=
            List.Perm.flatMap_left _ hsurvival
        List.Perm _ ((survivals.flatMap fun survival => [survival.node.label]) ++
              survivals.flatMap fun survival => survival.children.flatMap fun child =>
                (child.dispatches.flatMap Trace.survivors).map Tree.label) :=
            (List.flatMap_append_perm _ _ _).symm
        _ = ((Trace.dispatch node rounds survivals).dispatches.flatMap Trace.survivors).map
              Tree.label := by
            rw [hheads, Trace.flatMap_dispatches, List.map_append, Trace.survivors, List.map_map]
            simp only [List.map_flatMap, Trace.survivals_dispatch]

end Dispatch

end TreeRules
