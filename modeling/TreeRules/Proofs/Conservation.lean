import TreeRules.Proofs.Sharing

/-!
# Conservation of nodes

Every survivor stands for one node of the result, so the size of the result is the number of
survivors in the whole run. That number is what the counters balance to.
-/

namespace TreeRules

variable {σ ε N : Type} [Host N]

/-- How many nodes a rule left of those that it was offered: the ones that it did not take, and the
ones that it emitted. -/
def RuleCounts.left (counts : RuleCounts) : ℤ :=
  counts.offered - counts.matched + counts.emitted

namespace Dispatch

theorem subtreeSize_output [Host.Faithful N] {heap : Heap N} {count : Nat} {trace : Trace N}
    (h : trace.Settled heap count)
    (hbelow : ∀ survival ∈ trace.survivals, ∀ child ∈ survival.children, child.Settled heap count)
    {survival : Survival N} (hsurvival : survival ∈ trace.survivals) :
    Host.subtreeSize survival.output = 1 + (survival.children.map fun child =>
      (child.outputs.map Host.subtreeSize).sum).sum := by
  rw [Host.subtreeSize_eq, h.children_output hbelow hsurvival, total_eq_sum, sum_map_flatMap]

/-- **Every survivor stands for one node of the result.** -/
theorem sum_subtreeSize_outputs [Host.Faithful N] {heap : Heap N} {count : Nat} {trace : Trace N}
    (h : ∀ inner ∈ trace.dispatches, inner.Settled heap count) :
    (trace.outputs.map Host.subtreeSize).sum =
      (trace.dispatches.flatMap Trace.survivors).length := by
  induction trace using Trace.inductionOn with
  | dispatch node rounds survivals ih =>
      obtain ⟨hself, hinner⟩ := Trace.forall_mem_dispatches_iff.mp h
      have hchild : ∀ survival ∈ survivals, ∀ child ∈ survival.children, child.Settled heap count :=
        fun survival hsurvival child hchild =>
          hinner survival hsurvival child hchild child child.mem_dispatches_self
      have hsize : ∀ survival ∈ survivals, Host.subtreeSize survival.output =
          1 + (survival.children.flatMap fun child =>
            child.dispatches.flatMap Trace.survivors).length := by
        intro survival hsurvival
        rw [subtreeSize_output hself hchild hsurvival, List.length_flatMap]
        congr 2
        exact List.map_congr_left fun child hchild =>
          ih survival hsurvival child hchild (hinner survival hsurvival child hchild)
      calc ((survivals.map Survival.output).map Host.subtreeSize).sum
          = (survivals.map fun survival => 1 + (survival.children.flatMap fun child =>
              child.dispatches.flatMap Trace.survivors).length).sum := by
            rw [List.map_map]
            exact congrArg List.sum (List.map_congr_left hsize)
        _ = survivals.length + (survivals.flatMap fun survival =>
              survival.children.flatMap fun child =>
                child.dispatches.flatMap Trace.survivors).length := by
            rw [List.sum_map_add, List.length_flatMap]
            simp
        _ = ((Trace.dispatch node rounds survivals).dispatches.flatMap Trace.survivors).length := by
            rw [Trace.flatMap_dispatches, List.length_append, Trace.survivors, List.length_map]
            rfl

/-- The counts of a rule that is the only one of its name are those of its offers. -/
theorem Tallied.counts {trace : Trace N} {names : List String} {before after : Statistics}
    (htallied : Tallied before (trace.events names) after) (hfresh : before = Statistics.empty)
    (h : ∀ inner ∈ trace.dispatches, inner.Orderly names.length) (hnodup : names.Nodup)
    {place : Nat} {name : String} (hname : names[place]? = some name) :
    (after.counts name).offered = (trace.offersOf place).length ∧
      (after.counts name).left = ((trace.offersOf place).flatMap Offer.nodes).length := by
  have hoffered : (after.counts name).offered = (trace.offersOf place).length := by
    rw [htallied.offered name, hfresh,
      Trace.sum_map_events_eq h rfl (fun _ hother offer => offer.sum_offers_of_ne hother) hnodup rfl
        hname, sum_map_flatMap]
    simp only [Offer.sum_offers, List.map_const', List.sum_replicate_nat, Nat.mul_one]
    exact Nat.zero_add _
  have hmatched : (after.counts name).matched =
      (((trace.offersOf place).flatMap (Offer.events name)).map (Event.visits name)).sum := by
    rw [htallied.matched name, hfresh,
      Trace.sum_map_events_eq h rfl (fun _ hother offer => offer.sum_visits_of_ne hother) hnodup rfl
        hname]
    exact Nat.zero_add _
  have hemitted : (after.counts name).emitted =
      (((trace.offersOf place).flatMap (Offer.events name)).map (Event.emissions name)).sum := by
    rw [htallied.emitted name, hfresh,
      Trace.sum_map_events_eq h rfl (fun _ hother offer => offer.sum_emissions_of_ne hother) hnodup
        rfl hname]
    exact Nat.zero_add _
  have hbalance := Offer.length_flatMap_nodes_add (Offer.length_nodes_add_visits · name)
    (trace.offersOf place)
  refine ⟨hoffered, ?_⟩
  rw [RuleCounts.left]
  omega

section Leaves

variable [Host.Faithful N] {refs : σ → Set N} {rules : List (Rule σ ε N)}
  (honest : ∀ rule ∈ rules, rule.Honest refs) {heap : Heap N} {run after : Run σ} {trace : Trace N}

include honest

theorem Leaves.total_outputs (h : Leaves rules run trace after) (hroot : trace.node ∈ heap.objects)
    (hcovers : heap.Covers refs run.workspace) :
    total (trace.outputs.map Host.subtreeSize) =
      (trace.dispatches.flatMap Trace.survivors).length := by
  obtain ⟨later, hsettled⟩ := h.follows.exists_settled honest hroot hcovers
  rw [total_eq_sum, sum_subtreeSize_outputs hsettled]

/-- The balance of a run that starts with nothing recorded. -/
theorem Leaves.size_add_deleted (h : Leaves rules run trace after)
    (hroot : trace.node ∈ heap.objects) (hcovers : heap.Covers refs run.workspace)
    (hfresh : run.statistics = Statistics.empty) :
    total (trace.outputs.map Host.subtreeSize) + after.statistics.deleted =
      after.statistics.dispatched + after.statistics.inserted := by
  have hbalance := Trace.length_survivors_add h.follows.orderly (List.length_map Rule.name)
  have hdispatched := h.dispatched_eq
  have hdeleted := h.tallied.deleted
  have hinserted := h.tallied.inserted
  rw [hfresh] at hdispatched hdeleted hinserted
  change _ = 0 + _ at hdispatched hdeleted hinserted
  rw [h.total_outputs honest hroot hcovers]
  omega

end Leaves

/-- **Conservation of nodes.** The size of the result is what was dispatched and inserted less what
was deleted. Under distinct names every rule is offered what the rule before it left, and the last
rule leaves the nodes of the result. -/
theorem dispatch_conserves [Host.Faithful N] {refs : σ → Set N} {rules : List (Rule σ ε N)}
    (honest : ∀ rule ∈ rules, rule.Honest refs) {heap : Heap N} {root : N}
    (hroot : root ∈ heap.objects) {run after : Run σ} (hcovers : heap.Covers refs run.workspace)
    (hfresh : run.statistics = Statistics.empty) {depth : Nat} {nodes : List N}
    (h : (dispatch rules depth root).run run = (.ok nodes, after)) :
    let statistics := after.statistics
    let counts := fun rule : Rule σ ε N => statistics.counts rule.name
    let size : ℤ := total (nodes.map Host.subtreeSize)
    size = statistics.dispatched + statistics.inserted - statistics.deleted ∧
    ((rules.map Rule.name).Nodup →
      (∀ rule, rules.head? = some rule → (counts rule).offered = statistics.dispatched) ∧
      (∀ place rule next, rules[place]? = some rule → rules[place + 1]? = some next →
        (counts next).offered = (counts rule).left) ∧
      (∀ rule, rules.getLast? = some rule → size = (counts rule).left)) := by
  intro statistics counts size
  obtain ⟨trace, rfl, rfl, hleaves⟩ := dispatch_ok h
  have horderly := hleaves.follows.orderly
  have hnames : (rules.map Rule.name).length = rules.length := List.length_map _
  constructor
  · have hbalance : _ + statistics.deleted = statistics.dispatched + statistics.inserted :=
      hleaves.size_add_deleted honest hroot hcovers hfresh
    omega
  · intro hnodup
    have hsize : size = (trace.dispatches.flatMap Trace.survivors).length :=
      congrArg Nat.cast (hleaves.total_outputs honest hroot hcovers)
    have hdispatched : statistics.dispatched = trace.dispatches.length := by
      rw [hleaves.dispatched_eq, hfresh]
      exact Nat.zero_add _
    have hcounts {place : Nat} {rule : Rule σ ε N} (hrule : rules[place]? = some rule) :
        (counts rule).offered = (trace.offersOf place).length ∧
          (counts rule).left = ((trace.offersOf place).flatMap Offer.nodes).length := by
      refine hleaves.tallied.counts hfresh (hnames.symm ▸ horderly) hnodup ?_
      rw [List.getElem?_map, hrule, Option.map_some]
    refine ⟨fun rule hrule => ?_, fun place rule next hrule hnext => ?_, fun rule hrule => ?_⟩
    · have hfirst : rules[0]? = some rule := by rwa [← List.head?_eq_getElem?]
      have hmap := congrArg List.length
        (Trace.map_node_offersOf_zero horderly (List.getElem?_eq_some_iff.mp hfirst).1)
      rw [List.length_map, List.length_map] at hmap
      rw [(hcounts hfirst).1, hmap, hdispatched]
    · have hmap := congrArg List.length
        (Trace.map_node_offersOf_succ horderly (List.getElem?_eq_some_iff.mp hnext).1)
      rw [List.length_map] at hmap
      rw [(hcounts hnext).1, (hcounts hrule).2, hmap]
    · have hlast : rules[rules.length - 1]? = some rule := by rwa [← List.getLast?_eq_getElem?]
      have hplace : rules.length - 1 + 1 = rules.length :=
        Nat.succ_pred_eq_of_pos (Nat.zero_lt_of_lt (List.getElem?_eq_some_iff.mp hlast).1)
      rw [hsize, (hcounts hlast).2, Trace.flatMap_nodes_offersOf_last horderly hplace]

end Dispatch

namespace Catalogue

open Dispatch

theorem dispatch_conserves_block : ∃ (nodes : List Node) (after : Run _),
    (dispatch (RuleType.instances duplicating.rules) 2 sharedBlock).run (duplicatingRun 2) =
      (.ok nodes, after) ∧
    (total (nodes.map Host.subtreeSize) : ℤ) = after.statistics.dispatched +
      after.statistics.inserted - after.statistics.deleted ∧
    (total (nodes.map Host.subtreeSize) : ℤ) =
      (after.statistics.counts (qualified "" "DuplicateStatement")).left := by
  obtain ⟨nodes, after, hrun, -⟩ := duplicating_run
  obtain ⟨hsize, hrules⟩ :=
    dispatch_conserves (pipeline_honest "" _) sharedBlock_mem sampleHeap_covers rfl hrun
  have hnodup : ((RuleType.instances duplicating.rules).map Rule.name).Nodup := by decide
  exact ⟨nodes, after, hrun, hsize, (hrules hnodup).2.2 _ rfl⟩

end Catalogue

end TreeRules
