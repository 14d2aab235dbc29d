import TreeRules.Proofs.Multiplicity

/-!
# Fan-out

A rule that emits the visited object several times fans out. The copies stay in the working list and
are not offered to the rule again, but each is dispatched below by itself; so a node is repeated once
more with every node above it that was repeated, and the rule meets it once less.
-/

namespace TreeRules

open Dispatch

variable {σ ε α β : Type}

theorem filter_flatMap_replicate {γ : Type} (p : γ → Bool) (items : List β) (count : β → Nat)
    (image : β → γ) :
    (items.flatMap fun item => List.replicate (count item) (image item)).filter p =
      (items.filter fun item => p (image item)).flatMap fun item =>
        List.replicate (count item) (image item) := by
  induction items with
  | nil => rfl
  | cons item rest ih =>
      rw [List.flatMap_cons, List.filter_append, ih, List.filter_replicate, List.filter_cons]
      by_cases hp : p (image item) = true <;> simp [hp]

namespace Appearance

variable (p : α → Bool) (count : Nat) (x : Appearance α)

/-- How many nodes on the way from the root to the node satisfy the predicate, both included. -/
def hits : Nat := x.labels.countP p

theorem weight_fan : x.weight (fan p count) = count ^ x.hits p := prod_map_fan p count x.labels

theorem reach_fan (hp : p x.node.label = true) :
    x.reach (fan p count) = count ^ (x.hits p - 1) := by
  have hhits : x.hits p = (x.above.map Tree.label).countP p + 1 := by
    simp [hits, labels, path, List.countP_append, hp]
  have hreach : x.reach (fan p count) = ((x.above.map Tree.label).map (fan p count)).prod := by
    rw [reach, List.map_map]
    rfl
  rw [hhits, hreach, prod_map_fan, Nat.add_sub_cancel]

end Appearance

namespace Dispatch

theorem Offer.sum_visits (rule : String) (offers : List (Offer Node)) :
    ((offers.flatMap (Offer.events rule)).map (Event.visits rule)).sum =
      (offers.filter fun offer => offer.replacement.isSome).length := by
  induction offers with
  | nil => rfl
  | cons offer offers ih =>
      obtain ⟨node, _ | nodes⟩ := offer
      · simp [Offer.events, Event.visits, ih]
      · simp [Offer.events, Event.visits, ih, Nat.add_comm]

/-- The nodes are what the root becomes when its nodes are repeated: every appearance stands in the
result once for each choice on the way to it, with the same labels on the way, and what stands for
one node stands side by side. -/
structure FansOut (p : Label → Bool) (count : Nat) (root : Node) (nodes : List Node) : Prop where
  replaces : Node.Replaces (fan p count) root nodes
  appearances : ∃ origins : List (Appearance Label),
    origins.Perm (root.appearances.flatMap fun x => List.replicate (count ^ x.hits p) x) ∧
    List.Forall₂ (fun x y => y.labels = x.labels ∧ Node.Images (fan p count) x.node y.node)
      origins (nodes.flatMap Tree.appearances)
  size_eq : (nodes.flatMap Tree.preorder).length =
    (root.appearances.map fun x => count ^ x.hits p).sum

theorem Trace.Multiplies.fansOut {p : Label → Bool} {count : Nat} {trace : Trace Node}
    (h : trace.Multiplies (fan p count)) {heap : Heap Node} {rules : Nat}
    (hsettled : ∀ inner ∈ trace.dispatches, inner.Settled heap rules) :
    FansOut p count trace.node trace.outputs := by
  have hperm := trace.node.replicas_perm (fan p count)
  have hreplicas := h.forall₂_replicas hsettled
  simp only [Appearance.weight_fan] at hperm
  refine ⟨h.replaces hsettled, ⟨_, hperm, hreplicas⟩, ?_⟩
  rw [← Tree.length_flatMap_appearances, ← hreplicas.length_eq, hperm.length_eq]
  simp only [List.length_flatMap, List.length_replicate]

variable {rule : Rule σ ε Node} {p : Label → Bool} {count : Nat}

/-- **Fan-out multiplies on the way down.** The rule is wanted for a node once for each choice above
it; what it inserts is counted for every match. -/
theorem dispatch_fans_out (hrule : rule.Repeats p count) {refs : σ → Set Node}
    (honest : rule.Honest refs) {heap : Heap Node} {root : Node} (hroot : root ∈ heap.objects)
    {run : Run σ} (hcovers : heap.Covers refs run.workspace) {depth : Nat}
    (hdepth : Host.subtreeDepth root ≤ depth) :
    ∃ trace after wanted,
      (dispatch [rule] depth root).run run = (.ok trace.outputs, after) ∧
      trace.node = root ∧ Leaves [rule] run trace after ∧ FansOut p count root trace.outputs ∧
      wanted = (trace.offersOf 0).filter (fun offer => offer.replacement.isSome) ∧
      (wanted.map Offer.node).Perm ((root.appearances.filter fun x => p x.node.label).flatMap
        fun x => List.replicate (count ^ (x.hits p - 1)) x.node) ∧
      (after.statistics.counts rule.name).matched =
        (run.statistics.counts rule.name).matched + wanted.length ∧
      after.statistics.inserted = run.statistics.inserted + (count - 1) * wanted.length := by
  have honest : ∀ other ∈ [rule], other.Honest refs := List.forall_mem_singleton.mpr honest
  obtain ⟨trace, after, later, hrun, rfl, hleaves, hsettled, htrace⟩ :=
    exists_trace_of_multiplies (.cons hrule.multiplies .nil) honest hroot hcovers hdepth
  have horderly := hleaves.follows.orderly
  have htrace : trace.Multiplies (fan p count) := by
    simpa only [List.map_cons, List.map_nil, List.prod_cons, List.prod_nil, Nat.mul_one] using htrace
  have hoffered := Trace.map_node_offersOf_zero horderly Nat.one_pos
  have hmatched : ∀ offer ∈ trace.offersOf 0,
      offer.replacement.isSome = p offer.node.label := by
    intro offer hoffer
    obtain ⟨_, _, hanswers⟩ := hleaves.follows.exists_answers rfl offer hoffer
    rw [hrule.replacement_eq hanswers]
    by_cases hp : p offer.node.label = true <;> simp [hp]
  have hvisits : ((trace.events [rule.name]).map (Event.visits rule.name)).sum =
      ((trace.offersOf 0).filter fun offer => offer.replacement.isSome).length := by
    have hname : [rule.name][0]? = some rule.name := rfl
    rw [Trace.sum_map_events_eq horderly rfl (fun _ hother offer => offer.sum_visits_of_ne hother)
      (List.nodup_singleton rule.name) rfl hname, Offer.sum_visits]
  refine ⟨trace, after, _, hrun, rfl, hleaves, htrace.fansOut hsettled, rfl, ?_, ?_, ?_⟩
  · calc ((trace.offersOf 0).filter fun offer => offer.replacement.isSome).map Offer.node
        = ((trace.offersOf 0).map Offer.node).filter fun node => p node.label := by
          rw [List.filter_map, List.filter_congr hmatched]
          rfl
      List.Perm _ ((trace.node.appearances.flatMap fun x =>
            List.replicate (x.reach (fan p count)) x.node).filter fun node => p node.label) := by
          rw [hoffered]
          exact (htrace.map_node_dispatches_perm horderly).filter _
      _ = (trace.node.appearances.filter fun x => p x.node.label).flatMap fun x =>
            List.replicate (count ^ (x.hits p - 1)) x.node := by
          rw [filter_flatMap_replicate]
          refine List.flatMap_congr fun x hx => ?_
          rw [x.reach_fan p count (List.mem_filter.mp hx).2]
  · rw [hleaves.tallied.matched, ← hvisits]
    rfl
  · rw [hleaves.tallied.inserted, ← hvisits, ← List.sum_map_mul_left]
    refine congrArg _ (hleaves.follows.sum_map_events_congr rfl ?_)
    refine List.forall_mem_singleton.mpr fun offer v w hanswers => ?_
    rw [Offer.events, hrule.replacement_eq hanswers]
    by_cases hp : p offer.node.label = true <;> simp [hp, Event.insertions, Event.visits]

end Dispatch

namespace Catalogue

open Dispatch

section Sample

open NodeBlueprint in
/-- A file with a statement inside a statement. -/
def nestedStatements : NodeBlueprint :=
  sourceFile [expressionStatement (branch .block [expressionStatement (identifier "inner")]),
    identifier "beside"]

/-- The outer statement is doubled, and the inner one in each of the two; so there are four of it, but
only three matches. -/
theorem dispatch_fans_out_nested :
    let root := (nestedStatements.build.run {}).1
    let inner : Outline Label := .node { kind := .expressionStatement }
      [.node { kind := .identifier, text := some "inner" } []]
    let outer : Outline Label :=
      .node { kind := .expressionStatement } [.node { kind := .block } [inner, inner]]
    ∃ nodes after,
      (dispatch (RuleType.instances (pipeline "" [.duplicateStatement]).rules)
        (Host.subtreeDepth root) root).run
        (firstRun _ (nestedStatements.build.run {}).2.next) = (.ok nodes, after) ∧
      nodes.map Tree.outline = [.node { kind := .sourceFile }
        [outer, outer, .node { kind := .identifier, text := some "beside" } []]] ∧
      (nodes.flatMap Tree.preorder).length = 14 ∧ after.statistics.inserted = 3 := by
  intro root inner outer
  obtain ⟨heap, hmem, hcovers⟩ := exists_heap_of_build nestedStatements
  have hrule := (Entry.repeats "" fun _ => rfl : (Entry.duplicateStatement.ruleType "").rule.Repeats
    (fun label => Entry.duplicateStatement.wantedKind == some label.kind) 2)
  have honest := pipeline_honest "" [.duplicateStatement]
  obtain ⟨trace, after, wanted, hrun, hnode, -, hfans, -, hwanted, -, hinserted⟩ :=
    dispatch_fans_out (hrule.on RuleType.headPart) (honest _ List.mem_cons_self) hmem
      (hcovers [.duplicateStatement]) (le_refl (Host.subtreeDepth root))
  refine ⟨trace.outputs, after, hrun, ?_, ?_, ?_⟩
  · rw [hfans.replaces.outlines_eq]
    decide +kernel
  · rw [hfans.size_eq]
    decide +kernel
  · have hlength := hwanted.length_eq
    rw [List.length_map] at hlength
    rw [hinserted, hlength]
    decide +kernel

end Sample

end Catalogue

end TreeRules
