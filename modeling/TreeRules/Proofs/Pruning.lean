import TreeRules.Proofs.Idleness
import TreeRules.Proofs.Multiplicity

/-!
# Pruning

A list of rules that delete by the label prunes a tree: what satisfies one of their predicates is cut
off with all that lies below it, and the rest stays as it was. Neither the order of the rules nor
their repetition matters, for only whether some rule wants a label does.
-/

namespace TreeRules

open Dispatch

variable {σ ε α : Type}

theorem flatMap_replicate_fan_zero {β γ : Type} (p : α → Bool) (label : β → α) (image : β → γ)
    (items : List β) :
    (items.flatMap fun item => List.replicate (fan p 0 (label item)) (image item)) =
      (items.filter fun item => !p (label item)).map image := by
  induction items with
  | nil => rfl
  | cons item rest ih =>
      rw [List.flatMap_cons, ih, fan]
      by_cases hp : p (label item) = true
      · simp [hp]
      · simp [hp]

namespace Outline

mutual

/-- The outline without the subtrees below its root whose tops satisfy the predicate. -/
def pruned (p : α → Bool) : Outline α → Outline α
  | node label children => node label (prunedAll p children)

def prunedAll (p : α → Bool) : List (Outline α) → List (Outline α)
  | [] => []
  | child :: rest => if p child.label then prunedAll p rest else pruned p child :: prunedAll p rest

end

theorem prunedAll_eq_map (p : α → Bool) (children : List (Outline α)) :
    prunedAll p children = (children.filter fun child => !p child.label).map (pruned p) := by
  induction children with
  | nil => rfl
  | cons child rest ih =>
      rw [prunedAll, ih]
      by_cases hp : p child.label = true
      · simp [hp]
      · simp [hp]

/-- To prune is to repeat what is cut off no times. -/
theorem image_fan_zero (p : α → Bool) (tree : Outline α) : tree.image (fan p 0) = tree.pruned p := by
  induction tree using inductionOn with
  | node label children ih =>
      rw [image_eq, pruned, prunedAll_eq_map, label_node, children_node,
        ← flatMap_replicate_fan_zero]
      refine congrArg (node label) (List.flatMap_congr fun child hchild => ?_)
      rw [ih child hchild]

end Outline

namespace Appearance

variable (p : α → Bool)

/-- Neither the node nor any node above it satisfies the predicate. -/
def spared (x : Appearance α) : Bool := x.labels.all fun label => !p label

/-- The node satisfies the predicate, and no node above it does. -/
def topmost (x : Appearance α) : Bool := p x.node.label && x.above.all fun node => !p node.label

@[simp]
theorem spared_root (tree : Tree α) : spared p ⟨[], tree⟩ = !p tree.label := by
  simp [spared, labels, path]

@[simp]
theorem spared_under (tree : Tree α) (x : Appearance α) :
    (x.under tree).spared p = (!p tree.label && x.spared p) := by
  simp [spared]

@[simp]
theorem topmost_under (tree : Tree α) (x : Appearance α) :
    (x.under tree).topmost p = (!p tree.label && x.topmost p) := by
  simp [topmost, Bool.and_left_comm]

theorem reach_fan_zero (x : Appearance α) : x.reach (fan p 0) =
    (if x.topmost p then 1 else 0) + if x.spared p then 1 else 0 := by
  obtain ⟨above, node⟩ := x
  induction above with
  | nil =>
      rw [reach_root, spared_root]
      by_cases hp : p node.label = true <;> simp [topmost, hp]
  | cons tree above ih =>
      have hreach : (under tree ⟨above, node⟩).reach (fan p 0) = fan p 0 tree.label *
          ((if topmost p ⟨above, node⟩ then 1 else 0) + if spared p ⟨above, node⟩ then 1 else 0) := by
        rw [reach_under, ih]
      change (under tree ⟨above, node⟩).reach (fan p 0) =
        (if (under tree ⟨above, node⟩).topmost p then 1 else 0) +
          if (under tree ⟨above, node⟩).spared p then 1 else 0
      rw [hreach, spared_under, topmost_under, fan]
      by_cases hp : p tree.label = true <;> simp [hp]

/-- What is dispatched is what is cut off and what is left. -/
theorem sum_reach_fan_zero (xs : List (Appearance α)) : (xs.map (reach (fan p 0))).sum =
    xs.countP (topmost p) + (xs.filter (spared p)).length := by
  induction xs with
  | nil => rfl
  | cons x xs ih =>
      rw [List.map_cons, List.sum_cons, ih, reach_fan_zero, List.countP_cons,
        ← List.countP_eq_length_filter, ← List.countP_eq_length_filter, List.countP_cons]
      omega

end Appearance

theorem Tree.replicas_fan_zero (p : α → Bool) (tree : Tree α) :
    tree.replicas (fan p 0) = tree.appearances.filter (Appearance.spared p) := by
  induction tree using inductionOn with
  | step tree ih =>
      have hchildren : tree.children.flatMap (replicas (fan p 0)) =
          (tree.children.flatMap appearances).filter (Appearance.spared p) := by
        rw [List.filter_flatMap]
        exact List.flatMap_congr ih
      rw [replicas_eq, appearances_eq, hchildren, fan, List.filter_cons, Appearance.spared_root,
        List.filter_map]
      by_cases hp : p tree.label = true
      · simp [hp, Function.comp_def]
      · simp [hp, Function.comp_def]

/-- So many dispatches, deletions and insertions were counted in between. -/
structure Statistics.Advances (before after : Statistics) (dispatched deleted inserted : Nat) :
    Prop where
  dispatched_eq : after.dispatched = before.dispatched + dispatched
  deleted_eq : after.deleted = before.deleted + deleted
  inserted_eq : after.inserted = before.inserted + inserted

namespace Dispatch

/-- A run of rules that delete, each what satisfies its predicate. -/
structure Deletions (rules : List (Rule σ ε Node)) (ps : List (Label → Bool)) (depth : Nat)
    (root : Node) (run : Run σ) : Prop where
  deletes : List.Forall₂ (fun rule p => Rule.Repeats rule p 0) rules ps
  depth_le : Host.subtreeDepth root ≤ depth
  covered : ∃ (refs : σ → Set Node) (heap : Heap Node), (∀ rule ∈ rules, rule.Honest refs) ∧
    root ∈ heap.objects ∧ heap.Covers refs run.workspace

/-- The nodes are what is left of the root once everything that satisfies the predicate is cut off. -/
structure Prunes (p : Label → Bool) (root : Node) (nodes : List Node) : Prop where
  outlines_eq : nodes.map Tree.outline = if p root.label then [] else [root.outline.pruned p]
  /-- What is left of a node is that very object if nothing below it was cut off. -/
  left : List.Forall₂ (fun x y => y.labels = x.labels ∧
      y.node.outline = x.node.outline.pruned p ∧
      ((∀ below ∈ x.node.preorder, p below.label = false) → y.node = x.node))
    (root.appearances.filter (Appearance.spared p)) (nodes.flatMap Tree.appearances)

variable {rules : List (Rule σ ε Node)} {ps : List (Label → Bool)} {depth : Nat} {root : Node}
  {run : Run σ}

theorem prod_fan_zero (ps : List (α → Bool)) (label : α) :
    ((ps.map fun p => fan p 0).map (· label)).prod = fan (fun label => ps.any (· label)) 0 label := by
  induction ps with
  | nil => rfl
  | cons p ps ih =>
      rw [List.map_cons, List.map_cons, List.prod_cons, ih, fan, fan, fan]
      by_cases hp : p label = true <;> simp [hp]

/-- What is counted when everything that satisfies the predicate is cut off. -/
theorem Trace.Multiplies.advances {trace : Trace Node} {p : Label → Bool}
    (h : trace.Multiplies (fan p 0)) {after : Run σ} (hleaves : Leaves rules run trace after)
    (hinserted : ((trace.events (rules.map Rule.name)).map Event.insertions).sum = 0) :
    run.statistics.Advances after.statistics
      (trace.node.appearances.countP (Appearance.topmost p) +
        (trace.node.appearances.filter (Appearance.spared p)).length)
      (trace.node.appearances.countP (Appearance.topmost p)) 0 := by
  have horderly := hleaves.follows.orderly
  have hdispatches := h.length_dispatches horderly
  rw [Appearance.sum_reach_fan_zero] at hdispatches
  have hsurvivors := h.length_survivors horderly
  rw [Tree.replicas_fan_zero] at hsurvivors
  have hnames : (rules.map Rule.name).length = rules.length := List.length_map _
  have hbalance := Trace.length_survivors_add horderly hnames
  refine ⟨?_, ?_, ?_⟩
  · rw [hleaves.dispatched_eq, hdispatches]
  · rw [hleaves.tallied.deleted]
    omega
  · rw [hleaves.tallied.inserted, hinserted]

/-- Deletions prune, and count what they cut off. -/
theorem Deletions.exists_prunes (h : Deletions rules ps depth root run) : ∃ nodes after,
    (dispatch rules depth root).run run = (.ok nodes, after) ∧
    Prunes (fun label => ps.any (· label)) root nodes ∧
    run.statistics.Advances after.statistics
      (root.appearances.countP (Appearance.topmost fun label => ps.any (· label)) +
        (nodes.flatMap Tree.preorder).length)
      (root.appearances.countP (Appearance.topmost fun label => ps.any (· label))) 0 := by
  have hfactors : List.Forall₂ Rule.Multiplies rules (ps.map fun p => fan p 0) :=
    List.forall₂_map_right_iff.mpr (h.deletes.imp fun _ _ hrule => hrule.multiplies)
  obtain ⟨refs, heap, honest, hroot, hcovers⟩ := h.covered
  obtain ⟨trace, after, later, hrun, rfl, hleaves, hsettled, htrace⟩ :=
    exists_trace_of_multiplies hfactors honest hroot hcovers h.depth_le
  simp only [prod_fan_zero] at htrace
  generalize (fun label => ps.any (· label)) = p at htrace ⊢
  have hleft := htrace.forall₂_replicas hsettled
  rw [Tree.replicas_fan_zero] at hleft
  have hsize : (trace.outputs.flatMap Tree.preorder).length =
      (trace.node.appearances.filter (Appearance.spared p)).length := by
    rw [hleft.length_eq, Tree.length_flatMap_appearances]
  have hinserted : ((trace.events (rules.map Rule.name)).map Event.insertions).sum =
      ((trace.events (rules.map Rule.name)).map fun _ => 0).sum := by
    refine hleaves.follows.sum_map_events_congr rfl fun rule hrule offer v w hanswers => ?_
    obtain ⟨q, _, hdeletes⟩ := exists_of_forall₂ h.deletes rule hrule
    rw [Offer.events, hdeletes.replacement_eq hanswers]
    by_cases hq : q offer.node.label = true <;> simp [hq, Event.insertions]
  simp only [List.map_const', List.sum_replicate, smul_zero] at hinserted
  refine ⟨_, after, hrun, ⟨?_, hleft.imp ?_⟩, ?_⟩
  · rw [(htrace.replaces hsettled).outlines_eq, Outline.image_fan_zero, fan]
    split <;> rfl
  · rintro x y ⟨hlabels, himages⟩
    refine ⟨hlabels, himages.outline_eq.trans (Outline.image_fan_zero _ _), fun hspared => ?_⟩
    refine himages.eq_of_still fun child hchild below hbelow => ?_
    exact fan_of_neg 0 (hspared below (Tree.preorder_subset_of_mem_children hchild hbelow))
  · rw [hsize]
    exact htrace.advances hleaves hinserted

/-- Nothing that is left satisfies the predicate. -/
theorem Prunes.not_of_mem_preorder {p : Label → Bool} {nodes : List Node}
    (h : Prunes p root nodes) {node below : Node} (hnode : node ∈ nodes)
    (hbelow : below ∈ node.preorder) : p below.label = false := by
  rw [← Tree.map_node_appearances] at hbelow
  obtain ⟨y, hy, rfl⟩ := List.mem_map.mp hbelow
  obtain ⟨x, hx, hlabels, -⟩ :=
    exists_of_forall₂ h.left.flip y (List.mem_flatMap.mpr ⟨node, hnode, hy⟩)
  have hspared : x.spared p = true := (List.mem_filter.mp hx).2
  have hlabel : y.node.label ∈ x.labels := by
    rw [← hlabels, Appearance.labels, Appearance.path]
    exact List.mem_map_of_mem (List.mem_append_right _ (List.mem_singleton_self _))
  simpa using List.all_eq_true.mp hspared y.node.label hlabel

/-- **Deletions prune.** Whatever the order of the rules and however often they occur, what satisfies
no predicate stays, in its place and as the same object where nothing below it was cut off; what was
cut off is counted once for its top; and what is left is left alone from then on. -/
theorem dispatch_prunes (h : Deletions rules ps depth root run) : ∃ nodes after deleted,
    (dispatch rules depth root).run run = (.ok nodes, after) ∧
    Prunes (fun label => ps.any (· label)) root nodes ∧
    deleted = root.appearances.countP (Appearance.topmost fun label => ps.any (· label)) ∧
    run.statistics.Advances after.statistics
      (deleted + (nodes.flatMap Tree.preorder).length) deleted 0 ∧
    (∀ node ∈ nodes, ∀ again enough, Host.subtreeDepth node ≤ enough → ∃ finish,
      (dispatch rules enough node).run again = (.ok [node], finish) ∧
      finish.statistics.deleted = again.statistics.deleted) ∧
    ∀ (τ δ : Type) (others : List (Rule τ δ Node)) (qs : List (Label → Bool)) (bound : Nat)
      (other : Run τ), (∀ q, q ∈ qs ↔ q ∈ ps) → Deletions others qs bound root other →
        ∃ nodes' after', (dispatch others bound root).run other = (.ok nodes', after') ∧
          nodes'.map Tree.outline = nodes.map Tree.outline ∧
          other.statistics.Advances after'.statistics
            (deleted + (nodes.flatMap Tree.preorder).length) deleted 0 := by
  obtain ⟨nodes, after, hrun, hprunes, hadvances⟩ := h.exists_prunes
  refine ⟨nodes, after, _, hrun, hprunes, rfl, hadvances, ?_, ?_⟩
  · intro node hnode again enough henough
    have hdeclines : ∀ below ∈ node.preorder, ∀ rule ∈ rules,
        Declines (fun run : Run σ => run.statistics.deleted) 0 rule below := by
      intro below hbelow rule hrule
      obtain ⟨p, hp, hdeletes⟩ := exists_of_forall₂ h.deletes rule hrule
      have hnone := hprunes.not_of_mem_preorder hnode hbelow
      refine declines_of_unwanted (fun _ _ => rfl) fun shared => ?_
      rw [hdeletes.wants]
      simpa using List.any_eq_false.mp hnone p hp
    exact dispatch_idle henough (fun _ => rfl) hdeclines again
  · intro τ δ others qs bound other hsame hothers
    obtain ⟨nodes', after', hrun', hprunes', hadvances'⟩ := hothers.exists_prunes
    have hany : (fun label => qs.any (· label)) = fun label : Label => ps.any (· label) := by
      funext label
      rw [Bool.eq_iff_iff, List.any_eq_true, List.any_eq_true]
      simp only [hsame]
    rw [hany] at hprunes' hadvances'
    have hsize : (nodes'.flatMap Tree.preorder).length = (nodes.flatMap Tree.preorder).length := by
      rw [← Tree.length_flatMap_appearances, ← Tree.length_flatMap_appearances,
        ← hprunes'.left.length_eq, hprunes.left.length_eq]
    rw [hsize] at hadvances'
    exact ⟨nodes', after', hrun', hprunes'.outlines_eq.trans hprunes.outlines_eq.symm, hadvances'⟩

end Dispatch

namespace Catalogue

open Dispatch

section Sample

theorem pipeline_deletions {entries : List Entry}
    (hentries : ∀ entry ∈ entries, ∀ node, entry.visit node = pure []) {blueprint : NodeBlueprint}
    {depth : Nat} (hdepth : Host.subtreeDepth (blueprint.build.run {}).1 ≤ depth) :
    Deletions (RuleType.instances (pipeline "" entries).rules)
      (entries.map fun entry label => entry.wantedKind == some label.kind) depth
      (blueprint.build.run {}).1 (firstRun entries (blueprint.build.run {}).2.next) := by
  obtain ⟨heap, hmem, hcovers⟩ := exists_heap_of_build blueprint
  exact ⟨pipeline_repeats "" hentries, hdepth, _, heap, pipeline_honest "" entries, hmem,
    hcovers entries⟩

open NodeBlueprint in
/-- A file with an identifier in an export, and with a string beside a number. -/
def cluttered : NodeBlueprint :=
  sourceFile [exportAssignment (identifier "exported"),
    branch .block [stringLiteral "text", numericLiteral "1"], identifier "alone",
    branch .block [numericLiteral "2"]]

/-- The export, the string and the other identifier go, in one order of the rules and in another; the
identifier in the export is not counted. -/
theorem dispatch_prunes_cluttered :
    let root := (cluttered.build.run {}).1
    let next := (cluttered.build.run {}).2.next
    let depth := Host.subtreeDepth root
    ∃ nodes after nodes' after',
      (dispatch (RuleType.instances
        (pipeline "" [.deleteExport, .deleteIdentifier, .deleteString]).rules) depth root).run
        (firstRun _ next) = (.ok nodes, after) ∧
      nodes.map Tree.outline = [.node { kind := .sourceFile }
        [.node { kind := .block } [.node { kind := .numericLiteral, text := some "1" } []],
          .node { kind := .block } [.node { kind := .numericLiteral, text := some "2" } []]]] ∧
      after.statistics.deleted = 3 ∧
      (dispatch (RuleType.instances (pipeline ""
        [.deleteString, .deleteIdentifier, .deleteString, .deleteExport]).rules) depth root).run
        (firstRun _ next) = (.ok nodes', after') ∧
      nodes'.map Tree.outline = nodes.map Tree.outline ∧ after'.statistics.deleted = 3 := by
  intro root next depth
  have hdeletions (entries : List Entry)
      (hentries : ∀ entry ∈ entries, ∀ node, entry.visit node = pure []) :=
    pipeline_deletions hentries (le_refl depth)
  have hfirst : ∀ entry ∈ [Entry.deleteExport, .deleteIdentifier, .deleteString],
      ∀ node, entry.visit node = pure [] := by
    simp only [List.forall_mem_cons]
    exact ⟨fun _ => rfl, fun _ => rfl, fun _ => rfl, fun _ h => absurd h List.not_mem_nil⟩
  have hsecond : ∀ entry ∈ [Entry.deleteString, .deleteIdentifier, .deleteString, .deleteExport],
      ∀ node, entry.visit node = pure [] := by
    simp only [List.forall_mem_cons]
    exact ⟨fun _ => rfl, fun _ => rfl, fun _ => rfl, fun _ => rfl,
      fun _ h => absurd h List.not_mem_nil⟩
  obtain ⟨nodes, after, deleted, hrun, hprunes, hdeleted, hadvances, -, hothers⟩ :=
    dispatch_prunes (hdeletions _ hfirst)
  obtain ⟨nodes', after', hrun', houtlines, hadvances'⟩ :=
    hothers _ _ _ _ depth _ (by simp [or_comm, or_left_comm]) (hdeletions _ hsecond)
  have hthree : deleted = 3 := by
    rw [hdeleted]
    decide +kernel
  refine ⟨nodes, after, nodes', after', hrun, ?_, ?_, hrun', houtlines, ?_⟩
  · rw [hprunes.outlines_eq]
    decide +kernel
  · rw [hadvances.deleted_eq, hthree]
    rfl
  · rw [hadvances'.deleted_eq, hthree]
    rfl

end Sample

end Catalogue

end TreeRules
