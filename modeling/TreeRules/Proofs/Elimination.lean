import TreeRules.Proofs.CatalogueNesting
import TreeRules.Proofs.Idleness

/-!
# Elimination

A rule that takes all nodes with certain labels, and emits no such node, leaves none of them in the
working list; and if the rules behind it do not bring any back then there is none among the survivors
of any dispatch. New subtrees may be full of them: these are dispatched in their turn. A tree without
such nodes is a normal form of the rule, which finds nothing to do in it.
-/

namespace TreeRules

variable {σ ε N : Type}

namespace Dispatch

section Survivors

variable {before later : List (Rule σ ε N)} {rule : Rule σ ε N} {start finish : Workspace σ}
  {nodes survivors : List N} {rounds : List (List (Offer N))} {q : N → Prop}

/-- What a rule establishes and the rules behind it hand on, the survivors have. -/
theorem Rounds.forall_survivors_of_rule (h : Rounds (before ++ rule :: later) start rounds finish)
    (hrelay : Relay nodes rounds survivors) (hrule : ∀ node, rule.Emits node q)
    (hrefused : ∀ node shared shared', (rule.wants node).run shared = (false, shared') → q node)
    (hlater : ∀ other ∈ later, ∀ node, q node → other.Emits node q) :
    ∀ survivor ∈ survivors, q survivor := by
  induction before generalizing nodes start rounds with
  | nil =>
      cases h with
      | cons hround hrounds =>
          cases hrelay with
          | cons hrelay =>
              refine hrounds.forall_survivors hrelay hlater ?_
              refine forall_mem_flatMap_nodes hround fun offer _ v w hanswers => ?_
              exact hanswers.forall_mem_nodes (hrule offer.node) (hrefused offer.node)
  | cons other before ih =>
      cases h with
      | cons _ hrounds =>
          cases hrelay with
          | cons hrelay => exact ih hrounds hrelay

theorem Follows.forall_survivors_of_rule [Host N] {trace : Trace N}
    (h : Follows (before ++ rule :: later) start trace finish) (hrule : ∀ node, rule.Emits node q)
    (hrefused : ∀ node shared shared', (rule.wants node).run shared = (false, shared') → q node)
    (hlater : ∀ other ∈ later, ∀ node, q node → other.Emits node q) :
    ∀ survivor ∈ trace.dispatches.flatMap Trace.survivors, q survivor := by
  intro survivor hsurvivor
  obtain ⟨inner, hinner, hsurvivor⟩ := List.mem_flatMap.mp hsurvivor
  obtain ⟨_, _, hfollows⟩ := h.exists_of_mem_dispatches inner hinner
  cases hfollows with
  | dispatch hrelay hrounds _ =>
      exact hrounds.forall_survivors_of_rule hrelay hrule hrefused hlater survivor hsurvivor

end Survivors

/-- **A rule eliminates what it takes.** Suppose that a rule takes the nodes whose labels satisfy `p`,
and no others, and emits none of them, and that the rules behind it turn no other node into one of
them. Then there is none at any depth of the result, whatever the rules before it do; and the rule,
run once more over a tree of the result, returns the tree itself and visits nothing. -/
theorem dispatch_eliminates {refs : σ → Set Node} {p : Label → Prop}
    {before later : List (Rule σ ε Node)} {rule : Rule σ ε Node}
    (honest : ∀ other ∈ before ++ rule :: later, other.Honest refs)
    (hwants : ∀ node shared, ((rule.wants node).run shared).1 = true ↔ p node.label)
    (hrule : ∀ node, rule.Emits node fun other => ¬ p other.label)
    (hlater : ∀ other ∈ later, ∀ node, ¬ p node.label → other.Emits node fun new => ¬ p new.label)
    {heap : Heap Node} {root : Node} (hroot : root ∈ heap.objects) {run after : Run σ}
    (hcovers : heap.Covers refs run.workspace) {depth : Nat} {nodes : List Node}
    (h : (dispatch (before ++ rule :: later) depth root).run run = (.ok nodes, after)) :
    ∀ node ∈ nodes, (∀ below ∈ node.preorder, ¬ p below.label) ∧
      ∀ again enough, Host.subtreeDepth node ≤ enough → ∃ finish,
        (dispatch [rule] enough node).run again = (.ok [node], finish) ∧
        finish.statistics.totalMatches = again.statistics.totalMatches := by
  obtain ⟨trace, rfl, rfl, hleaves⟩ := dispatch_ok h
  have hfollows := hleaves.follows
  have hrefused : ∀ node shared shared', (rule.wants node).run shared = (false, shared') →
      ¬ p node.label := by
    intro node shared shared' hasked hlabel
    have htrue := (hwants node shared).mpr hlabel
    rw [hasked] at htrue
    cases htrue
  have hsurvivors := hfollows.forall_survivors_of_rule hrule hrefused hlater
  obtain ⟨_, hsettled⟩ := hfollows.exists_settled honest hroot hcovers
  have hlabels := Trace.labels_perm hsettled
  intro node hnode
  have hclear : ∀ below ∈ node.preorder, ¬ p below.label := by
    intro below hbelow
    have hmem : below.label ∈ (trace.outputs.flatMap Tree.preorder).map Tree.label :=
      List.mem_map_of_mem (List.mem_flatMap.mpr ⟨node, hnode, hbelow⟩)
    obtain ⟨survivor, hsurvivor, hlabel⟩ := List.mem_map.mp (hlabels.mem_iff.mp hmem)
    rw [← hlabel]
    exact hsurvivors survivor hsurvivor
  refine ⟨hclear, fun again enough henough => ?_⟩
  have hdeclines : ∀ below ∈ node.preorder, ∀ other ∈ [rule],
      Declines (fun run : Run σ => run.statistics.totalMatches) 0 other below := by
    intro below hbelow
    refine List.forall_mem_singleton.mpr (declines_of_unwanted
      Statistics.totalMatches_recordOffer fun shared => ?_)
    rw [Bool.eq_false_iff, Ne, hwants]
    exact hclear below hbelow
  exact dispatch_idle henough (fun _ => rfl) hdeclines again

end Dispatch

namespace Catalogue

open Dispatch

section Sample

/-- A pipeline that deletes identifiers between two rules that add some. -/
def purging : List Entry := [.addExport, .deleteIdentifier, .transferValue]

def nameNode (id : ObjectId) : Node := .node id { kind := .identifier, text := some "name" } []

/-- A source file that holds one identifier object twice. -/
def nameFile : Node := .node 1 { kind := .sourceFile } [nameNode 0, nameNode 0]

def nameHeap : Heap Node :=
  let heap := Heap.empty.add (nameNode 0) rfl fun _ hchild => absurd hchild List.not_mem_nil
  have hname : nameNode 0 ∈ heap.objects := Heap.mem_add _ _
  heap.add nameFile rfl (List.forall_mem_cons.mpr ⟨hname, List.forall_mem_singleton.mpr hname⟩)

theorem purging_run : ∃ nodes after,
    (dispatch (RuleType.instances (pipeline "" purging).rules) 5 nameFile).run (firstRun purging 2) =
      (.ok nodes, after) ∧
    nodes.map Tree.outline = [.node { kind := .sourceFile } [.node { kind := .variableStatement }
      (List.replicate 2 (.node { kind := .variableDeclaration } []))]] :=
  exists_ok_of_outlines (by decide +kernel)

/-- The two declarations that are left have lost their identifiers. -/
theorem dispatch_eliminates_identifiers : ∃ nodes after,
    (dispatch (RuleType.instances (pipeline "" purging).rules) 5 nameFile).run (firstRun purging 2) =
      (.ok nodes, after) ∧
    nodes.length = 1 ∧ ∀ node ∈ nodes, ∀ below ∈ node.preorder, below.label.kind ≠ .identifier := by
  let first := (Entry.addExport.ruleType "").rule
  let purge := (Entry.deleteIdentifier.ruleType "").rule
  let last := (Entry.transferValue.ruleType "").rule
  obtain ⟨nodes, after, hrun, houtlines⟩ := purging_run
  have hwants (node : Node) (state : Entry.State) :
      ((purge.wants node).run state).1 = true ↔ node.label.kind = .identifier := by
    have hasked := Entry.run_wants_fst .deleteIdentifier node state
    rw [show ((purge.wants node).run state).1 = _ from hasked, beq_iff_eq]
    exact ⟨fun h => (Option.some.inj h).symm, fun h => congrArg some h.symm⟩
  have hpurge (node : Node) : purge.Emits node fun other => ¬ other.label.kind = .identifier :=
    fun _ _ => .pure fun _ hother => absurd hother List.not_mem_nil
  have hlast (node : Node) (hnode : ¬ node.label.kind = .identifier) :
      last.Emits node fun other => ¬ other.label.kind = .identifier := by
    intro _ _
    have hcreate : (RuleM.create Entry.transferred.build : RuleM Entry.State Error Node).Returns
        fun new => ¬ new.label.kind = .identifier := .create fun _ => Kind.noConfusion
    refine hcreate.bind fun new hnew => .pure ?_
    exact List.forall_mem_cons.mpr ⟨hnode, List.forall_mem_singleton.mpr hnew⟩
  have hclear := @dispatch_eliminates _ _ _ (fun label => label.kind = .identifier)
    [first.on RuleType.headPart]
    [((last.on RuleType.headPart).on RuleType.tailPart).on RuleType.tailPart]
    ((purge.on RuleType.headPart).on RuleType.tailPart) (pipeline_honest "" purging)
    (fun node whole => hwants node (whole.1, whole.2.2.1))
    (fun node => ((hpurge node).on _).on _)
    (List.forall_mem_singleton.mpr fun node hnode => (((hlast node hnode).on _).on _).on _)
    nameHeap nameFile (.inl rfl) (firstRun purging 2) after ⟨rfl, fun _ hnode => by cases hnode⟩ 5
    nodes hrun
  refine ⟨nodes, after, hrun, ?_, fun node hnode => (hclear node hnode).1⟩
  simpa using congrArg List.length houtlines

end Sample

end Catalogue

end TreeRules
