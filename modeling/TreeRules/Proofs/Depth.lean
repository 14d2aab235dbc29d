import TreeRules.Proofs.CatalogueNesting
import TreeRules.Proofs.Success

/-!
# Rules that never deepen a tree

How much a rule emits does not matter for whether a run ends: if nothing that a rule emits is deeper
than what it took, dispatches nest no deeper than the root, and neither is what they make of it. Nor
can the condition be left out. A rule that puts what it takes under a new node meets it again one
level further down, for ever.
-/

namespace TreeRules

open Dispatch DispatchM

variable {σ ε N α : Type}

namespace Dispatch

variable [Host N] {rules : List (Rule σ ε N)} {rank : N → Nat}

/-- A run ends within a rank that no rule raises, and the result is no deeper than the rank. -/
theorem exists_result_of_falls [Host.Faithful N] (hfalls : Falls rank)
    (hemits : ∀ rule ∈ rules, ∀ node, rule.Emits node fun emitted => rank emitted ≤ rank node)
    (root : N) (run : Run σ) :
    ∃ (result : Except ε (List N)) (after : Run σ),
      (∀ depth, rank root ≤ depth →
        (dispatch rules depth root).run run = (result.mapError .failed, after)) ∧
      ∀ nodes, result = .ok nodes → ∀ node ∈ nodes, Host.subtreeDepth node ≤ rank root := by
  have hnot := dispatch_ne_tooDeep hfalls hemits (le_refl (rank root)) run
  rcases hrun : (dispatch rules (rank root) root).run run with ⟨ended, after⟩
  rw [hrun] at hnot
  obtain ⟨result, rfl⟩ := exists_of_ne_tooDeep hnot
  refine ⟨result, after, fun depth hdepth => ?_, ?_⟩
  · exact run_eq_of_le (dispatch_extends_succ rules · root) hdepth hrun
  · rintro nodes rfl
    obtain ⟨trace, rfl, rfl, hleaves⟩ := dispatch_ok hrun
    exact hleaves.follows.subtreeDepth_output_le hfalls hemits

end Dispatch

/-- In whatever state, the rule emits nothing deeper than what it took. -/
def Rule.NeverDeepens [Host N] (rule : Rule σ ε N) : Prop :=
  ∀ node, rule.Emits node fun emitted => Host.subtreeDepth emitted ≤ Host.subtreeDepth node

/-- **Rules that never deepen a tree end within its depth.** The run ends, with no more dispatches in
each other than the root has levels, and no tree of the result has more. -/
theorem dispatch_ends_within_depth [Host N] [Host.Faithful N] {rules : List (Rule σ ε N)}
    (h : ∀ rule ∈ rules, rule.NeverDeepens) (root : N) (run : Run σ) :
    ∃ (result : Except ε (List N)) (after : Run σ),
      (∀ depth, Host.subtreeDepth root ≤ depth →
        (dispatch rules depth root).run run = (result.mapError .failed, after)) ∧
      ∀ nodes, result = .ok nodes →
        ∀ node ∈ nodes, Host.subtreeDepth node ≤ Host.subtreeDepth root :=
  exists_result_of_falls falls_subtreeDepth h root run

theorem Tree.subtreeDepth_node [Relabel α] (i : ObjectId) (label : α) (children : List (Tree α)) :
    Host.subtreeDepth (node i label children) =
      1 + (children.map Host.subtreeDepth).foldr max 0 := Host.subtreeDepth_eq _

section Wrapping

variable [Relabel α] (name : String) (label : α)

/-- The rule that puts every node under a new one. -/
def Rule.wrapping : Rule σ ε (Tree α) where
  name := name
  wants _ := return true
  visit node := do return [← RuleM.create (Tree.create label [node])]

omit [Relabel α] in
theorem survivors_wrapping (node : Tree α) (run : Run σ) :
    ∃ i after, (survivors [Rule.wrapping name label] [node] : DispatchM σ ε _).run run =
      (.ok [.node i label [node]], after) :=
  ⟨run.workspace.supply.next, _, rfl⟩

/-- **A rule that wraps what it takes never ends,** however deep dispatches may nest. -/
theorem dispatch_wrapping (depth : Nat) (node : Tree α) (run : Run σ) :
    ((dispatch [Rule.wrapping name label] depth node : DispatchM σ ε _).run run).1 =
      .error .tooDeep := by
  induction depth generalizing node run with
  | zero => rfl
  | succ depth ih =>
      obtain ⟨i, start, hsurvivors⟩ := survivors_wrapping (ε := ε) name label node
        { run with statistics := run.statistics.recordDispatch }
      rcases hinner : (dispatch [Rule.wrapping name label] depth node : DispatchM σ ε _).run start
        with ⟨ended, last⟩
      have hended : ended = .error .tooDeep := by
        rw [← ih node start, hinner]
      subst hended
      -- The children of the survivor are the wrapped node alone, and its dispatch halts.
      have heach : (dispatchEach (dispatch [Rule.wrapping name label] depth) [node] :
          DispatchM σ ε _).run start = (.error .tooDeep, last) :=
        bind_error_iff.mpr (.inl hinner)
      have hrebuild : (rebuildEach (dispatch [Rule.wrapping name label] depth)
          [Tree.node i label [node]] : DispatchM σ ε _).run start = (.error .tooDeep, last) :=
        bind_error_iff.mpr (.inl (bind_error_iff.mpr (.inl heach)))
      have hrun : (dispatch [Rule.wrapping name label] (depth + 1) node : DispatchM σ ε _).run run =
          (.error .tooDeep, last) :=
        bind_error_iff.mpr (.inr ⟨(), _, rfl, bind_error_iff.mpr (.inr ⟨_, _, hsurvivors, hrebuild⟩)⟩)
      rw [hrun]

end Wrapping

namespace Catalogue

namespace Entry

variable {node : Node}

theorem subtreeDepth_withText (text : String) (node : Node) (supply : Supply) :
    Host.subtreeDepth ((node.withText text).run supply).1 = Host.subtreeDepth node := by
  rw [Host.subtreeDepth_eq, Host.subtreeDepth_eq node]
  rfl

theorem retext_neverDeepens (text : String) (node : Node) :
    (retext text node).Returns fun nodes =>
      ∀ other ∈ nodes, Host.subtreeDepth other ≤ Host.subtreeDepth node := by
  have hcreate : (RuleM.create (node.withText text) : RuleM State Error Node).Returns
      fun new => Host.subtreeDepth new ≤ Host.subtreeDepth node :=
    .create fun supply => (subtreeDepth_withText text node supply).le
  exact hcreate.bind fun new hnew => .pure (List.forall_mem_singleton.mpr hnew)

/-- Only the two rules that add declarations may deepen a tree. -/
theorem neverDeepens {entry : Entry} (htransfer : entry ≠ .transferValue)
    (hexport : entry ≠ .addExport) (scope : String) :
    (entry.ruleType scope).rule.NeverDeepens := by
  intro node state _
  change (entry.visit node).Returns fun nodes =>
    ∀ other ∈ nodes, Host.subtreeDepth other ≤ Host.subtreeDepth node
  cases entry with
  | transferValue => exact absurd rfl htransfer
  | addExport => exact absurd rfl hexport
  | appendMessage =>
      refine (RuleM.Returns.any _).bind fun state _ => ?_
      have hcreate : (RuleM.create (Node.leaf .stringLiteral (node.textOrEmpty ++ state.1.message)) :
          RuleM State Error Node).Returns fun new => Host.subtreeDepth new ≤ 1 :=
        .create fun supply => Host.subtreeDepth_le_iff.mpr
          ⟨Nat.one_pos, fun _ hchild => absurd hchild List.not_mem_nil⟩
      refine hcreate.bind fun new hnew => .pure (List.forall_mem_singleton.mpr ?_)
      exact hnew.trans (falls_subtreeDepth.pos node)
  | deleteExport | deleteIdentifier | deleteString =>
      exact .pure fun _ hother => absurd hother List.not_mem_nil
  | uppercaseIdentifier => exact retext_neverDeepens _ node
  | duplicateStatement | triplicateNumber =>
      refine .pure fun other hother => ?_
      simp only [List.mem_cons, List.not_mem_nil, or_false, or_self] at hother
      exact hother ▸ le_rfl
  | observe | rejectNumbers => exact .throw _
  | numberIdentifiers =>
      refine (RuleM.Returns.any _).bind fun _ _ => ?_
      refine (RuleM.Returns.any _).bind fun _ _ => ?_
      exact retext_neverDeepens _ node
  | stampFileName =>
      refine (RuleM.Returns.any _).bind fun state _ => ?_
      obtain ⟨⟨_, _, _ | fileName, _, _, _⟩, _⟩ := state
      · exact .throw _
      · exact retext_neverDeepens _ node

end Entry

theorem pipeline_neverDeepens (scope : String) {entries : List Entry}
    (htransfer : Entry.transferValue ∉ entries) (hexport : Entry.addExport ∉ entries) :
    ∀ rule ∈ RuleType.instances (pipeline scope entries).rules, rule.NeverDeepens := by
  intro rule hrule node
  refine RuleType.instances_emit (fun type htype => ?_) rule hrule
  obtain ⟨entry, hentry, rfl⟩ := List.mem_map.mp htype
  exact Entry.neverDeepens (ne_of_mem_of_not_mem hentry htransfer)
    (ne_of_mem_of_not_mem hentry hexport) scope node

section Sample

open NodeBlueprint in
/-- A statement with a number and a text in it. -/
def measured : NodeBlueprint :=
  NodeBlueprint.block [expressionStatement (callExpression (identifier "f")
    [numericLiteral "1", stringLiteral "text"])]

def growing : List Entry := [.duplicateStatement, .numberIdentifiers, .triplicateNumber, .observe]

open NodeBlueprint in
/-- The statement twice, with three numbers in each. -/
def grown : Outline Label :=
  let numbers := List.replicate 3 (numericLiteral "1")
  let statement (name : String) := expressionStatement (callExpression (identifier name)
    (numbers ++ [stringLiteral "text"]))
  (NodeBlueprint.block [statement "f_0", statement "f_1"]).outline

/-- Dispatches nest no deeper than the four levels of the root, though it gets more than twice as
large. -/
theorem dispatch_ends_within_depth_growing :
    let root := (measured.build.run {}).1
    ∃ nodes after,
      (∀ depth, 4 ≤ depth →
        (dispatch (RuleType.instances (pipeline "" growing).rules) depth root).run
          (firstRun growing (measured.build.run {}).2.next) = (.ok nodes, after)) ∧
      nodes.map Tree.outline = [grown] ∧
      ∀ node ∈ nodes, Host.subtreeDepth node ≤ 4 := by
  intro root
  have hdepth : Host.subtreeDepth root = 4 := by
    change Host.subtreeDepth (Tree.node _ _ [Tree.node _ _ [Tree.node _ _
      [Tree.node _ _ [], Tree.node _ _ [], Tree.node _ _ []]]]) = 4
    simp [Tree.subtreeDepth_node]
  have hrules := pipeline_neverDeepens "" (by decide : .transferValue ∉ growing)
    (by decide : .addExport ∉ growing)
  obtain ⟨result, after, hrun, hresult⟩ := dispatch_ends_within_depth hrules root
    (firstRun growing (measured.build.run {}).2.next)
  rw [hdepth] at hrun hresult
  obtain ⟨nodes, final, hnodes, houtlines⟩ : ∃ nodes after,
      (dispatch (RuleType.instances (pipeline "" growing).rules) 4 root).run
        (firstRun growing (measured.build.run {}).2.next) = (.ok nodes, after) ∧
      nodes.map Tree.outline = [grown] := exists_ok_of_outlines (by decide +kernel)
  have hended := hnodes.symm.trans (hrun 4 le_rfl)
  rcases result with error | others
  · cases hended
  · cases hended
    exact ⟨nodes, after, hrun, houtlines, hresult nodes rfl⟩

end Sample

end Catalogue

end TreeRules
