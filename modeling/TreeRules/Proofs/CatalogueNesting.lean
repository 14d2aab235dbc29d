import TreeRules.Proofs.CatalogueConduct
import TreeRules.Proofs.Nesting
import TreeRules.Proofs.Termination

/-!
# Runs of the catalogue end

The rules of the catalogue take up again what they added themselves: every appearance of a source
file gets one more statement, with a declaration in it, and every declaration gets another one beside
it. Neither the size nor the depth of a tree bounds that. But what is added lies at most three levels
below a source file, so it is enough that every source file keeps these levels in reserve.
-/

namespace TreeRules.Catalogue

open Dispatch

/-- The levels that the rules may put below a node of the kind, with the node's own. -/
def reserve (node : Node) : Nat :=
  match node.kind with
  | .sourceFile => 4
  | .variableDeclaration => 2
  | _ => 1

/-- The levels that the rules may make of a node. -/
abbrev reach (node : Node) : Nat := Host.reservedDepth reserve node

theorem reserve_le_four (node : Node) : reserve node ≤ 3 + 1 := by
  unfold reserve
  split <;> decide

theorem reach_congr {left right : Node} (hkind : left.kind = right.kind)
    (hchildren : left.children = right.children) : reach left = reach right := by
  have hbelow : Host.children left = Host.children right := hchildren
  rw [reach, reach, Host.reservedDepth_eq, Host.reservedDepth_eq, hbelow, reserve, reserve, hkind]

theorem reach_leaf {node : Node} (hreserve : reserve node ≤ 1) (hleaf : node.children = []) :
    reach node ≤ 1 := by
  refine Host.reservedDepth_le_iff.mpr ⟨hreserve, Nat.one_pos, fun child hchild => ?_⟩
  have hchild : child ∈ node.children := hchild
  rw [hleaf] at hchild
  cases hchild

theorem reserve_le_reach (node : Node) : reserve node ≤ reach node :=
  (Host.reservedDepth_le_iff.mp (le_refl (reach node))).1

theorem reach_pos (node : Node) : 0 < reach node := (falls_reservedDepth reserve).pos node

namespace Entry

open RuleM

theorem reach_transferred (supply : Supply) : reach (transferred.build.run supply).1 ≤ 2 := by
  have hleaf : ∀ child ∈ (transferred.build.run supply).1.children, reach child ≤ 1 :=
    List.forall_mem_cons.mpr
      ⟨reach_leaf le_rfl rfl, List.forall_mem_singleton.mpr (reach_leaf le_rfl rfl)⟩
  refine Host.reservedDepth_le_iff.mpr ⟨le_rfl, Nat.two_pos, fun child hchild => ?_⟩
  exact Nat.lt_succ_of_le (hleaf child hchild)

theorem reach_finalStatement (supply : Supply) :
    reach (finalStatement.build.run supply).1 ≤ 3 := by
  have hleaf : ∀ declaration ∈ (finalStatement.build.run supply).1.children,
      ∀ child ∈ declaration.children, reach child ≤ 1 :=
    List.forall_mem_singleton.mpr (List.forall_mem_cons.mpr
      ⟨reach_leaf le_rfl rfl, List.forall_mem_singleton.mpr (reach_leaf le_rfl rfl)⟩)
  refine Host.reservedDepth_le_iff.mpr ⟨Nat.le_add_left 1 2, Nat.succ_pos 2, ?_⟩
  refine List.forall_mem_singleton.mpr (Nat.lt_succ_of_le ?_)
  refine Host.reservedDepth_le_iff.mpr ⟨le_rfl, Nat.two_pos, fun child hchild => ?_⟩
  exact Nat.lt_succ_of_le (hleaf _ List.mem_cons_self child hchild)

/-- Below a source file there is room for the final statement. -/
theorem reach_copyWith {node last : Node} (hkind : node.kind = .sourceFile) (hlast : reach last ≤ 3)
    (supply : Supply) :
    reach ((node.copyWith (node.children ++ [last])).run supply).1 ≤ reach node := by
  have hreserve : 4 ≤ reach node := by
    have hle := reserve_le_reach node
    rwa [reserve, hkind] at hle
  obtain ⟨hself, hpos, hchildren⟩ := Host.reservedDepth_le_iff.mp (le_refl (reach node))
  refine Host.reservedDepth_le_iff.mpr ⟨hself, hpos, List.forall_mem_append.mpr ⟨hchildren, ?_⟩⟩
  exact List.forall_mem_singleton.mpr (Nat.lt_of_le_of_lt hlast hreserve)

theorem run_wants_fst (entry : Entry) (node : Node) (state : State) :
    ((entry.wants node).run state).1 = (entry.wantedKind == some node.kind) := by
  cases entry <;> rfl

theorem reach_withText (text : String) (node : Node) (supply : Supply) :
    reach ((node.withText text).run supply).1 = reach node := reach_congr rfl rfl

theorem returns_retext (text : String) (node : Node) :
    (retext text node).Returns fun nodes => ∀ other ∈ nodes, reach other ≤ reach node := by
  have hcreate : (create (node.withText text) : RuleM State Error Node).Returns
      fun new => reach new ≤ reach node :=
    .create fun supply => (reach_withText text node supply).le
  exact hcreate.bind fun new hnew => .pure (List.forall_mem_singleton.mpr hnew)

/-- **No rule of the catalogue extends the reach of what it takes.** -/
theorem emits_reach (scope : String) (entry : Entry) (node : Node) :
    (entry.ruleType scope).rule.Emits node fun other => reach other ≤ reach node := by
  intro state hwants
  have hkind : entry.wantedKind = some node.kind := by
    rw [← beq_iff_eq, ← entry.run_wants_fst node state]
    exact hwants
  change (entry.visit node).Returns fun nodes => ∀ other ∈ nodes, reach other ≤ reach node
  cases entry with
  | appendMessage =>
      refine (Returns.any _).bind fun state _ => ?_
      have hcreate : (create (Node.leaf .stringLiteral (node.textOrEmpty ++ state.1.message)) :
          RuleM State Error Node).Returns fun new => reach new ≤ 1 :=
        .create fun supply => reach_leaf le_rfl rfl
      refine hcreate.bind fun new hnew => .pure (List.forall_mem_singleton.mpr ?_)
      exact hnew.trans (reach_pos node)
  | transferValue =>
      have hcreate : (create transferred.build : RuleM State Error Node).Returns
          fun new => reach new ≤ 2 := .create reach_transferred
      refine hcreate.bind fun new hnew => .pure ?_
      have hreserve : 2 ≤ reach node := by
        have hle := reserve_le_reach node
        rwa [reserve, ← Option.some.inj hkind] at hle
      exact List.forall_mem_cons.mpr ⟨le_rfl, List.forall_mem_singleton.mpr (hnew.trans hreserve)⟩
  | addExport =>
      have hcreate : (create finalStatement.build : RuleM State Error Node).Returns
          fun last => reach last ≤ 3 := .create reach_finalStatement
      refine hcreate.bind fun last hlast => ?_
      have hcopy : (create (node.copyWith (node.children ++ [last])) : RuleM State Error Node).Returns
          fun new => reach new ≤ reach node :=
        .create fun supply => reach_copyWith (Option.some.inj hkind).symm hlast supply
      exact hcopy.bind fun new hnew => .pure (List.forall_mem_singleton.mpr hnew)
  | deleteExport | deleteIdentifier | deleteString =>
      exact .pure fun _ hother => absurd hother List.not_mem_nil
  | uppercaseIdentifier => exact returns_retext _ node
  | duplicateStatement | triplicateNumber =>
      refine .pure fun other hother => ?_
      simp only [List.mem_cons, List.not_mem_nil, or_false, or_self] at hother
      exact hother ▸ le_rfl
  | observe | rejectNumbers => exact .throw _
  | numberIdentifiers =>
      refine (Returns.any _).bind fun _ _ => ?_
      refine (Returns.any _).bind fun _ _ => ?_
      exact returns_retext _ node
  | stampFileName =>
      refine (Returns.any _).bind fun state _ => ?_
      obtain ⟨⟨_, _, _ | fileName, _, _, _⟩, _⟩ := state
      · exact .throw _
      · exact returns_retext _ node

end Entry

section Pipeline

variable (scope : String) (entries : List Entry)

theorem pipeline_emits_reach (node : Node) :
    ∀ rule ∈ RuleType.instances (pipeline scope entries).rules,
      rule.Emits node fun other => reach other ≤ reach node := by
  refine RuleType.instances_emit (forall_mem_rules scope entries fun entry => ?_)
  exact entry.emits_reach scope node

theorem reach_le (root : Node) : reach root ≤ Host.subtreeDepth root + 3 :=
  Host.reservedDepth_le reserve_le_four root

theorem pipeline_ne_tooDeep {root : Node} {depth : Nat} (hdepth : Host.subtreeDepth root + 3 ≤ depth)
    (run : Run (Context × RuleType.Memories (pipeline scope entries).rules)) :
    ((dispatch (RuleType.instances (pipeline scope entries).rules) depth root).run run).1 ≠
      .error .tooDeep := by
  refine dispatch_ne_tooDeep (falls_reservedDepth reserve) (fun rule hrule node => ?_)
    ((reach_le root).trans hdepth) run
  exact pipeline_emits_reach scope entries node rule hrule

/-- **All pipelines of the catalogue end.** Whatever the context and the memories are when a root is
dispatched, no more than the depth of the root and three levels of dispatches lie in each other, and
no tree of the result is deeper than that. -/
theorem pipeline_ends (root : Node)
    (run : Run (Context × RuleType.Memories (pipeline scope entries).rules)) :
    ∃ (result : Except Error (List Node)) (after : Run _),
      (∀ depth, Host.subtreeDepth root + 3 ≤ depth →
        (dispatch (RuleType.instances (pipeline scope entries).rules) depth root).run run =
          (result.mapError .failed, after)) ∧
      ∀ nodes, result = .ok nodes →
        ∀ node ∈ nodes, Host.subtreeDepth node ≤ Host.subtreeDepth root + 3 := by
  have hnot := pipeline_ne_tooDeep scope entries (le_refl (Host.subtreeDepth root + 3)) run
  rcases hrun : (dispatch (RuleType.instances (pipeline scope entries).rules)
      (Host.subtreeDepth root + 3) root).run run with ⟨ended, after⟩
  rw [hrun] at hnot
  obtain ⟨result, rfl⟩ := exists_of_ne_tooDeep hnot
  refine ⟨result, after, fun depth hdepth => ?_, ?_⟩
  · exact run_eq_of_le (dispatch_extends_succ _ · root) hdepth hrun
  · rintro nodes rfl node hnode
    obtain ⟨trace, rfl, rfl, hleaves⟩ := dispatch_ok hrun
    have houtputs := hleaves.follows.subtreeDepth_output_le (falls_reservedDepth reserve)
      fun rule hrule other => pipeline_emits_reach scope entries other rule hrule
    exact (houtputs node hnode).trans (reach_le trace.node)

end Pipeline

end TreeRules.Catalogue
