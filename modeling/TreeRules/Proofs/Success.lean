import TreeRules.Proofs.Failure
import TreeRules.Proofs.Nesting

/-!
# Runs that succeed

A run halts at a visit that fails, or where a node lies too deep. Rules that never fail, and emit
nothing deeper than what they took, leave it no reason to halt: it is enough that the bound on the
nesting is the depth of the root.
-/

namespace TreeRules

variable {σ τ ε N : Type}

/-- In whatever state the rule wants a node, its visit succeeds. -/
def Rule.NeverFails (rule : Rule σ ε N) : Prop :=
  ∀ node shared, ((rule.wants node).run shared).1 = true → ∀ workspace,
    ∃ nodes after, (rule.visit node).run workspace = (.ok nodes, after)

theorem Rule.NeverFails.exists_ask {rule : Rule σ ε N} (h : rule.NeverFails) (node : N)
    (workspace : Workspace σ) :
    ∃ replacement after, (rule.ask node).run workspace = (.ok replacement, after) := by
  rcases hasked : (rule.wants node).run workspace.shared with ⟨_ | _, shared⟩
  · exact ⟨none, _, Rule.run_ask_of_unwanted hasked⟩
  · obtain ⟨nodes, after, hvisited⟩ :=
      h node workspace.shared (congrArg Prod.fst hasked) { workspace with shared }
    exact ⟨some nodes, after, Rule.run_ask_of_visited hasked hvisited⟩

namespace Dispatch

variable [Host N] {rules : List (Rule σ ε N)} {depth : Nat} {root : N} {run : Run σ}

theorem exists_ok_of_ne_tooDeep (h : ∀ rule ∈ rules, rule.NeverFails)
    (hdepth : ((dispatch rules depth root).run run).1 ≠ .error .tooDeep) :
    ∃ nodes after, (dispatch rules depth root).run run = (.ok nodes, after) := by
  rcases hrun : (dispatch rules depth root).run run with ⟨halt | nodes, after⟩
  · obtain ⟨breakdown, -, hhalt, hbreaks, -⟩ := dispatch_error hrun
    rcases halt with error | _
    · -- The breakdown ends with a visit that failed, and no visit does.
      obtain ⟨_, _, node, rule, mid, _, _, _, hrule, hfailed, _⟩ := hbreaks.exists_last hhalt
      obtain ⟨_, _, hasked⟩ := (h rule (List.mem_of_getElem? hrule)).exists_ask node mid
      rw [hasked] at hfailed
      cases hfailed
    · rw [hrun] at hdepth
      exact absurd rfl hdepth
  · exact ⟨nodes, after, rfl⟩

theorem falls_subtreeDepth : Falls (Host.subtreeDepth (N := N)) where
  pos _ := (Host.subtreeDepth_le_iff.mp le_rfl).1
  lt _ := (Host.subtreeDepth_le_iff.mp le_rfl).2

/-- **Rules that never fail and never deepen a tree always succeed.** -/
theorem exists_ok_of_subtreeDepth_le (h : ∀ rule ∈ rules, rule.NeverFails)
    (hemits : ∀ rule ∈ rules, ∀ node, rule.Emits node fun emitted =>
      Host.subtreeDepth emitted ≤ Host.subtreeDepth node)
    (hdepth : Host.subtreeDepth root ≤ depth) :
    ∃ nodes after, (dispatch rules depth root).run run = (.ok nodes, after) :=
  exists_ok_of_ne_tooDeep h (dispatch_ne_tooDeep falls_subtreeDepth hemits hdepth run)

end Dispatch

end TreeRules
