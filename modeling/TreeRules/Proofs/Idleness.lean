import TreeRules.Proofs.Nesting
import TreeRules.Proofs.OutputLabels
import TreeRules.Proofs.Termination

/-!
# Idle runs

Where no rule wants anything, a run gives back what it was given. The only thing that it does is to
offer every node to every rule, so anything that only offers move has moved by a known amount.
-/

namespace TreeRules.Dispatch

open DispatchM

variable {σ ε N β γ : Type} {gauge : Run σ → Nat}

/-- Whatever the run, the action gives the value and moves the gauge by so much. -/
def Idle (gauge : Run σ → Nat) (action : DispatchM σ ε β) (value : β) (moved : Nat) : Prop :=
  ∀ run, ∃ after, action.run run = (.ok value, after) ∧ gauge after = gauge run + moved

namespace Idle

theorem pure (value : β) : Idle gauge (pure value : DispatchM σ ε β) value 0 :=
  fun run => ⟨run, rfl, rfl⟩

theorem bind {action : DispatchM σ ε β} {next : β → DispatchM σ ε γ} {value : β} {result : γ}
    {moved more : Nat} (h : Idle gauge action value moved)
    (hnext : Idle gauge (next value) result more) :
    Idle gauge (action >>= next) result (moved + more) := by
  intro run
  obtain ⟨mid, hmid, hmoved⟩ := h run
  obtain ⟨after, hafter, hmore⟩ := hnext mid
  refine ⟨after, bind_ok_iff.mpr ⟨value, mid, hmid, hafter⟩, ?_⟩
  rw [hmore, hmoved, Nat.add_assoc]

theorem bind_pure {action : DispatchM σ ε β} {next : β → DispatchM σ ε γ} {value : β} {result : γ}
    {moved : Nat} (h : Idle gauge action value moved) (hnext : next value = Pure.pure result) :
    Idle gauge (action >>= next) result moved := by
  have hpure : Idle gauge (next value) result 0 := by
    rw [hnext]
    exact pure result
  exact h.bind hpure

end Idle

/-- The rule wants none of the nodes, and every offer of one moves the gauge by so much. -/
structure Declines (gauge : Run σ → Nat) (moved : Nat) (rule : Rule σ ε N) (node : N) : Prop where
  unwanted : ∀ shared, ((rule.wants node).run shared).1 = false
  gauge_eq : ∀ run, gauge ((offer rule node).run run).2 = gauge run + moved

variable {rule : Rule σ ε N} {rules : List (Rule σ ε N)} {node : N} {nodes : List N} {moved : Nat}

/-- What no offer counts does not move. -/
theorem declines_of_unwanted {counter : Statistics → Nat}
    (hcounter : ∀ statistics name, counter (statistics.recordOffer name) = counter statistics)
    (h : ∀ shared, ((rule.wants node).run shared).1 = false) :
    Declines (fun run => counter run.statistics) 0 rule node where
  unwanted := h
  gauge_eq run := by
    have hasked : (rule.wants node).run run.workspace.shared =
        (false, ((rule.wants node).run run.workspace.shared).2) := Prod.ext (h _) rfl
    rw [run_offer, Rule.run_ask_of_unwanted hasked]
    exact hcounter run.statistics rule.name

theorem offer_idle (h : Declines gauge moved rule node) :
    Idle gauge (offer rule node) [node] moved := by
  intro run
  have hasked : (rule.wants node).run run.workspace.shared =
      (false, ((rule.wants node).run run.workspace.shared).2) := Prod.ext (h.unwanted _) rfl
  have hresult : ((offer rule node).run run).1 = .ok [node] := by
    rw [run_offer, Rule.run_ask_of_unwanted hasked]
    rfl
  exact ⟨_, Prod.ext hresult rfl, h.gauge_eq run⟩

theorem offerEach_idle (h : ∀ node ∈ nodes, Declines gauge moved rule node) :
    Idle gauge (offerEach rule nodes) nodes (nodes.length * moved) := by
  induction nodes with
  | nil =>
      rw [List.length_nil, Nat.zero_mul]
      exact .pure []
  | cons node rest ih =>
      obtain ⟨hnode, hrest⟩ := List.forall_mem_cons.mp h
      rw [List.length_cons, Nat.succ_mul, Nat.add_comm]
      exact (offer_idle hnode).bind ((ih hrest).bind_pure rfl)

theorem survivors_idle (h : ∀ rule ∈ rules, ∀ node ∈ nodes, Declines gauge moved rule node) :
    Idle gauge (survivors rules nodes) nodes (rules.length * (nodes.length * moved)) := by
  induction rules with
  | nil =>
      rw [List.length_nil, Nat.zero_mul]
      exact .pure nodes
  | cons rule rules ih =>
      obtain ⟨hrule, hrules⟩ := List.forall_mem_cons.mp h
      rw [List.length_cons, Nat.succ_mul, Nat.add_comm]
      exact (offerEach_idle hrule).bind (ih hrules)

section Children

variable [Host N] {dispatcher : N → DispatchM σ ε (List N)} {amount : N → Nat}

theorem dispatchEach_idle {children : List N}
    (h : ∀ child ∈ children, Idle gauge (dispatcher child) [child] (amount child)) :
    Idle gauge (dispatchEach dispatcher children) (children, true)
      (total (children.map amount)) := by
  induction children with
  | nil => exact .pure _
  | cons child rest ih =>
      obtain ⟨hchild, hrest⟩ := List.forall_mem_cons.mp h
      have huntouched : isUntouched child [child] = true := beq_self_eq_true _
      refine hchild.bind ((ih hrest).bind_pure ?_)
      rw [huntouched]
      rfl

theorem rebuild_idle
    (h : ∀ child ∈ Host.children node, Idle gauge (dispatcher child) [child] (amount child)) :
    Idle gauge (rebuild dispatcher node) node (total ((Host.children node).map amount)) :=
  (dispatchEach_idle h).bind_pure rfl

end Children

section Tree

variable {α : Type} [Relabel α] {rules : List (Rule σ ε (Tree α))} {depth : Nat} {node : Tree α}

/-- **Where no rule wants anything, nothing happens** but the offer of every node to every rule. -/
theorem dispatch_idle (hdepth : Host.subtreeDepth node ≤ depth)
    (hrecord : ∀ run, gauge { run with statistics := run.statistics.recordDispatch } = gauge run)
    (h : ∀ below ∈ node.preorder, ∀ rule ∈ rules, Declines gauge moved rule below) :
    Idle gauge (dispatch rules depth node) [node]
      (Host.subtreeSize node * (rules.length * moved)) := by
  induction depth generalizing node with
  | zero => exact absurd (Host.subtreeDepth_le_iff.mp hdepth).1 (Nat.lt_irrefl 0)
  | succ depth ih =>
      obtain ⟨-, hchildren⟩ := Host.subtreeDepth_le_iff.mp hdepth
      rw [Tree.preorder_eq] at h
      obtain ⟨hnode, hbelow⟩ := List.forall_mem_cons.mp h
      have hsurvivors : Idle gauge (survivors rules [node]) [node] (rules.length * (1 * moved)) := by
        refine survivors_idle fun rule hrule => List.forall_mem_singleton.mpr ?_
        exact hnode rule hrule
      have hrebuild : Idle gauge (rebuild (dispatch rules depth) node) node
          (total ((Host.children node).map fun child =>
            Host.subtreeSize child * (rules.length * moved))) := by
        refine rebuild_idle fun child hchild => ih ?_ fun below hmem => ?_
        · exact Nat.le_of_lt_succ (hchildren child hchild)
        · exact hbelow below (List.mem_flatMap.mpr ⟨child, hchild, hmem⟩)
      have hrebuildEach : Idle gauge (rebuildEach (dispatch rules depth) [node]) [node] _ :=
        hrebuild.bind_pure rfl
      have hdispatched : Idle gauge (record Statistics.recordDispatch : DispatchM σ ε Unit) () 0 :=
        fun run => ⟨_, rfl, hrecord run⟩
      have hsize : Host.subtreeSize node * (rules.length * moved) =
          0 + (rules.length * (1 * moved) + total ((Host.children node).map fun child =>
            Host.subtreeSize child * (rules.length * moved))) := by
        rw [Host.subtreeSize_eq, Nat.add_mul, total_eq_sum, total_eq_sum, List.sum_map_mul_right,
          Nat.one_mul, Nat.one_mul, Nat.zero_add]
      rw [hsize]
      exact hdispatched.bind (hsurvivors.bind hrebuildEach)

/-- A run that ends well is one whose bound was large enough. -/
theorem dispatch_idle_of_ok {nodes : List (Tree α)} {run after : Run σ}
    (hrecord : ∀ run, gauge { run with statistics := run.statistics.recordDispatch } = gauge run)
    (h : ∀ below ∈ node.preorder, ∀ rule ∈ rules, Declines gauge moved rule below)
    (hrun : (dispatch rules depth node).run run = (.ok nodes, after)) :
    nodes = [node] ∧
      gauge after = gauge run + Host.subtreeSize node * (rules.length * moved) := by
  obtain ⟨after', hidle, hgauge⟩ := dispatch_idle (le_refl (Host.subtreeDepth node)) hrecord h run
  have hends : Ends (fun depth => dispatch rules depth node) run (.ok nodes) after := ⟨depth, hrun⟩
  have hends' : Ends (fun depth => dispatch rules depth node) run (.ok [node]) after' :=
    ⟨_, hidle⟩
  obtain ⟨hnodes, rfl⟩ := dispatch_ends_unique hends hends'
  exact ⟨Except.ok.inj hnodes, hgauge⟩

end Tree

end TreeRules.Dispatch
