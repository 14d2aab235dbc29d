import TreeRules.Proofs.Trace

/-!
# Runs leave traces

A run of the dispatcher that ends without an error leaves a trace, and what it recorded are the
events of that trace. The lemmas follow the dispatcher function by function; the last one is the
induction on the nesting.
-/

namespace TreeRules.Dispatch

open DispatchM

variable {σ ε N : Type}

theorem offerEach_ok {rule : Rule σ ε N} {nodes results : List N} {run after : Run σ}
    (h : (offerEach rule nodes).run run = (.ok results, after)) :
    ∃ offers, offers.map Offer.node = nodes ∧ offers.flatMap Offer.nodes = results ∧
      Thread (Answers rule) run.workspace offers after.workspace ∧
      after = run.advance after.workspace (offers.flatMap (Offer.events rule.name)) := by
  induction nodes generalizing run results with
  | nil =>
      obtain ⟨rfl, rfl⟩ := pure_ok_iff.mp h
      exact ⟨[], rfl, rfl, .nil _, rfl⟩
  | cons node rest ih =>
      obtain ⟨here, mid, hoffer, h⟩ := bind_ok_iff.mp h
      obtain ⟨others, last, hrest, h⟩ := bind_ok_iff.mp h
      obtain ⟨rfl, rfl⟩ := pure_ok_iff.mp h
      obtain ⟨replacement, workspace, hask, rfl, rfl⟩ := offer_ok_iff.mp hoffer
      obtain ⟨offers, rfl, rfl, hthread, hafter⟩ := ih hrest
      refine ⟨⟨node, replacement⟩ :: offers, rfl, by simp, .cons hask hthread, ?_⟩
      rw [hafter]
      simp

theorem survivors_ok {rules : List (Rule σ ε N)} {nodes results : List N} {run after : Run σ}
    (h : (survivors rules nodes).run run = (.ok results, after)) :
    ∃ rounds, Relay nodes rounds results ∧ Rounds rules run.workspace rounds after.workspace ∧
      after = run.advance after.workspace (roundEvents (rules.map Rule.name) rounds) := by
  induction rules generalizing run nodes with
  | nil =>
      obtain ⟨rfl, rfl⟩ := pure_ok_iff.mp h
      exact ⟨[], .nil _, .nil _, rfl⟩
  | cons rule rules ih =>
      obtain ⟨passed, mid, hround, h⟩ := bind_ok_iff.mp h
      obtain ⟨offers, rfl, rfl, hthread, hmid⟩ := offerEach_ok hround
      obtain ⟨rounds, hrelay, hrounds, hafter⟩ := ih h
      refine ⟨offers :: rounds, .cons hrelay, .cons hthread hrounds, ?_⟩
      rw [hafter, hmid]
      simp

variable [Host N]

/-- The run leaves a trace, and records its events. -/
structure Leaves (rules : List (Rule σ ε N)) (run : Run σ) (trace : Trace N) (after : Run σ) :
    Prop where
  follows : Follows rules run.workspace trace after.workspace
  recorded : after = run.advance after.workspace (trace.events (rules.map Rule.name))

section Children

variable {rules : List (Rule σ ε N)} {dispatch : N → DispatchM σ ε (List N)}
  (hdispatch : ∀ {child nodes run after}, (dispatch child).run run = (.ok nodes, after) →
    ∃ trace, trace.node = child ∧ trace.outputs = nodes ∧ Leaves rules run trace after)

include hdispatch

theorem dispatchEach_ok {children nodes : List N} {untouched : Bool} {run after : Run σ}
    (h : (dispatchEach dispatch children).run run = (.ok (nodes, untouched), after)) :
    ∃ traces, traces.map Trace.node = children ∧ traces.flatMap Trace.outputs = nodes ∧
      (untouched = true ↔ ∀ trace ∈ traces, trace.IsUntouched) ∧
      Thread (Follows rules) run.workspace traces after.workspace ∧
      after = run.advance after.workspace
        (traces.flatMap (Trace.events (rules.map Rule.name))) := by
  induction children generalizing run nodes untouched with
  | nil =>
      obtain ⟨heq, rfl⟩ := pure_ok_iff.mp h
      cases heq
      exact ⟨[], rfl, rfl, by simp, .nil _, rfl⟩
  | cons child rest ih =>
      obtain ⟨here, mid, hhere, h⟩ := bind_ok_iff.mp h
      obtain ⟨⟨others, untouchedRest⟩, last, hrest, h⟩ := bind_ok_iff.mp h
      obtain ⟨heq, rfl⟩ := pure_ok_iff.mp h
      cases heq
      obtain ⟨trace, rfl, rfl, hfollows, hmid⟩ := hdispatch hhere
      obtain ⟨traces, rfl, rfl, huntouched, hthread, hafter⟩ := ih hrest
      refine ⟨trace :: traces, rfl, by simp, ?_, .cons hfollows hthread, ?_⟩
      · rw [Bool.and_eq_true, huntouched, List.forall_mem_cons]
        rfl
      · rw [hafter, hmid]
        simp

theorem rebuild_ok {node result : N} {run after : Run σ}
    (h : (rebuild dispatch node).run run = (.ok result, after)) :
    ∃ survival, survival.node = node ∧ survival.output = result ∧
      Rebuilds rules run.workspace survival after.workspace ∧
      after = run.advance after.workspace
        (survival.children.flatMap (Trace.events (rules.map Rule.name))) := by
  obtain ⟨⟨nodes, untouched⟩, mid, heach, h⟩ := bind_ok_iff.mp h
  obtain ⟨traces, hnodes, rfl, huntouched, hthread, hmid⟩ := dispatchEach_ok hdispatch heach
  cases untouched with
  | true =>
      obtain ⟨rfl, rfl⟩ := pure_ok_iff.mp h
      exact ⟨.survival node traces none, rfl, rfl, .kept hnodes hthread (huntouched.mp rfl), hmid⟩
  | false =>
      obtain ⟨id, last, hfresh, h⟩ := bind_ok_iff.mp h
      obtain ⟨rfl, rfl⟩ := pure_ok_iff.mp h
      cases hfresh
      refine ⟨_, rfl, rfl, .copied hnodes hthread (mt huntouched.mpr Bool.false_ne_true), ?_⟩
      rw [hmid]
      rfl

theorem rebuildEach_ok {nodes results : List N} {run after : Run σ}
    (h : (rebuildEach dispatch nodes).run run = (.ok results, after)) :
    ∃ survivals, survivals.map Survival.node = nodes ∧ survivals.map Survival.output = results ∧
      Thread (Rebuilds rules) run.workspace survivals after.workspace ∧
      after = run.advance after.workspace (survivals.flatMap fun survival =>
        survival.children.flatMap (Trace.events (rules.map Rule.name))) := by
  induction nodes generalizing run results with
  | nil =>
      obtain ⟨rfl, rfl⟩ := pure_ok_iff.mp h
      exact ⟨[], rfl, rfl, .nil _, rfl⟩
  | cons node rest ih =>
      obtain ⟨here, mid, hhere, h⟩ := bind_ok_iff.mp h
      obtain ⟨others, last, hrest, h⟩ := bind_ok_iff.mp h
      obtain ⟨rfl, rfl⟩ := pure_ok_iff.mp h
      obtain ⟨survival, rfl, rfl, hrebuilds, hmid⟩ := rebuild_ok hdispatch hhere
      obtain ⟨survivals, rfl, rfl, hthread, hafter⟩ := ih hrest
      refine ⟨survival :: survivals, rfl, rfl, .cons hrebuilds hthread, ?_⟩
      rw [hafter, hmid]
      simp

end Children

/-- **Runs leave traces.** The trace tells the result of the run, the way of the workspace and all
that was recorded. -/
theorem dispatch_ok {rules : List (Rule σ ε N)} {depth : Nat} {node : N} {nodes : List N}
    {run after : Run σ} (h : (dispatch rules depth node).run run = (.ok nodes, after)) :
    ∃ trace, trace.node = node ∧ trace.outputs = nodes ∧ Leaves rules run trace after := by
  induction depth generalizing node nodes run after with
  | zero => cases h
  | succ depth ih =>
      obtain ⟨_, start, hrecord, h⟩ := bind_ok_iff.mp h
      have hstart : start = run.advance run.workspace [.dispatched] := by cases hrecord; rfl
      subst hstart
      obtain ⟨passed, mid, hsurvivors, h⟩ := bind_ok_iff.mp h
      obtain ⟨rounds, hrelay, hrounds, hmid⟩ := survivors_ok hsurvivors
      obtain ⟨survivals, rfl, rfl, hthread, hafter⟩ := rebuildEach_ok ih h
      refine ⟨.dispatch node rounds survivals, rfl, rfl, .dispatch hrelay hrounds hthread, ?_⟩
      rw [hafter, hmid, Run.advance_advance, Run.advance_advance, Run.workspace_advance,
        Trace.events, Trace.flatMap_dispatches]
      rfl

end TreeRules.Dispatch
