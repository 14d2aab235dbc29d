import TreeRules.Proofs.Execution
import TreeRules.Proofs.Instances
import TreeRules.Proofs.MatchedRuns

/-!
# Rules that cannot read identities off

An identity is the name of an object. A rule may keep objects and may find out whether two of them
are the same, but what it does must not depend on their names: in matched states it treats matched
nodes alike, and makes new objects that can be matched. Rules of this kind do not notice that the
objects of a run got other names.
-/

namespace TreeRules

open Dispatch DispatchM

variable {σ τ ε α β γ N : Type}

/-- Workspaces whose objects are those of the matching. When states are the same may depend on which
of the objects they hold are matched. -/
structure Workspace.Alike (same : Matching → σ → τ → Prop) (m : Matching) (workspace : Workspace σ)
    (workspace' : Workspace τ) : Prop where
  left : workspace.supply = m.left
  right : workspace'.supply = m.right
  same : same m workspace.shared workspace'.shared

/-- The rule treats matched nodes alike in states that are the same. -/
structure Rule.Uniform (same : Matching → σ → σ → Prop) (rule : Rule σ ε (Tree α)) : Prop where
  wants : ∀ {m : Matching} {state state' : σ} {node node' : Tree α}, same m state state' →
    Tree.Matched m.pairs node node' →
      ((rule.wants node).run state).1 = ((rule.wants node').run state').1 ∧
        same m ((rule.wants node).run state).2 ((rule.wants node').run state').2
  visit : ∀ {m : Matching} {node node' : Tree α}, Tree.Matched m.pairs node node' →
    Paired (Workspace.Alike same) AllMatched m (rule.visit node) (rule.visit node')

namespace Rule.Uniform

variable {same : Matching → σ → σ → Prop} {rule : Rule σ ε (Tree α)} {m : Matching}
  {node node' : Tree α}

theorem ask (h : rule.Uniform same) (hnode : Tree.Matched m.pairs node node') :
    Paired (Workspace.Alike same)
      (fun later replacement replacement' =>
        AllMatched later (Offer.nodes ⟨node, replacement⟩) (Offer.nodes ⟨node', replacement'⟩) ∧
          ∀ name, Offer.events name ⟨node, replacement⟩ = Offer.events name ⟨node', replacement'⟩)
      m (rule.ask node) (rule.ask node') := by
  intro workspace workspace' halike
  obtain ⟨hanswer, hshared⟩ := h.wants halike.same hnode
  rcases hasked : (rule.wants node).run workspace.shared with ⟨answer, shared⟩
  rcases hasked' : (rule.wants node').run workspace'.shared with ⟨answer', shared'⟩
  rw [hasked, hasked'] at hanswer hshared
  obtain rfl : answer = answer' := hanswer
  cases answer with
  | false =>
      rw [run_ask_of_unwanted hasked, run_ask_of_unwanted hasked']
      exact ⟨m, le_rfl, ⟨halike.left, halike.right, hshared⟩, .ok ⟨.cons hnode .nil, fun _ => rfl⟩⟩
  | true =>
      obtain ⟨later, hlater, halike', hresult⟩ := h.visit hnode { workspace with shared }
        { workspace' with shared := shared' } ⟨halike.left, halike.right, hshared⟩
      rw [run_ask_of_wanted hasked, run_ask_of_wanted hasked']
      refine ⟨later, hlater, halike', ?_⟩
      generalize ((rule.visit node).run { workspace with shared }).1 = result at hresult
      generalize ((rule.visit node').run { workspace' with shared := shared' }).1 = result'
        at hresult
      cases hresult with
      | @ok nodes nodes' hnodes =>
          have hlength : nodes.length = nodes'.length := List.Forall₂.length_eq hnodes
          exact .ok ⟨hnodes, fun name => by simp only [Offer.events, hlength]⟩
      | error error => exact .error error

theorem on {same' : Matching → τ → τ → Prop} (h : rule.Uniform same) {part : Part τ σ}
    (hget : ∀ m whole whole', same' m whole whole' → same m (part.get whole) (part.get whole'))
    (hset : ∀ m later small small' whole whole', m ≤ later → same later small small' →
      same' m whole whole' → same' later (part.set small whole) (part.set small' whole')) :
    (rule.on part).Uniform same' where
  wants hsame hnode := by
    obtain ⟨hanswer, hshared⟩ := h.wants (hget _ _ _ hsame) hnode
    exact ⟨hanswer, hset _ _ _ _ _ _ le_rfl hshared hsame⟩
  visit hnode workspace workspace' halike := by
    obtain ⟨later, hlater, halike', hresult⟩ := h.visit hnode
      ⟨part.get workspace.shared, workspace.supply⟩ ⟨part.get workspace'.shared, workspace'.supply⟩
      ⟨halike.left, halike.right, hget _ _ _ halike.same⟩
    refine ⟨later, hlater, ⟨halike'.left, halike'.right, ?_⟩, hresult⟩
    exact hset _ _ _ _ _ _ hlater halike'.same halike.same

end Rule.Uniform

/-- All instances in a pipeline are uniform, when their memories do not hold objects. -/
theorem RuleType.instances_uniform {same : Matching → γ → γ → Prop}
    {types : List (RuleType γ ε (Tree α))}
    (h : ∀ type ∈ types,
      type.rule.Uniform fun m state state' => same m state.1 state'.1 ∧ state.2 = state'.2) :
    ∀ rule ∈ instances types,
      rule.Uniform fun m state state' => same m state.1 state'.1 ∧ state.2 = state'.2 := by
  intro rule hrule
  obtain ⟨type, htype, memory, rfl⟩ := exists_memory_of_mem_instances hrule
  refine (h type htype).on ?_ ?_
  · rintro m state state' ⟨hcontext, hmemories⟩
    exact ⟨hcontext, congrArg memory.get hmemories⟩
  · rintro m later small small' state state' - ⟨hcontext, hmemory⟩ ⟨-, hmemories⟩
    exact ⟨hcontext, congrArg₂ memory.set hmemory hmemories⟩

/-- How many nodes there are more than at the start. -/
def Statistics.balance (statistics : Statistics) : Int := statistics.inserted - statistics.deleted

/-- As many dispatches, and as many nodes more than at the start. -/
structure Statistics.Balanced (statistics statistics' : Statistics) : Prop where
  dispatched_eq : statistics.dispatched = statistics'.dispatched
  balance_eq : statistics.balance = statistics'.balance

theorem Statistics.Balanced.record {statistics statistics' : Statistics}
    (h : statistics.Balanced statistics') (event : Event) :
    (Event.record statistics event).Balanced (Event.record statistics' event) := by
  obtain ⟨hdispatched, hbalance⟩ := h
  simp only [balance] at hbalance
  cases event with
  | dispatched => exact ⟨congrArg (· + 1) hdispatched, hbalance⟩
  | offered name => exact ⟨hdispatched, hbalance⟩
  | replaced name emitted =>
      refine ⟨hdispatched, ?_⟩
      simp only [balance, Event.record, recordVisit, Nat.cast_add]
      omega

theorem Statistics.Balanced.foldl_record {statistics statistics' : Statistics}
    (h : statistics.Balanced statistics') (events : List Event) :
    (events.foldl Event.record statistics).Balanced (events.foldl Event.record statistics') := by
  induction events generalizing statistics statistics' with
  | nil => exact h
  | cons event events ih => exact ih (h.record event)

/-- Runs whose objects are matched and whose states are the same, with as many dispatches and as
many nodes more. -/
structure Run.Alike (same : Matching → σ → τ → Prop) (m : Matching) (run : Run σ) (run' : Run τ) :
    Prop where
  workspace : Workspace.Alike same m run.workspace run'.workspace
  statistics : run.statistics.Balanced run'.statistics

theorem Run.Alike.advance {same : Matching → σ → τ → Prop} {m later : Matching} {run : Run σ}
    {run' : Run τ} (h : Run.Alike same m run run') {workspace : Workspace σ}
    {workspace' : Workspace τ} (halike : Workspace.Alike same later workspace workspace')
    {events events' : List Event} (hevents : events = events') :
    Run.Alike same later (run.advance workspace events) (run'.advance workspace' events') where
  workspace := halike
  statistics := by
    rw [hevents]
    exact h.statistics.foldl_record events'

namespace Dispatch

variable {same : Matching → σ → τ → Prop} {m : Matching}

theorem recordDispatch_alike : Paired (Run.Alike same) (fun _ _ _ => True) m
    (record Statistics.recordDispatch : DispatchM σ ε Unit)
    (record Statistics.recordDispatch : DispatchM τ ε Unit) :=
  fun _ _ halike =>
    ⟨m, le_rfl, ⟨halike.workspace, halike.statistics.record .dispatched⟩, .ok trivial⟩

theorem fresh_alike (hmono : Monotone same) (m : Matching) :
    Paired (Run.Alike same) (fun later id id' => later.pairs id id') m
      (fresh : DispatchM σ ε ObjectId) (fresh : DispatchM τ ε ObjectId) := by
  have hsupplied {m : Matching} {run : Run σ} {run' : Run τ} (h : Run.Alike same m run run') :
      Supplied m run run' := ⟨h.workspace.left, h.workspace.right⟩
  refine fresh_matched hsupplied (fun {m _ _} h => ⟨?_, h.statistics⟩) m
  obtain ⟨hleft, hright⟩ := (hsupplied h).spend
  exact ⟨hleft, hright, hmono m.le_add _ _ h.workspace.same⟩

theorem offer_uniform {same : Matching → σ → σ → Prop} {rule : Rule σ ε (Tree α)}
    (h : rule.Uniform same) {node node' : Tree α} (hnode : Tree.Matched m.pairs node node') :
    Paired (Run.Alike same) AllMatched m (offer rule node) (offer rule node') := by
  intro run run' halike
  obtain ⟨later, hlater, halike', hresult⟩ :=
    h.ask hnode run.workspace run'.workspace halike.workspace
  rw [run_offer, run_offer]
  generalize (rule.ask node).run run.workspace = asked at hresult halike'
  generalize (rule.ask node').run run'.workspace = asked' at hresult halike'
  obtain ⟨result, workspace⟩ := asked
  obtain ⟨result', workspace'⟩ := asked'
  cases hresult with
  | ok hpost =>
      obtain ⟨hnodes, hevents⟩ := hpost
      exact ⟨later, hlater, halike.advance halike' (hevents rule.name), .ok hnodes⟩
  | error error => exact ⟨later, hlater, halike.advance halike' rfl, .error (Halt.failed error)⟩

theorem survivors_uniform {same : Matching → σ → σ → Prop} {rules : List (Rule σ ε (Tree α))}
    (h : ∀ rule ∈ rules, rule.Uniform same) {nodes nodes' : List (Tree α)}
    (hnodes : AllMatched m nodes nodes') :
    Paired (Run.Alike same) AllMatched m (survivors rules nodes) (survivors rules nodes') := by
  rw [survivors_eq_foldlM, survivors_eq_foldlM]
  refine Paired.foldlM (fun rule hrule later _ lefts rights hmatched => ?_) hnodes
  exact Paired.flatMapM matched_mono matched_mono
    (fun _ _ _ _ hnode => offer_uniform (h rule hrule) hnode) hmatched

end Dispatch

end TreeRules
