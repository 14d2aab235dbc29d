import TreeRules.Dispatch
import TreeRules.Proofs.Attempt

/-!
# Runs of the dispatcher's actions

What one run of each action does to the workspace, the statistics and the journal. Offering a node
to a rule is a question to the rule, which sees the workspace only, and the events that are recorded
around it; all bookkeeping of a run is a list of such events.
-/

namespace TreeRules

variable {σ ε N β : Type}

namespace DispatchM

@[simp]
theorem run_onShared (action : StateM σ β) (run : Run σ) :
    (onShared action : DispatchM σ ε β).run run =
      (.ok (action.run run.workspace.shared).1,
        { run with workspace :=
          { run.workspace with shared := (action.run run.workspace.shared).2 } }) := rfl

@[simp]
theorem run_onWorkspace (action : RuleM σ ε β) (run : Run σ) :
    (onWorkspace action).run run =
      ((action.run run.workspace).1.mapError .failed,
        { run with workspace := (action.run run.workspace).2 }) := rfl

end DispatchM

/-- Asks the rule about a node and, if it wants the node, lets the rule visit it: nothing, or the
nodes that take the node's place. -/
def Rule.ask (rule : Rule σ ε N) (node : N) : RuleM σ ε (Option (List N)) := fun workspace =>
  let asked := (rule.wants node).run workspace.shared
  let visited := (rule.visit node).run { workspace with shared := asked.2 }
  if asked.1 then (visited.1.map some, visited.2)
  else (.ok none, { workspace with shared := asked.2 })

theorem Rule.run_ask_of_wanted {rule : Rule σ ε N} {node : N} {workspace : Workspace σ} {shared : σ}
    (h : (rule.wants node).run workspace.shared = (true, shared)) :
    (rule.ask node).run workspace =
      (((rule.visit node).run { workspace with shared }).1.map some,
        ((rule.visit node).run { workspace with shared }).2) := by
  change Rule.ask rule node workspace = _
  simp only [Rule.ask, h, if_true]

theorem Rule.run_ask_of_visited {rule : Rule σ ε N} {node : N} {workspace after : Workspace σ}
    {shared : σ} {result : Except ε (List N)}
    (hwanted : (rule.wants node).run workspace.shared = (true, shared))
    (hvisited : (rule.visit node).run { workspace with shared } = (result, after)) :
    (rule.ask node).run workspace = (result.map some, after) := by
  rw [run_ask_of_wanted hwanted, hvisited]

theorem Rule.run_ask_of_unwanted {rule : Rule σ ε N} {node : N} {workspace : Workspace σ}
    {shared : σ} (h : (rule.wants node).run workspace.shared = (false, shared)) :
    (rule.ask node).run workspace = (.ok none, { workspace with shared }) := by
  change Rule.ask rule node workspace = _
  simp only [Rule.ask, h, Bool.false_eq_true, if_false]

/-- What a run has recorded before it starts. -/
def Statistics.empty : Statistics where
  rules := ⟨[], .nil⟩

namespace Dispatch

/-- What is recorded while nodes are dispatched. -/
inductive Event where
  | dispatched
  | offered (rule : String)
  | replaced (rule : String) (emitted : Nat)
deriving DecidableEq

namespace Event

def record : Statistics → Event → Statistics
  | statistics, dispatched => statistics.recordDispatch
  | statistics, offered rule => statistics.recordOffer rule
  | statistics, replaced rule emitted => statistics.recordVisit rule emitted

def note : Log.Journal → Event → Log.Journal
  | journal, dispatched | journal, offered _ => journal
  | journal, replaced rule emitted => journal.push (.replaced rule emitted)

end Event

end Dispatch

open Dispatch

/-- The run after events that left the workspace as given. -/
def Run.advance (run : Run σ) (workspace : Workspace σ) (events : List Event) : Run σ where
  workspace := workspace
  statistics := events.foldl Event.record run.statistics
  journal := events.foldl Event.note run.journal

@[simp]
theorem Run.workspace_advance (run : Run σ) (workspace : Workspace σ) (events : List Event) :
    (run.advance workspace events).workspace = workspace := rfl

@[simp]
theorem Run.statistics_advance (run : Run σ) (workspace : Workspace σ) (events : List Event) :
    (run.advance workspace events).statistics = events.foldl Event.record run.statistics := rfl

@[simp]
theorem Run.advance_advance (run : Run σ) (before after : Workspace σ) (events more : List Event) :
    (run.advance before events).advance after more = run.advance after (events ++ more) := by
  simp [advance, List.foldl_append]

namespace Dispatch

/-- A node that was offered to a rule, and the nodes that took its place if the rule wanted it. -/
structure Offer (N : Type) where
  node : N
  replacement : Option (List N)

namespace Offer

/-- What the working list holds afterwards in the place of the node. -/
def nodes (offer : Offer N) : List N := offer.replacement.getD [offer.node]

def events (rule : String) (offer : Offer N) : List Event :=
  match offer.replacement with
  | none => [.offered rule]
  | some nodes => [.offered rule, .replaced rule nodes.length]

end Offer

theorem run_offer (rule : Rule σ ε N) (node : N) (run : Run σ) :
    (offer rule node).run run =
      match (rule.ask node).run run.workspace with
      | (.ok replacement, workspace) =>
        (.ok (Offer.nodes ⟨node, replacement⟩),
          run.advance workspace (Offer.events rule.name ⟨node, replacement⟩))
      | (.error error, workspace) =>
        (.error (.failed error), run.advance workspace [.offered rule.name]) := by
  rw [offer, run_bind, DispatchM.run_record]
  simp only [run_bind, DispatchM.run_onShared]
  rcases hwants : (rule.wants node).run run.workspace.shared with ⟨_ | _, shared⟩
  · rw [Rule.run_ask_of_unwanted hwants]
    rfl
  · rw [Rule.run_ask_of_wanted hwants]
    simp only [if_true, run_bind, DispatchM.run_onWorkspace]
    rcases (rule.visit node).run { run.workspace with shared } with ⟨_ | nodes, workspace⟩ <;> rfl

theorem offer_ok_iff {rule : Rule σ ε N} {node : N} {run after : Run σ} {nodes : List N} :
    (offer rule node).run run = (.ok nodes, after) ↔
      ∃ replacement workspace, (rule.ask node).run run.workspace = (.ok replacement, workspace) ∧
        nodes = Offer.nodes ⟨node, replacement⟩ ∧
        after = run.advance workspace (Offer.events rule.name ⟨node, replacement⟩) := by
  rw [run_offer]
  rcases (rule.ask node).run run.workspace with ⟨_ | replacement, workspace⟩
  · constructor
    · intro heq
      cases heq
    · rintro ⟨_, _, heq, _⟩
      cases heq
  · constructor
    · intro heq
      cases heq
      exact ⟨replacement, workspace, rfl, rfl, rfl⟩
    · rintro ⟨_, _, heq, rfl, rfl⟩
      cases heq
      rfl

theorem offer_error_iff {rule : Rule σ ε N} {node : N} {run after : Run σ} {halt : Halt ε} :
    (offer rule node).run run = (.error halt, after) ↔
      ∃ error workspace, (rule.ask node).run run.workspace = (.error error, workspace) ∧
        halt = .failed error ∧ after = run.advance workspace [.offered rule.name] := by
  rw [run_offer]
  rcases (rule.ask node).run run.workspace with ⟨error | _, workspace⟩
  · constructor
    · intro heq
      cases heq
      exact ⟨error, workspace, rfl, rfl, rfl⟩
    · rintro ⟨_, _, heq, rfl, rfl⟩
      cases heq
      rfl
  · constructor
    · intro heq
      cases heq
    · rintro ⟨_, _, heq, _⟩
      cases heq

end Dispatch

end TreeRules
