import TreeRules.Proofs.Correspondence
import TreeRules.RuleType

/-!
# Tracking

A rule tracks another one if it does the same on states that fit, and leaves states that fit. Then a
run over the one list of rules tells what a run over the other gives, and the states fit at its end.
-/

namespace TreeRules

variable {σ τ ε γ N : Type}

/-- Runs over states that fit, with everything else equal. -/
structure Run.Fits (fit : σ → τ → Prop) (run : Run σ) (run' : Run τ) : Prop where
  shared : fit run.workspace.shared run'.workspace.shared
  supply : run.workspace.supply = run'.workspace.supply
  statistics : run.statistics = run'.statistics
  journal : run.journal = run'.journal

/-- The rule has the name, the answers and the results of the other one, and the states stay fit. -/
structure Rule.Tracks (fit : σ → τ → Prop) (rule : Rule σ ε N) (rule' : Rule τ ε N) : Prop where
  name : rule.name = rule'.name
  wants : ∀ node {shared shared'}, fit shared shared' →
    ((rule.wants node).run shared).1 = ((rule'.wants node).run shared').1 ∧
      fit ((rule.wants node).run shared).2 ((rule'.wants node).run shared').2
  visit : ∀ node {shared shared'} supply, fit shared shared' →
    let visited := (rule.visit node).run ⟨shared, supply⟩
    let visited' := (rule'.visit node).run ⟨shared', supply⟩
    visited.1 = visited'.1 ∧ visited.2.supply = visited'.2.supply ∧
      fit visited.2.shared visited'.2.shared

namespace Rule.Tracks

variable {fit : σ → τ → Prop} {rule : Rule σ ε N} {rule' : Rule τ ε N}

theorem on {σ' τ' : Type} {whole : σ' → τ' → Prop} (h : rule.Tracks fit rule') {part : Part σ' σ}
    {part' : Part τ' τ} (hget : ∀ {big big'}, whole big big' → fit (part.get big) (part'.get big'))
    (hset : ∀ {small small' big big'}, fit small small' → whole big big' →
      whole (part.set small big) (part'.set small' big')) :
    (rule.on part).Tracks whole (rule'.on part') where
  name := h.name
  wants node _ _ hwhole := by
    obtain ⟨hanswer, hfit⟩ := h.wants node (hget hwhole)
    exact ⟨hanswer, hset hfit hwhole⟩
  visit node _ _ supply hwhole := by
    obtain ⟨hresult, hsupply, hfit⟩ := h.visit node supply (hget hwhole)
    exact ⟨hresult, hsupply, hset hfit hwhole⟩

theorem ask (h : rule.Tracks fit rule') (node : N) {shared : σ} {shared' : τ} (supply : Supply)
    (hfit : fit shared shared') :
    let asked := (rule.ask node).run ⟨shared, supply⟩
    let asked' := (rule'.ask node).run ⟨shared', supply⟩
    asked.1 = asked'.1 ∧ asked.2.supply = asked'.2.supply ∧
      fit asked.2.shared asked'.2.shared := by
  obtain ⟨hanswer, hfit⟩ := h.wants node hfit
  rcases hasked : (rule.wants node).run shared with ⟨answer, state⟩
  rcases hasked' : (rule'.wants node).run shared' with ⟨answer', state'⟩
  rw [hasked, hasked'] at hanswer hfit
  obtain rfl : answer = answer' := hanswer
  cases answer with
  | false =>
      rw [run_ask_of_unwanted hasked, run_ask_of_unwanted hasked']
      exact ⟨rfl, rfl, hfit⟩
  | true =>
      obtain ⟨hresult, hvisited⟩ := h.visit node supply hfit
      rw [run_ask_of_wanted hasked, run_ask_of_wanted hasked']
      exact ⟨congrArg (Except.map some) hresult, hvisited⟩

end Rule.Tracks

namespace Dispatch

open DispatchM

variable {fit : σ → τ → Prop}

theorem corresponds_of_tracks {rule : Rule σ ε N} {rule' : Rule τ ε N}
    (h : rule.Tracks fit rule') :
    Corresponds (fun _ : Still => Run.Fits fit) rule rule' := by
  rintro _ node ⟨⟨shared, supply⟩, statistics, journal⟩ ⟨⟨shared', _⟩, _, _⟩ ⟨hfit, rfl, rfl, rfl⟩
  obtain ⟨hresult, hsupply, hfit⟩ := h.ask node supply hfit
  rw [run_offer, run_offer, h.name]
  rcases hasked : (rule.ask node).run ⟨shared, supply⟩ with ⟨result, after⟩
  rcases hasked' : (rule'.ask node).run ⟨shared', supply⟩ with ⟨result', after'⟩
  rw [hasked, hasked'] at hresult hsupply hfit
  obtain rfl : result = result' := hresult
  cases result with
  | error error => exact ⟨.still, le_rfl, ⟨hfit, hsupply, rfl, rfl⟩, .error _⟩
  | ok replacement => exact ⟨.still, le_rfl, ⟨hfit, hsupply, rfl, rfl⟩, .ok rfl⟩

variable [Host N]

/-- **Runs track each other as their rules do.** -/
theorem dispatch_tracks {rules : List (Rule σ ε N)} {rules' : List (Rule τ ε N)}
    (h : List.Forall₂ (Rule.Tracks fit) rules rules') (depth : Nat) (node : N) {run : Run σ}
    {run' : Run τ} (hfits : run.Fits fit run') :
    ((dispatch rules depth node).run run).1 = ((dispatch rules' depth node).run run').1 ∧
      Run.Fits fit ((dispatch rules depth node).run run).2
        ((dispatch rules' depth node).run run').2 := by
  have hrules : List.Forall₂ (Corresponds fun _ : Still => Run.Fits fit) rules rules' :=
    h.imp fun _ _ => corresponds_of_tracks
  have hrecord (world : Still) : Paired (fun _ => Run.Fits fit) (fun _ _ _ => True) world
      (record Statistics.recordDispatch : DispatchM σ ε Unit)
      (record Statistics.recordDispatch) := by
    intro run run' hfits
    refine ⟨.still, le_rfl, ⟨hfits.shared, hfits.supply, ?_, hfits.journal⟩, .ok trivial⟩
    exact congrArg Statistics.recordDispatch hfits.statistics
  have hfresh (world : Still) : Paired (fun _ => Run.Fits fit) (fun _ => Eq) world
      (fresh : DispatchM σ ε ObjectId) fresh := by
    rintro ⟨⟨_, supply⟩, _, _⟩ ⟨⟨_, _⟩, _, _⟩ ⟨hfit, rfl, hstatistics, hjournal⟩
    exact ⟨.still, le_rfl, ⟨hfit, rfl, hstatistics, hjournal⟩, .ok rfl⟩
  obtain ⟨_, _, hafter, hagree⟩ :=
    dispatch_corresponds hrules hrecord hfresh depth .still node run run' hfits
  exact ⟨hagree.eq, hafter⟩

end Dispatch

end TreeRules
