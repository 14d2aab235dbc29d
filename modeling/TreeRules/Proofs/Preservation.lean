import TreeRules.Proofs.Correspondence
import TreeRules.Proofs.Instances

/-!
# What runs keep

A property that no offer destroys, nor the dispatcher's own bookkeeping, is kept by every run, however
it ends. Of the shared state it is enough to ask that no question and no visit destroys the property.
Runs write to the journal but never read it, so two runs that differ in nothing else do the same.
-/

namespace TreeRules

variable {σ τ ε γ N : Type}

/-- No question, and no visit of a node that the rule may want, destroys the property of the shared
state; nor does a visit that fails. -/
structure Rule.Preserves (kept : σ → Prop) (rule : Rule σ ε N) : Prop where
  wants : ∀ node shared, kept shared → kept ((rule.wants node).run shared).2
  visit : ∀ node shared, ((rule.wants node).run shared).1 = true → ∀ workspace,
    kept workspace.shared → kept ((rule.visit node).run workspace).2.shared

namespace Rule.Preserves

variable {kept : σ → Prop}

theorem ask {rule : Rule σ ε N} (h : rule.Preserves kept) {node : N} {workspace : Workspace σ}
    (hkept : kept workspace.shared) : kept ((rule.ask node).run workspace).2.shared := by
  have hwants := h.wants node workspace.shared hkept
  rcases hasked : (rule.wants node).run workspace.shared with ⟨_ | _, shared⟩ <;>
    rw [hasked] at hwants
  · rw [run_ask_of_unwanted hasked]
    exact hwants
  · rw [run_ask_of_wanted hasked]
    exact h.visit node workspace.shared (by rw [hasked]) { workspace with shared } hwants

theorem on {inner : τ → Prop} {rule : Rule τ ε N} (h : rule.Preserves inner) {part : Part σ τ}
    (hget : ∀ whole, kept whole → inner (part.get whole))
    (hset : ∀ small whole, inner small → kept whole → kept (part.set small whole)) :
    (rule.on part).Preserves kept where
  wants node _ hkept := hset _ _ (h.wants node _ (hget _ hkept)) hkept
  visit node shared hwants workspace hkept :=
    hset _ _ (h.visit node (part.get shared) hwants ⟨_, workspace.supply⟩ (hget _ hkept)) hkept

end Rule.Preserves

theorem RuleType.instances_preserve {kept : γ → Prop} {types : List (RuleType γ ε N)}
    (h : ∀ type ∈ types, type.rule.Preserves fun state => kept state.1) :
    ∀ rule ∈ instances types, rule.Preserves fun state => kept state.1 := by
  intro rule hrule
  obtain ⟨type, htype, memory, rfl⟩ := exists_memory_of_mem_instances hrule
  exact (h type htype).on (fun _ hkept => hkept) fun _ _ hkept _ => hkept

/-- Every question moves the gauge of the shared state by so much, and no visit moves it. -/
structure Rule.Gauged (gauge : σ → Nat) (moved : Nat) (rule : Rule σ ε N) : Prop where
  wants : ∀ node shared, gauge ((rule.wants node).run shared).2 = gauge shared + moved
  visit : ∀ node workspace,
    gauge ((rule.visit node).run workspace).2.shared = gauge workspace.shared

namespace Rule.Gauged

variable {gauge : σ → Nat} {moved : Nat}

theorem ask {rule : Rule σ ε N} (h : rule.Gauged gauge moved) (node : N) (workspace : Workspace σ) :
    gauge ((rule.ask node).run workspace).2.shared = gauge workspace.shared + moved := by
  have hwants := h.wants node workspace.shared
  rcases hasked : (rule.wants node).run workspace.shared with ⟨_ | _, shared⟩ <;>
    rw [hasked] at hwants
  · rw [run_ask_of_unwanted hasked]
    exact hwants
  · rw [run_ask_of_wanted hasked]
    exact (h.visit node { workspace with shared }).trans hwants

theorem on {inner : τ → Nat} {rule : Rule τ ε N} (h : rule.Gauged inner moved) {part : Part σ τ}
    (hget : ∀ whole, inner (part.get whole) = gauge whole)
    (hset : ∀ small whole, gauge (part.set small whole) = inner small) :
    (rule.on part).Gauged gauge moved where
  wants node whole := by
    rw [← hget whole]
    exact (hset _ whole).trans (h.wants node (part.get whole))
  visit node workspace := by
    rw [← hget workspace.shared]
    exact (hset _ _).trans (h.visit node ⟨part.get workspace.shared, workspace.supply⟩)

end Rule.Gauged

theorem RuleType.instances_gauged {gauge : γ → Nat} {moved : String → Nat}
    {types : List (RuleType γ ε N)}
    (h : ∀ type ∈ types, type.rule.Gauged (fun state => gauge state.1) (moved type.name)) :
    ∀ rule ∈ instances types, rule.Gauged (fun state => gauge state.1) (moved rule.name) := by
  intro rule hrule
  obtain ⟨type, htype, memory, rfl⟩ := exists_memory_of_mem_instances hrule
  exact (h type htype).on (fun _ => rfl) fun _ _ => rfl

namespace Dispatch

open DispatchM

theorem workspace_offer (rule : Rule σ ε N) (node : N) (run : Run σ) :
    ((offer rule node).run run).2.workspace = ((rule.ask node).run run.workspace).2 := by
  rw [run_offer]
  rcases (rule.ask node).run run.workspace with ⟨_ | _, _⟩ <;> rfl

/-- One run twice, with the property. -/
def Twice (kept : Run σ → Prop) (_ : Still) (run run' : Run σ) : Prop := run = run' ∧ kept run

theorem paired_twice {β : Type} {kept : Run σ → Prop} {action : DispatchM σ ε β}
    (h : ∀ run, kept run → kept (action.run run).2) (world : Still) :
    Paired (Twice kept) (fun _ => Eq) world action action := by
  rintro run _ ⟨rfl, hkept⟩
  refine ⟨.still, le_rfl, ⟨rfl, h run hkept⟩, ?_⟩
  rcases (action.run run).1 with halt | value
  · exact .error halt
  · exact .ok rfl

variable [Host N] {rules : List (Rule σ ε N)}

/-- **Runs keep what offers keep.** -/
theorem dispatch_keeps {kept : Run σ → Prop}
    (hoffer : ∀ rule ∈ rules, ∀ node run, kept run → kept ((offer rule node).run run).2)
    (hrecord : ∀ run, kept run →
      kept { run with statistics := run.statistics.recordDispatch })
    (hfresh : ∀ run, kept run →
      kept ((fresh : DispatchM σ ε ObjectId).run run).2)
    (depth : Nat) (node : N) {run : Run σ} (hkept : kept run) :
    kept ((dispatch rules depth node).run run).2 := by
  have hrules : List.Forall₂ (Corresponds (Twice kept)) rules rules := by
    refine List.forall₂_same.mpr fun rule hrule world node => ?_
    exact paired_twice (hoffer rule hrule node) world
  have hrecord' (world : Still) : Paired (Twice kept) (fun _ _ _ => True) world
      (record Statistics.recordDispatch : DispatchM σ ε Unit) (record Statistics.recordDispatch) :=
    (paired_twice hrecord world).imp fun _ _ _ _ _ => trivial
  obtain ⟨_, _, ⟨_, hafter⟩, _⟩ :=
    dispatch_corresponds hrules hrecord' (paired_twice hfresh) depth .still node run run ⟨rfl, hkept⟩
  exact hafter

/-- **Runs keep what their rules keep.** -/
theorem dispatch_preserves {kept : σ → Prop} (h : ∀ rule ∈ rules, rule.Preserves kept)
    (depth : Nat) (node : N) {run : Run σ} (hkept : kept run.workspace.shared) :
    kept ((dispatch rules depth node).run run).2.workspace.shared := by
  have hoffer : ∀ rule ∈ rules, ∀ (node : N) (run : Run σ), kept run.workspace.shared →
      kept ((offer rule node).run run).2.workspace.shared := by
    intro rule hrule node run hkept
    rw [workspace_offer]
    exact (h rule hrule).ask hkept
  exact @dispatch_keeps _ _ _ _ _ (fun run => kept run.workspace.shared) hoffer (fun _ hkept => hkept)
    (fun _ hkept => hkept) depth node _ hkept

/-- Two runs that differ in their journals only. -/
def ButJournal (_ : Still) (run run' : Run σ) : Prop :=
  run.workspace = run'.workspace ∧ run.statistics = run'.statistics

omit [Host N] in
theorem offer_butJournal (rule : Rule σ ε N) :
    Corresponds (ButJournal (σ := σ)) rule rule := by
  rintro world node run run' ⟨hworkspace, hstatistics⟩
  refine ⟨.still, le_rfl, ?_⟩
  rw [run_offer, run_offer, ← hworkspace]
  rcases (rule.ask node).run run.workspace with ⟨error | replacement, workspace⟩
  · refine ⟨⟨rfl, ?_⟩, .error _⟩
    rw [Run.statistics_advance, Run.statistics_advance, hstatistics]
  · refine ⟨⟨rfl, ?_⟩, .ok rfl⟩
    rw [Run.statistics_advance, Run.statistics_advance, hstatistics]

/-- **Runs do not read the journal.** -/
theorem dispatch_butJournal (depth : Nat) (node : N) {run run' : Run σ}
    (h : ButJournal .still run run') :
    ((dispatch rules depth node).run run).1 = ((dispatch rules depth node).run run').1 ∧
      ButJournal .still ((dispatch rules depth node).run run).2
        ((dispatch rules depth node).run run').2 := by
  have hrules : List.Forall₂ (Corresponds ButJournal) rules rules :=
    List.forall₂_same.mpr fun rule _ => offer_butJournal rule
  have hrecord (world : Still) : Paired ButJournal (fun _ _ _ => True) world
      (record Statistics.recordDispatch : DispatchM σ ε Unit)
      (record Statistics.recordDispatch) := by
    rintro run run' ⟨hworkspace, hstatistics⟩
    exact ⟨.still, le_rfl, ⟨hworkspace, congrArg Statistics.recordDispatch hstatistics⟩, .ok trivial⟩
  have hfresh (world : Still) : Paired ButJournal (fun _ => Eq) world
      (fresh : DispatchM σ ε ObjectId) fresh := by
    rintro ⟨workspace, _, _⟩ ⟨_, _, _⟩ ⟨rfl, hstatistics⟩
    exact ⟨.still, le_rfl, ⟨rfl, hstatistics⟩, .ok rfl⟩
  obtain ⟨_, _, hafter, hagree⟩ :=
    dispatch_corresponds hrules hrecord hfresh depth .still node run run' h
  exact ⟨hagree.eq, hafter⟩

end Dispatch

end TreeRules
