import TreeRules.Node.Basic
import TreeRules.Proofs.Heap
import TreeRules.Proofs.Instances
import TreeRules.Proofs.Pairing

/-!
# How rules behave towards objects

A rule can only hand out objects that exist already, because it was given them or because its state
refers to them, and objects that it made under identities from the supply. Rules are plain functions
here, so this is a condition on them, `Rule.Honest`: without it an identity would tell nothing. That
a rule does not look at identities, `Rule.Blind`, is a condition that some rules meet and others do
not. An instance of a rule in a pipeline behaves like the rule itself.
-/

namespace TreeRules

variable {σ τ ε β γ N : Type}

section Honest

variable [Host N]

/-- The action takes workspaces that the heap covers to workspaces that a later one covers. -/
def RuleM.Keeps (refs : σ → Set N) (heap : Heap N) (action : RuleM σ ε β)
    (post : Heap N → β → Prop) : Prop :=
  ∀ workspace, heap.Covers refs workspace → ∃ later, heap ≤ later ∧
    later.Covers refs (action.run workspace).2 ∧
    ∀ value, (action.run workspace).1 = .ok value → post later value

namespace RuleM.Keeps

variable {refs : σ → Set N} {heap : Heap N} {post : Heap N → β → Prop}

theorem pure {value : β} (h : post heap value) :
    Keeps refs heap (pure value : RuleM σ ε β) post := by
  refine fun workspace hcovers => ⟨heap, le_rfl, hcovers, fun value' heq => ?_⟩
  rw [← Except.ok.inj heq]
  exact h

theorem throw (error : ε) : Keeps refs heap (throw error : RuleM σ ε β) post :=
  fun _ hcovers => ⟨heap, le_rfl, hcovers, nofun⟩

theorem bind {action : RuleM σ ε β} {next : β → RuleM σ ε γ} {last : Heap N → γ → Prop}
    (h : Keeps refs heap action post)
    (hnext : ∀ later, heap ≤ later → ∀ value, post later value →
      Keeps refs later (next value) last) :
    Keeps refs heap (action >>= next) last := by
  intro workspace hcovers
  obtain ⟨mid, hmid, hcoversMid, hpost⟩ := h workspace hcovers
  rw [run_bind]
  rcases haction : action.run workspace with ⟨_ | value, after⟩ <;> rw [haction] at hcoversMid hpost
  · exact ⟨mid, hmid, hcoversMid, nofun⟩
  · obtain ⟨later, hlater, hrest⟩ := hnext mid hmid value (hpost value rfl) after hcoversMid
    exact ⟨later, hmid.trans hlater, hrest⟩

theorem create {make : StateM Supply β} (h : heap.Allocates make post) :
    Keeps refs heap (create make : RuleM σ ε β) post := by
  intro workspace hcovers
  obtain ⟨later, hlater, hsupply, hpost⟩ := h
  rw [← hcovers.supply_eq] at hsupply hpost
  refine ⟨later, hlater, ⟨hsupply, hcovers.refs_subset.trans hlater.1⟩, fun value heq => ?_⟩
  rw [← Except.ok.inj heq]
  exact hpost

theorem shared : Keeps refs heap (shared : RuleM σ ε σ) fun _ _ => True :=
  fun _ hcovers => ⟨heap, le_rfl, hcovers, fun _ _ => trivial⟩

theorem update {change : σ → σ} (hchange : ∀ state, refs (change state) ⊆ refs state) :
    Keeps refs heap (update change : RuleM σ ε Unit) fun _ _ => True :=
  fun _ hcovers => ⟨heap, le_rfl,
    ⟨hcovers.supply_eq, (hchange _).trans hcovers.refs_subset⟩, fun _ _ => trivial⟩

end RuleM.Keeps

/-- A rule that treats objects as objects, when its state refers to the objects `refs`. -/
structure Rule.Honest (refs : σ → Set N) (rule : Rule σ ε N) : Prop where
  wants : ∀ {heap : Heap N} {shared : σ} {node : N}, node ∈ heap.objects →
    refs shared ⊆ heap.objects → refs ((rule.wants node).run shared).2 ⊆ heap.objects
  visit : ∀ {heap : Heap N} {node : N}, node ∈ heap.objects →
    RuleM.Keeps refs heap (rule.visit node) fun later nodes =>
      ∀ other ∈ nodes, other ∈ later.objects

namespace Rule.Honest

variable {refs : σ → Set N} {rule : Rule σ ε N}

theorem ask (h : rule.Honest refs) {heap : Heap N} {node : N} (hnode : node ∈ heap.objects) :
    RuleM.Keeps refs heap (rule.ask node) fun later replacement =>
      ∀ other ∈ Dispatch.Offer.nodes ⟨node, replacement⟩, other ∈ later.objects := by
  intro workspace hcovers
  have hwants := h.wants hnode hcovers.refs_subset
  rcases hasked : (rule.wants node).run workspace.shared with ⟨_ | _, shared⟩ <;>
    rw [hasked] at hwants
  · rw [run_ask_of_unwanted hasked]
    refine ⟨heap, le_rfl, ⟨hcovers.supply_eq, hwants⟩, ?_⟩
    rintro _ ⟨⟩ other hother
    rw [List.mem_singleton.mp hother]
    exact hnode
  · obtain ⟨later, hlater, hcovers', hnodes⟩ :=
      h.visit hnode { workspace with shared } ⟨hcovers.supply_eq, hwants⟩
    rw [run_ask_of_wanted hasked]
    refine ⟨later, hlater, hcovers', fun replacement hreplacement => ?_⟩
    rcases hvisited : ((rule.visit node).run { workspace with shared }).1 with _ | nodes <;>
      rw [hvisited] at hreplacement <;> cases hreplacement
    exact hnodes nodes hvisited

theorem on {refs : τ → Set N} {refs' : σ → Set N} {rule : Rule τ ε N} (h : rule.Honest refs)
    {part : Part σ τ} (hget : ∀ whole, refs (part.get whole) ⊆ refs' whole)
    (hset : ∀ small whole, refs' (part.set small whole) ⊆ refs small ∪ refs' whole) :
    (rule.on part).Honest refs' where
  wants hnode hrefs :=
    (hset _ _).trans (Set.union_subset (h.wants hnode ((hget _).trans hrefs)) hrefs)
  visit {heap node} hnode := by
    intro workspace hcovers
    obtain ⟨later, hlater, hcovers', hnodes⟩ :=
      h.visit hnode ⟨part.get workspace.shared, workspace.supply⟩
        ⟨hcovers.supply_eq, (hget _).trans hcovers.refs_subset⟩
    refine ⟨later, hlater, ⟨hcovers'.supply_eq, (hset _ _).trans ?_⟩, hnodes⟩
    exact Set.union_subset hcovers'.refs_subset (hcovers.refs_subset.trans hlater.1)

end Rule.Honest

theorem RuleType.instances_honest {refs : γ → Set N} {types : List (RuleType γ ε N)}
    (h : ∀ type ∈ types, type.rule.Honest (refs ·.1)) :
    ∀ rule ∈ instances types, rule.Honest (refs ·.1) := by
  intro rule hrule
  obtain ⟨type, htype, memory, rfl⟩ := exists_memory_of_mem_instances hrule
  exact (h type htype).on (fun _ => subset_rfl) fun _ _ => Set.subset_union_left

end Honest

/-- Two visits that do the same up to identities, when the states are the same: both give results
that are related, or both fail in the same way, and the states are the same afterwards. -/
def RuleM.Mirrors (same : σ → σ → Prop) (post : β → γ → Prop) (left : RuleM σ ε β)
    (right : RuleM σ ε γ) : Prop :=
  Paired (W := Still) (fun _ workspace workspace' => same workspace.shared workspace'.shared)
    (fun _ => post) .still left right

section Blind

variable {same : σ → σ → Prop}

namespace RuleM.Mirrors

theorem create {make make' : StateM Supply Node}
    (h : ∀ supply supply', (make.run supply).1.outline = (make'.run supply').1.outline) :
    Mirrors same (fun left right => left.outline = right.outline) (create make : RuleM σ ε Node)
      (create make') :=
  fun _ _ hsame => ⟨.still, le_rfl, hsame, .ok (h _ _)⟩

theorem shared : Mirrors same same (shared : RuleM σ ε σ) shared :=
  fun _ _ hsame => ⟨.still, le_rfl, hsame, .ok hsame⟩

theorem update {change change' : σ → σ}
    (h : ∀ state state', same state state' → same (change state) (change' state')) :
    Mirrors same (fun _ _ => True) (update change : RuleM σ ε Unit) (update change') :=
  fun _ _ hsame => ⟨.still, le_rfl, h _ _ hsame, .ok trivial⟩

end RuleM.Mirrors

/-- Whether two lists of trees are equal, whatever objects hold the nodes. -/
def SameOutlines (nodes nodes' : List Node) : Prop :=
  nodes.map Tree.outline = nodes'.map Tree.outline

/-- A rule that does not look at identities: on equal trees, in states that are the same, it does
the same. When states are the same is up to the states: those that refer to nodes may count as the
same also when they refer to equal trees. -/
structure Rule.Blind (same : σ → σ → Prop) (rule : Rule σ ε Node) : Prop where
  wants : ∀ {shared shared' : σ} {left right : Node}, same shared shared' →
    left.outline = right.outline →
      ((rule.wants left).run shared).1 = ((rule.wants right).run shared').1 ∧
        same ((rule.wants left).run shared).2 ((rule.wants right).run shared').2
  visit : ∀ {left right : Node}, left.outline = right.outline →
    RuleM.Mirrors same SameOutlines (rule.visit left) (rule.visit right)

namespace Rule.Blind

theorem ask {rule : Rule σ ε Node} (h : rule.Blind same) {left right : Node}
    (houtline : left.outline = right.outline) :
    RuleM.Mirrors same (fun replacement replacement' =>
        replacement.map (List.map Tree.outline) = replacement'.map (List.map Tree.outline))
      (rule.ask left) (rule.ask right) := by
  intro workspace workspace' hsame
  obtain ⟨hanswer, hshared⟩ := h.wants hsame houtline
  rcases hasked : (rule.wants left).run workspace.shared with ⟨answer, shared⟩
  rcases hasked' : (rule.wants right).run workspace'.shared with ⟨answer', shared'⟩
  rw [hasked, hasked'] at hanswer hshared
  obtain rfl : answer = answer' := hanswer
  cases answer with
  | false =>
      rw [run_ask_of_unwanted hasked, run_ask_of_unwanted hasked']
      exact ⟨.still, le_rfl, hshared, .ok rfl⟩
  | true =>
      rw [run_ask_of_wanted hasked, run_ask_of_wanted hasked']
      obtain ⟨_, _, hafter, hresult⟩ :=
        h.visit houtline { workspace with shared } { workspace' with shared := shared' } hshared
      refine ⟨.still, le_rfl, hafter, ?_⟩
      generalize ((rule.visit left).run { workspace with shared }).1 = result at hresult
      generalize ((rule.visit right).run { workspace' with shared := shared' }).1 = result'
        at hresult
      cases hresult with
      | ok hnodes => exact .ok (congrArg some hnodes)
      | error error => exact .error error

theorem on {same : τ → τ → Prop} {same' : σ → σ → Prop} {rule : Rule τ ε Node}
    (h : rule.Blind same) {part : Part σ τ}
    (hget : ∀ whole whole', same' whole whole' → same (part.get whole) (part.get whole'))
    (hset : ∀ small small' whole whole', same small small' → same' whole whole' →
      same' (part.set small whole) (part.set small' whole')) : (rule.on part).Blind same' where
  wants hsame houtline := by
    obtain ⟨hanswer, hshared⟩ := h.wants (hget _ _ hsame) houtline
    exact ⟨hanswer, hset _ _ _ _ hshared hsame⟩
  visit houtline workspace workspace' hsame := by
    obtain ⟨_, _, hafter, hresult⟩ := h.visit houtline
      ⟨part.get workspace.shared, workspace.supply⟩ ⟨part.get workspace'.shared, workspace'.supply⟩
      (hget _ _ hsame)
    exact ⟨.still, le_rfl, hset _ _ _ _ hafter hsame, hresult⟩

end Rule.Blind

/-- All instances in a pipeline are blind, when their memories do not refer to nodes. -/
theorem RuleType.instances_blind {same : γ → γ → Prop} {types : List (RuleType γ ε Node)}
    (h : ∀ type ∈ types,
      type.rule.Blind fun state state' => same state.1 state'.1 ∧ state.2 = state'.2) :
    ∀ rule ∈ instances types,
      rule.Blind fun state state' => same state.1 state'.1 ∧ state.2 = state'.2 := by
  intro rule hrule
  obtain ⟨type, htype, memory, rfl⟩ := exists_memory_of_mem_instances hrule
  refine (h type htype).on ?_ ?_
  · rintro state state' ⟨hcontext, hmemories⟩
    exact ⟨hcontext, congrArg memory.get hmemories⟩
  · rintro small small' state state' ⟨hcontext, hmemory⟩ ⟨-, hmemories⟩
    exact ⟨hcontext, congrArg₂ memory.set hmemory hmemories⟩

end Blind

end TreeRules
