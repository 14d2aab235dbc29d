import TreeRules.Proofs.Bookkeeping
import TreeRules.Proofs.Instances
import TreeRules.Proofs.Pairing

/-!
# What rules emit

What a visit returns may depend on the state that it finds. `Rule.Emits` says what holds of the
emitted nodes in every state. A property that every rule hands on from a node to the nodes that take
its place is kept by the whole working list, from the dispatched node to the survivors.
-/

namespace TreeRules

variable {σ τ ε β γ N : Type}

/-- Whenever the action succeeds, in whatever state, the result is as stated. -/
def RuleM.Returns (action : RuleM σ ε β) (post : β → Prop) : Prop :=
  ∀ workspace value, (action.run workspace).1 = .ok value → post value

namespace RuleM.Returns

variable {post : β → Prop}

theorem pure {value : β} (h : post value) : Returns (pure value : RuleM σ ε β) post := by
  intro workspace value' heq
  rw [← Except.ok.inj heq]
  exact h

theorem throw (error : ε) : Returns (throw error : RuleM σ ε β) post := nofun

theorem bind {action : RuleM σ ε β} {next : β → RuleM σ ε γ} {last : γ → Prop}
    (h : action.Returns post) (hnext : ∀ value, post value → (next value).Returns last) :
    Returns (action >>= next) last := by
  intro workspace result hresult
  rw [run_bind] at hresult
  rcases haction : action.run workspace with ⟨_ | value, after⟩ <;> rw [haction] at hresult
  · cases hresult
  · have hvalue : post value := h workspace value (by rw [haction])
    exact hnext value hvalue after result hresult

theorem create {make : StateM Supply β} (h : ∀ supply, post (make.run supply).1) :
    Returns (create make : RuleM σ ε β) post := by
  intro workspace value hvalue
  rw [← Except.ok.inj hvalue]
  exact h workspace.supply

theorem any (action : RuleM σ ε β) : action.Returns fun _ => True := fun _ _ _ => trivial

end RuleM.Returns

/-- In whatever state the rule wants the node, all that it emits for the node has the property. -/
def Rule.Emits (rule : Rule σ ε N) (node : N) (q : N → Prop) : Prop :=
  ∀ shared, ((rule.wants node).run shared).1 = true →
    (rule.visit node).Returns fun nodes => ∀ other ∈ nodes, q other

theorem Rule.Emits.on {rule : Rule τ ε N} {node : N} {q : N → Prop} (h : rule.Emits node q)
    (part : Part σ τ) : (rule.on part).Emits node q := by
  intro shared hwants workspace nodes hnodes
  exact h (part.get shared) hwants ⟨part.get workspace.shared, workspace.supply⟩ nodes hnodes

theorem RuleType.instances_emit {types : List (RuleType γ ε N)} {node : N} {q : N → Prop}
    (h : ∀ type ∈ types, type.rule.Emits node q) :
    ∀ rule ∈ instances types, rule.Emits node q := by
  intro rule hrule
  obtain ⟨type, htype, memory, rfl⟩ := exists_memory_of_mem_instances hrule
  exact (h type htype).on memory.inContext

namespace Dispatch

section Answers

variable {rule : Rule σ ε N} {offer : Offer N} {before after : Workspace σ}

theorem Answers.refused_or_visited (h : Answers rule before offer after) :
    (∃ shared, (rule.wants offer.node).run before.shared = (false, shared) ∧
      offer.replacement = none) ∨
    ∃ shared nodes, (rule.wants offer.node).run before.shared = (true, shared) ∧
      (rule.visit offer.node).run { before with shared } = (.ok nodes, after) ∧
      offer.replacement = some nodes := by
  rcases hasked : (rule.wants offer.node).run before.shared with ⟨_ | _, shared⟩
  · have hanswer := (Rule.run_ask_of_unwanted (ε := ε) hasked).symm.trans h
    obtain ⟨hnone, -⟩ := Prod.mk.inj hanswer
    exact .inl ⟨shared, rfl, (Except.ok.inj hnone).symm⟩
  · rcases hvisited : (rule.visit offer.node).run { before with shared } with ⟨_ | nodes, last⟩
    · have hanswer := (Rule.run_ask_of_visited hasked hvisited).symm.trans h
      cases hanswer
    · have hanswer := (Rule.run_ask_of_visited hasked hvisited).symm.trans h
      obtain ⟨hsome, rfl⟩ := Prod.mk.inj hanswer
      exact .inr ⟨shared, nodes, rfl, hvisited, (Except.ok.inj hsome).symm⟩

theorem Answers.forall_mem_nodes {q : N → Prop} (h : Answers rule before offer after)
    (hemits : rule.Emits offer.node q)
    (hrefused : ∀ shared shared', (rule.wants offer.node).run shared = (false, shared') →
      q offer.node) : ∀ other ∈ offer.nodes, q other := by
  rcases h.refused_or_visited with ⟨shared, hwants, hnone⟩ | ⟨shared, nodes, hwants, hvisit, hsome⟩
  · intro other hother
    rw [Offer.nodes, hnone, Option.getD_none, List.mem_singleton] at hother
    rw [hother]
    exact hrefused _ _ hwants
  · intro other hother
    rw [Offer.nodes, hsome, Option.getD_some] at hother
    exact hemits before.shared (by rw [hwants]) _ nodes (by rw [hvisit]) other hother

theorem Answers.nodes_of_declines (h : Answers rule before offer after)
    (hdeclines : ∀ shared, ((rule.wants offer.node).run shared).1 = false) :
    offer.nodes = [offer.node] := by
  rcases h.refused_or_visited with ⟨_, _, hnone⟩ | ⟨shared, nodes, hwants, _⟩
  · rw [Offer.nodes, hnone, Option.getD_none]
  · have hfalse := hdeclines before.shared
    rw [hwants] at hfalse
    cases hfalse

end Answers

section Rounds

variable {rules : List (Rule σ ε N)} {start finish : Workspace σ} {nodes survivors : List N}
  {rounds : List (List (Offer N))} {q : N → Prop}

theorem Rounds.exists_answers (h : Rounds rules start rounds finish) {place : Nat}
    {rule : Rule σ ε N} (hrule : rules[place]? = some rule) {offers : List (Offer N)}
    (hoffers : rounds[place]? = some offers) :
    ∀ offer ∈ offers, ∃ v w, Answers rule v offer w := by
  induction h generalizing place with
  | nil => cases hrule
  | cons hround _ ih =>
      cases place with
      | zero =>
          obtain rfl := Option.some.inj hrule
          obtain rfl := Option.some.inj hoffers
          intro offer hoffer
          exact hround.exists_step_of_mem hoffer
      | succ place => exact ih hrule hoffers

theorem Follows.exists_answers [Host N] {trace : Trace N} (h : Follows rules start trace finish)
    {place : Nat} {rule : Rule σ ε N} (hrule : rules[place]? = some rule) :
    ∀ offer ∈ trace.offersOf place, ∃ v w, Answers rule v offer w := by
  intro offer hoffer
  obtain ⟨inner, hinner, hoffer⟩ := List.mem_flatMap.mp hoffer
  have hplace : place < rules.length := (List.getElem?_eq_some_iff.mp hrule).1
  have hround := Trace.getElem?_rounds h.orderly hplace hinner
  obtain ⟨_, _, hfollows⟩ := h.exists_of_mem_dispatches inner hinner
  cases hfollows with
  | dispatch _ hrounds _ => exact hrounds.exists_answers hrule hround offer hoffer

/-- A last rule that takes nothing is offered what survives. -/
theorem Follows.map_node_offersOf_last [Host N] {trace : Trace N}
    (h : Follows rules start trace finish) {place : Nat} {last : Rule σ ε N}
    (hrule : rules[place]? = some last) (hplace : place + 1 = rules.length)
    (hdeclines : ∀ node shared, ((last.wants node).run shared).1 = false) :
    (trace.offersOf place).map Offer.node = trace.dispatches.flatMap Trace.survivors := by
  have hkept : (trace.offersOf place).flatMap Offer.nodes =
      (trace.offersOf place).flatMap fun offer => [offer.node] := by
    refine List.flatMap_congr fun offer hoffer => ?_
    obtain ⟨_, _, hanswers⟩ := h.exists_answers hrule offer hoffer
    exact hanswers.nodes_of_declines (hdeclines offer.node)
  rw [← Trace.flatMap_nodes_offersOf_last h.orderly hplace, hkept]
  exact (List.flatMap_pure_eq_map _ _).symm

theorem forall_mem_flatMap_nodes {rule : Rule σ ε N} {offers : List (Offer N)}
    (h : Thread (Answers rule) start offers finish)
    (hstep : ∀ offer ∈ offers, ∀ v w, Answers rule v offer w → ∀ other ∈ offer.nodes, q other) :
    ∀ other ∈ offers.flatMap Offer.nodes, q other := by
  intro other hother
  obtain ⟨offer, hoffer, hother⟩ := List.mem_flatMap.mp hother
  obtain ⟨v, w, hanswers⟩ := h.exists_step_of_mem hoffer
  exact hstep offer hoffer v w hanswers other hother

/-- **What every rule hands on, the survivors have.** -/
theorem Rounds.forall_survivors (h : Rounds rules start rounds finish)
    (hrelay : Relay nodes rounds survivors)
    (hemits : ∀ rule ∈ rules, ∀ node, q node → rule.Emits node q) (hnodes : ∀ node ∈ nodes, q node) :
    ∀ survivor ∈ survivors, q survivor := by
  induction h generalizing nodes with
  | nil =>
      rw [hrelay.eq_of_nil]
      exact hnodes
  | cons hround _ ih =>
      obtain ⟨hrule, hrules⟩ := List.forall_mem_cons.mp hemits
      cases hrelay with
      | cons hrelay =>
          refine ih hrelay hrules (forall_mem_flatMap_nodes hround fun offer hoffer v w h => ?_)
          have hnode : q offer.node := hnodes _ (List.mem_map_of_mem hoffer)
          exact h.forall_mem_nodes (hrule offer.node hnode) fun _ _ _ => hnode

end Rounds

end Dispatch

end TreeRules
