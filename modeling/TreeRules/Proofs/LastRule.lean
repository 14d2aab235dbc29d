import TreeRules.Proofs.CallOrder
import TreeRules.Proofs.OutputLabels
import TreeRules.Proofs.Preservation

/-!
# The last rule sees the output

A last rule that takes nothing is offered the survivors of every dispatch, and these stand for the
nodes of the result. What it is asked about is read off the log of its calls. The objects may differ,
since a survivor is rebuilt after it was offered; the labels do not, nor do their multiplicities.
-/

namespace TreeRules

open Dispatch

variable {σ ε N : Type}

/-- The node that the rule at a place was asked about, if the call is such a question. -/
def Call.offeredTo (place : Nat) : Call ε N → Option N
  | .asked at' node _ => if at' = place then some node else none
  | .visited _ _ _ => none

theorem Call.offeredTo_eq_none {place : Nat} {call : Call ε N} (h : call.place ≠ place) :
    call.offeredTo place = none := by
  cases call with
  | asked _ _ _ => exact if_neg h
  | visited _ _ _ => rfl

theorem length_filterMap_offeredTo_append (place : Nat) (log : List (Call ε N)) (call : Call ε N) :
    ((log ++ [call]).filterMap (Call.offeredTo place)).length =
      (log.filterMap (Call.offeredTo place)).length + (call.offeredTo place).toList.length := by
  rw [List.filterMap_append, List.length_append]
  rcases hcall : call.offeredTo place with _ | node <;> simp [hcall]

theorem Rule.Honest.logged [Host N] {refs : σ → Set N} {rule : Rule σ ε N} (h : rule.Honest refs)
    (place : Nat) : (rule.logged place).Honest fun state => refs state.1 where
  wants hnode hrefs := h.wants hnode hrefs
  visit hnode workspace hcovers := by
    obtain ⟨later, hlater, hcoversLater, hnodes⟩ := h.visit hnode
      ⟨workspace.shared.1, workspace.supply⟩ ⟨hcovers.supply_eq, hcovers.refs_subset⟩
    exact ⟨later, hlater, ⟨hcoversLater.supply_eq, hcoversLater.refs_subset⟩, hnodes⟩

theorem logged_honest [Host N] {refs : σ → Set N} {rules : List (Rule σ ε N)}
    (h : ∀ rule ∈ rules, rule.Honest refs) (first : Nat) :
    ∀ rule ∈ logged first rules, rule.Honest fun state => refs state.1 := by
  intro rule hrule
  obtain ⟨place, original, horiginal, rfl⟩ := mem_logged hrule
  exact (h original (List.mem_of_getElem? horiginal)).logged _

namespace Dispatch

section Calls

theorem Offer.filterMap_offeredTo_calls (place : Nat) (offer : Offer N) :
    (offer.calls place : List (Call ε N)).filterMap (Call.offeredTo place) = [offer.node] := by
  obtain ⟨node, _ | nodes⟩ := offer <;>
    simp [Offer.calls, Call.ofAsk, List.filterMap_cons, Call.offeredTo]

theorem filterMap_offeredTo_offers (place : Nat) (offers : List (Offer N)) :
    (offers.flatMap (Offer.calls place) : List (Call ε N)).filterMap (Call.offeredTo place) =
      offers.map Offer.node := by
  rw [List.filterMap_flatMap, ← List.flatMap_pure_eq_map]
  exact List.flatMap_congr fun offer _ => offer.filterMap_offeredTo_calls place

theorem filterMap_offeredTo_eq_nil {place : Nat} {calls : List (Call ε N)}
    (h : ∀ call ∈ calls, call.place ≠ place) : calls.filterMap (Call.offeredTo place) = [] := by
  rw [List.filterMap_eq_nil_iff]
  intro call hcall
  exact Call.offeredTo_eq_none (h call hcall)

theorem filterMap_offeredTo_roundCalls (first place : Nat) (rounds : List (List (Offer N))) :
    (roundCalls first rounds : List (Call ε N)).filterMap (Call.offeredTo (first + place)) =
      (rounds[place]?.getD []).map Offer.node := by
  induction rounds generalizing first place with
  | nil => rfl
  | cons offers rounds ih =>
      rw [roundCalls, List.filterMap_append]
      cases place with
      | zero =>
          have hrest : (roundCalls (first + 1) rounds : List (Call ε N)).filterMap
              (Call.offeredTo (first + 0)) = [] := by
            refine filterMap_offeredTo_eq_nil fun call hcall => ?_
            have hplace := (place_of_mem_roundCalls hcall).1
            omega
          rw [hrest, List.append_nil]
          exact filterMap_offeredTo_offers first offers
      | succ place =>
          have hfirst : (offers.flatMap (Offer.calls first) : List (Call ε N)).filterMap
              (Call.offeredTo (first + (place + 1))) = [] := by
            refine filterMap_offeredTo_eq_nil fun call hcall => ?_
            have hplace := place_of_mem_flatMap hcall
            omega
          have hrest := ih (first + 1) place
          rw [Nat.add_assoc, Nat.add_comm 1] at hrest
          rw [hfirst, List.nil_append, hrest, List.getElem?_cons_succ]

theorem Trace.filterMap_offeredTo_calls (place : Nat) (trace : Trace N) :
    (trace.calls : List (Call ε N)).filterMap (Call.offeredTo place) =
      (trace.offersOf place).map Offer.node := by
  rw [Trace.calls, Trace.levels, offersOf, ← List.flatMap_def, List.filterMap_flatMap,
    List.map_flatMap]
  refine List.flatMap_congr fun inner _ => ?_
  have hround := filterMap_offeredTo_roundCalls (ε := ε) 0 place inner.rounds
  rwa [Nat.zero_add] at hround

end Calls

section Counting

variable {rules : List (Rule σ ε N)} {last : Rule σ ε N} {read : σ → Nat}

/-- What is read off the state is as much more than at first as there were questions to the rule at
the place. -/
def Counts (read : σ → Nat) (first place : Nat) (state : σ × List (Call ε N)) : Prop :=
  read state.1 = first + (state.2.filterMap (Call.offeredTo place)).length

theorem Counts.append {first place : Nat} {state : σ × List (Call ε N)} {shared : σ}
    {call : Call ε N} (h : Counts read first place state)
    (hread : read shared = read state.1 + (call.offeredTo place).toList.length) :
    Counts read first place (shared, state.2 ++ [call]) := by
  change read shared = first + ((state.2 ++ [call]).filterMap (Call.offeredTo place)).length
  rw [length_filterMap_offeredTo_append, hread, h, Nat.add_assoc]

theorem logged_preserves_counts {first place other : Nat} {rule : Rule σ ε N}
    (hother : other ≠ place) (h : ∀ value, rule.Preserves fun shared => read shared = value) :
    (rule.logged other).Preserves (Counts (ε := ε) (N := N) read first place) where
  wants node state hcounts := by
    have hread := (h (read state.1)).wants node state.1 rfl
    refine Counts.append hcounts ?_
    rw [Call.offeredTo, if_neg hother]
    exact hread
  visit node state hwants workspace hcounts := by
    have hread := (h (read workspace.shared.1)).visit node state.1 hwants
      ⟨workspace.shared.1, workspace.supply⟩ rfl
    exact Counts.append hcounts hread

theorem logged_preserves_counts_self {first place : Nat}
    (hdeclines : ∀ node shared, ((last.wants node).run shared).1 = false)
    (h : ∀ node shared, read ((last.wants node).run shared).2 = read shared + 1) :
    (last.logged place).Preserves (Counts (ε := ε) (N := N) read first place) where
  wants node state hcounts := by
    refine Counts.append hcounts ?_
    rw [Call.offeredTo, if_pos rfl]
    exact h node state.1
  visit node state hwants := by
    have hfalse := hdeclines node state.1
    rw [show ((last.wants node).run state.1).1 = true from hwants] at hfalse
    cases hfalse

theorem logged_concat_preserves_counts {first : Nat}
    (hrules : ∀ rule ∈ rules, ∀ value, rule.Preserves fun shared => read shared = value)
    (hdeclines : ∀ node shared, ((last.wants node).run shared).1 = false)
    (hlast : ∀ node shared, read ((last.wants node).run shared).2 = read shared + 1) :
    ∀ rule ∈ logged 0 (rules ++ [last]),
      rule.Preserves (Counts (ε := ε) (N := N) read first rules.length) := by
  intro rule hrule
  obtain ⟨place, original, horiginal, rfl⟩ := mem_logged hrule
  rw [Nat.zero_add]
  by_cases hplace : place = rules.length
  · rw [hplace, List.getElem?_concat_length] at horiginal
    obtain rfl := Option.some.inj horiginal
    rw [hplace]
    exact logged_preserves_counts_self hdeclines hlast
  · have hbound := (List.getElem?_eq_some_iff.mp horiginal).1
    rw [List.length_append, List.length_singleton] at hbound
    have hbefore : place < rules.length := by omega
    rw [List.getElem?_append_left hbefore] at horiginal
    exact logged_preserves_counts hplace (hrules original (List.mem_of_getElem? horiginal))

end Counting

/-- **The last rule sees the output.** If the last rule takes nothing then the nodes that it is asked
about have the labels of the nodes of the result. So if the last rule is an observer, and no other
rule touches its counter, then the counter grows by the size of the result. -/
theorem dispatch_offers_output_to_last {refs : σ → Set Node} {rules : List (Rule σ ε Node)}
    {last : Rule σ ε Node} (honest : ∀ rule ∈ rules ++ [last], rule.Honest refs)
    (declines : ∀ node shared, ((last.wants node).run shared).1 = false) {heap : Heap Node}
    {root : Node} (hroot : root ∈ heap.objects) {run after : Run σ}
    (hcovers : heap.Covers refs run.workspace) {depth : Nat} {nodes : List Node}
    (h : (dispatch (rules ++ [last]) depth root).run run = (.ok nodes, after)) :
    ∃ calls : List (Call ε Node),
      (dispatch (logged 0 (rules ++ [last])) depth root).run (run.withLog []) =
        (.ok nodes, after.withLog calls) ∧
      (((calls.filterMap (Call.offeredTo rules.length)).map Tree.label : List Label) :
        Multiset Label) = ((nodes.flatMap Tree.preorder).map Tree.label : List Label) ∧
      ∀ part : Part σ Catalogue.Entry.State, (∀ small whole, part.get (part.set small whole) = small) →
        (∀ node, last.wants node = part.zoom (Catalogue.Entry.observe.wants node)) →
        (∀ rule ∈ rules, ∀ count, rule.Preserves fun shared => (part.get shared).1.offered = count) →
        (part.get after.workspace.shared).1.offered =
          (part.get run.workspace.shared).1.offered + total (nodes.map Host.subtreeSize) := by
  obtain ⟨calls, hlogged⟩ := dispatch_logged (rules ++ [last]) depth root run
  rw [h] at hlogged
  obtain ⟨trace, rfl, rfl, hleaves⟩ := dispatch_ok hlogged
  have hfollows := hleaves.follows
  have hcalls : calls = trace.calls := hfollows.log_eq
  have hlast : (logged 0 (rules ++ [last]) : List (Rule _ ε Node))[rules.length]? =
      some (last.logged rules.length) := by
    rw [getElem?_logged, List.getElem?_concat_length, Option.map_some, Nat.zero_add]
  have hlength : rules.length + 1 = (logged 0 (rules ++ [last]) : List (Rule _ ε Node)).length := by
    rw [length_logged, List.length_append, List.length_singleton]
  have hoffered : calls.filterMap (Call.offeredTo rules.length) =
      trace.dispatches.flatMap Trace.survivors := by
    rw [hcalls, Trace.filterMap_offeredTo_calls]
    exact hfollows.map_node_offersOf_last hlast hlength fun node state => declines node state.1
  obtain ⟨later, hsettled⟩ := hfollows.exists_settled (logged_honest honest 0) hroot
    ⟨hcovers.supply_eq, hcovers.refs_subset⟩
  have hlabels := Trace.labels_perm hsettled
  rw [← hoffered] at hlabels
  refine ⟨calls, hlogged, Multiset.coe_eq_coe.mpr hlabels.symm, ?_⟩
  intro part hpart hobserves hrules
  have hobserved : ∀ node shared, (part.get ((last.wants node).run shared).2).1.offered =
      (part.get shared).1.offered + 1 := by
    intro node shared
    rw [hobserves]
    exact congrArg (fun state => state.1.offered) (hpart _ shared)
  have hstart : Counts (fun shared => (part.get shared).1.offered)
      (part.get run.workspace.shared).1.offered rules.length
      (run.withLog ([] : List (Call ε Node))).workspace.shared := rfl
  have hcounts := dispatch_preserves (logged_concat_preserves_counts hrules declines hobserved)
    depth trace.node hstart
  rw [hlogged] at hcounts
  have hsize := hlabels.length_eq
  rw [List.length_map, List.length_map, Tree.length_flatMap_preorder] at hsize
  calc (part.get after.workspace.shared).1.offered
      = (part.get run.workspace.shared).1.offered +
          (calls.filterMap (Call.offeredTo rules.length)).length := hcounts
    _ = (part.get run.workspace.shared).1.offered +
          total (trace.outputs.map Host.subtreeSize) := by rw [hsize]

end Dispatch

namespace Catalogue

/-- An observer in front of the last one counts as well: the counter grows by two, and the result is
one node. -/
theorem offered_of_two_observers : ∃ (nodes : List Node) (after : Run _),
    (dispatch (RuleType.instances (pipeline "" [.observe, .observe]).rules) 1 (statement 0)).run
      (firstRun [.observe, .observe] 2) = (.ok nodes, after) ∧
    after.workspace.shared.1.offered ≠
      (firstRun [.observe, .observe] 2).workspace.shared.1.offered +
        total (nodes.map Host.subtreeSize) := by
  refine ⟨[statement 0], _, rfl, ?_⟩
  have hsize : total ([statement 0].map Host.subtreeSize) = 1 := by
    rw [List.map_singleton, Host.subtreeSize_eq]
    rfl
  rw [hsize]
  exact (by decide : 2 ≠ 0 + 1)

section Sample

def observed : List Entry := [.duplicateStatement, .observe]

theorem observed_run : ∃ nodes after,
    (dispatch (RuleType.instances (pipeline "" observed).rules) 2 sharedBlock).run
      (firstRun observed 2) = (.ok nodes, after) ∧
    nodes.map Tree.outline = [(block 2 (List.replicate 4 (statement 0))).outline] :=
  exists_ok_of_outlines (by decide +kernel)

/-- Behind the rule that duplicates statements, the observer counts the nodes of the result. -/
theorem dispatch_offers_output_to_last_block : ∃ nodes after,
    (dispatch (RuleType.instances (pipeline "" observed).rules) 2 sharedBlock).run
      (firstRun observed 2) = (.ok nodes, after) ∧
    after.workspace.shared.1.offered =
      (firstRun observed 2).workspace.shared.1.offered + total (nodes.map Host.subtreeSize) := by
  let first := (Entry.duplicateStatement.ruleType "").rule
  let last := (Entry.observe.ruleType "").rule
  let part : Part (Context × RuleType.Memories (pipeline "" observed).rules) Entry.State :=
    { get := fun whole => (whole.1, whole.2.2.1)
      set := fun small whole => (small.1, whole.2.1, small.2, whole.2.2.2) }
  obtain ⟨nodes, after, hrun, _⟩ := observed_run
  obtain ⟨calls, _, _, hoffered⟩ := @dispatch_offers_output_to_last _ _ _
    [first.on RuleType.headPart] ((last.on RuleType.headPart).on RuleType.tailPart)
    (pipeline_honest "" observed) (fun _ _ => rfl) _ _ sharedBlock_mem _ _ (firstRun_covers observed)
    _ _ hrun
  have hkeeps : ∀ rule ∈ [first.on RuleType.headPart], ∀ count,
      rule.Preserves fun whole => (part.get whole).1.offered = count := by
    refine List.forall_mem_singleton.mpr fun count => ?_
    exact ⟨fun _ _ hcount => hcount, fun _ _ _ _ hcount => hcount⟩
  exact ⟨nodes, after, hrun, hoffered part (fun _ _ => rfl) (fun _ => rfl) hkeeps⟩

end Sample

end Catalogue

end TreeRules
