import TreeRules.Proofs.CatalogueConduct
import TreeRules.Proofs.Termination

/-!
# Sharing is invisible

The plain dispatcher knows nothing of identities: it always rebuilds a survivor around the results
of its children. Over rules that do not look at identities either, nobody can tell the dispatcher
from it: both end or neither does, and they give equal trees or the same error, and leave equal
states and statistics. Objects that are shared inside one of the two roots may be told apart inside
the other.
-/

namespace TreeRules

open Dispatch DispatchM

variable {σ ε : Type}

namespace Dispatch

variable {N : Type} [Host N]

/-- The plain dispatcher: the rules run over the working list one after the other, and every
survivor is rebuilt around the results of its children. -/
def plainDispatch (rules : List (Rule σ ε N)) : Nat → N → DispatchM σ ε (List N)
  | 0, _ => throw .tooDeep
  | depth + 1, node => do
    record Statistics.recordDispatch
    let nodes ← rules.foldlM (fun nodes rule => nodes.flatMapM (offer rule)) [node]
    nodes.mapM fun node => do
      let children ← (Host.children node).flatMapM (plainDispatch rules depth)
      return Host.withChildren (← fresh) children node

omit [Host N] in
theorem offerEach_eq_flatMapM (rule : Rule σ ε N) (nodes : List N) :
    offerEach rule nodes = nodes.flatMapM (offer rule) := by
  induction nodes with
  | nil => rfl
  | cons node rest ih => rw [offerEach, List.flatMapM_cons, ih]

omit [Host N] in
theorem survivors_eq_foldlM (rules : List (Rule σ ε N)) (nodes : List N) :
    survivors rules nodes =
      rules.foldlM (fun nodes rule => nodes.flatMapM (offer rule)) nodes := by
  induction rules generalizing nodes with
  | nil => rfl
  | cons rule rules ih =>
      rw [survivors, List.foldlM_cons, offerEach_eq_flatMapM]
      simp only [ih]

theorem rebuildEach_eq_mapM (dispatch : N → DispatchM σ ε (List N)) (nodes : List N) :
    rebuildEach dispatch nodes = nodes.mapM (rebuild dispatch) := by
  induction nodes with
  | nil => rfl
  | cons node rest ih => rw [rebuildEach, List.mapM_cons, ih]

end Dispatch

/-- Two runs that nobody who is blind to identities can tell apart. -/
structure Alike (same : σ → σ → Prop) (run run' : Run σ) : Prop where
  same : same run.workspace.shared run'.workspace.shared
  statistics_eq : run.statistics = run'.statistics
  journal_eq : run.journal = run'.journal

theorem Alike.advance {same : σ → σ → Prop} {run run' : Run σ} (h : Alike same run run')
    {workspace workspace' : Workspace σ} (hshared : same workspace.shared workspace'.shared)
    {events events' : List Event} (hevents : events = events') :
    Alike same (run.advance workspace events) (run'.advance workspace' events') where
  same := hshared
  statistics_eq := by rw [Run.statistics_advance, Run.statistics_advance, h.statistics_eq, hevents]
  journal_eq := by rw [Run.advance, Run.advance, h.journal_eq, hevents]

/-- The first run respects the heap, and the second one is like it. -/
def Accompanies (refs : σ → Set Node) (same : σ → σ → Prop) (heap : Heap Node)
    (run run' : Run σ) : Prop :=
  heap.Covers refs run.workspace ∧ Alike same run run'

/-- The object exists and is equal to the tree. -/
def Holds (heap : Heap Node) (object tree : Node) : Prop :=
  object ∈ heap.objects ∧ object.outline = tree.outline

/-- The object is equal to the tree, and exists or was made by rebuilding since `start`. -/
def Gives (start heap : Heap Node) (object tree : Node) : Prop :=
  (object ∈ heap.objects ∨ start.supply.next ≤ object.id) ∧ object.outline = tree.outline

section Pairing

variable {refs : σ → Set Node} {same : σ → σ → Prop} {start heap earlier later : Heap Node}
  {left right : Node} {lefts rights : List Node}

theorem Holds.mono : Monotone Holds := fun _ _ hle _ _ h => ⟨Heap.mem_of_le hle h.1, h.2⟩

theorem Gives.mono : Monotone (Gives start) :=
  fun _ _ hle _ _ h => ⟨h.1.imp_left (Heap.mem_of_le hle), h.2⟩

theorem Gives.of_later_start (hle : earlier ≤ start) (h : Gives start later left right) :
    Gives earlier later left right :=
  ⟨h.1.imp_right (Heap.next_le_of_le hle).trans, h.2⟩

theorem forall₂_holds (hmem : ∀ node ∈ lefts, node ∈ heap.objects)
    (houtlines : lefts.map Tree.outline = rights.map Tree.outline) :
    List.Forall₂ (Holds heap) lefts rights := by
  induction lefts generalizing rights with
  | nil =>
      obtain rfl := List.map_eq_nil_iff.mp houtlines.symm
      exact .nil
  | cons left lefts ih =>
      obtain ⟨right, rights, rfl, hright, hrights⟩ := List.map_eq_cons_iff.mp houtlines.symm
      obtain ⟨hleft, hlefts⟩ := List.forall_mem_cons.mp hmem
      exact .cons ⟨hleft, hright.symm⟩ (ih hlefts hrights.symm)

theorem Holds.children (h : Holds heap left right) :
    List.Forall₂ (Holds heap) (Host.children left) (Host.children right) := by
  obtain ⟨hmem, houtline⟩ := h
  refine forall₂_holds (heap.children_mem hmem) ?_
  obtain ⟨id, label, children⟩ := left
  obtain ⟨id', label', children'⟩ := right
  rw [Tree.outline_node, Tree.outline_node] at houtline
  exact (Outline.node.inj houtline).2

theorem offer_alike {replacement replacement' : Option (List Node)}
    (houtline : left.outline = right.outline)
    (hreplacement : replacement.map (List.map Tree.outline) =
      replacement'.map (List.map Tree.outline)) :
    (Offer.nodes ⟨left, replacement⟩).map Tree.outline =
        (Offer.nodes ⟨right, replacement'⟩).map Tree.outline ∧
      ∀ name, Offer.events name ⟨left, replacement⟩ = Offer.events name ⟨right, replacement'⟩ := by
  cases replacement with
  | none =>
      obtain rfl := Option.map_eq_none_iff.mp hreplacement.symm
      exact ⟨congrArg (fun outline => [outline]) houtline, fun _ => rfl⟩
  | some nodes =>
      obtain ⟨nodes', rfl, hnodes⟩ := Option.map_eq_some_iff.mp hreplacement.symm
      refine ⟨hnodes.symm, fun name => ?_⟩
      have hlength : nodes.length = nodes'.length := by simpa using congrArg List.length hnodes.symm
      simp [Offer.events, hlength]

theorem outline_withChildren_eq (houtline : left.outline = right.outline)
    (hchildren : lefts.map Tree.outline = rights.map Tree.outline) (id id' : ObjectId) :
    (Host.withChildren id lefts left).outline = (Host.withChildren id' rights right).outline := by
  obtain ⟨_, label, _⟩ := left
  obtain ⟨_, label', _⟩ := right
  rw [Tree.outline_node, Tree.outline_node] at houtline
  obtain rfl : label = label' := (Outline.node.inj houtline).1
  change (Tree.node id label lefts).outline = (Tree.node id' label rights).outline
  rw [Tree.outline_node, Tree.outline_node, hchildren]

theorem outline_withChildren_self (id : ObjectId) (node : Node) :
    (Host.withChildren id (Host.children node) node).outline = node.outline := by
  obtain ⟨_, label, children⟩ := node
  change (Tree.node id label children).outline = _
  rw [Tree.outline_node, Tree.outline_node]

section Rules

variable {rule : Rule σ ε Node} {rules : List (Rule σ ε Node)}

theorem record_paired (change : Statistics → Statistics) :
    Paired (Accompanies refs same) (fun _ _ _ => True) heap
      (record change : DispatchM σ ε Unit) (record change : DispatchM σ ε Unit) := by
  rintro run run' ⟨hcovers, halike⟩
  refine ⟨heap, le_rfl, ⟨hcovers, halike.same, ?_, halike.journal_eq⟩, .ok trivial⟩
  rw [run_record, run_record, halike.statistics_eq]

theorem offer_paired (honest : rule.Honest refs) (blind : rule.Blind same)
    (h : Holds heap left right) :
    Paired (Accompanies refs same) (fun later => List.Forall₂ (Holds later)) heap
      (offer rule left) (offer rule right) := by
  rintro run run' ⟨hcovers, halike⟩
  obtain ⟨later, hlater, hcoversLater, hnodes⟩ := honest.ask h.1 run.workspace hcovers
  obtain ⟨_, _, hshared, hresult⟩ := blind.ask h.2 run.workspace run'.workspace halike.same
  rw [run_offer, run_offer]
  rcases hleft : (rule.ask left).run run.workspace with ⟨error | replacement, workspace⟩ <;>
    rcases hright : (rule.ask right).run run'.workspace with ⟨error' | replacement', workspace'⟩ <;>
    rw [hleft, hright] at hresult hshared <;> rw [hleft] at hcoversLater hnodes
  · cases hresult with
    | error error =>
        exact ⟨later, hlater, ⟨hcoversLater, halike.advance hshared rfl⟩,
          .error (Halt.failed error)⟩
  · cases hresult
  · cases hresult
  · cases hresult with
    | ok hreplacement =>
        obtain ⟨houtlines, hevents⟩ := offer_alike h.2 hreplacement
        exact ⟨later, hlater, ⟨hcoversLater, halike.advance hshared (hevents rule.name)⟩,
          .ok (forall₂_holds (hnodes replacement rfl) houtlines)⟩

theorem survivors_paired (honest : ∀ rule ∈ rules, rule.Honest refs)
    (blind : ∀ rule ∈ rules, rule.Blind same) (h : Holds heap left right) :
    Paired (Accompanies refs same) (fun later => List.Forall₂ (Holds later)) heap
      (survivors rules [left])
      (rules.foldlM (fun nodes rule => nodes.flatMapM (offer rule)) [right]) := by
  rw [survivors_eq_foldlM]
  have hround (rule : Rule σ ε Node) (hrule : rule ∈ rules) (later : Heap Node) (_ : heap ≤ later)
      (lefts rights : List Node) (hnodes : List.Forall₂ (Holds later) lefts rights) :
      Paired (Accompanies refs same) (fun later => List.Forall₂ (Holds later)) later
        (lefts.flatMapM (offer rule)) (rights.flatMapM (offer rule)) := by
    refine Paired.flatMapM Holds.mono Holds.mono (fun _ _ _ _ h => ?_) hnodes
    exact offer_paired (honest rule hrule) (blind rule hrule) h
  exact Paired.foldlM hround (.cons h .nil)

end Rules

theorem eq_singleton_of_isUntouched (hchild : left ∈ start.objects) (hle : start ≤ heap)
    (hgives : List.Forall₂ (Gives start heap) lefts rights)
    (huntouched : isUntouched left lefts = true) : lefts = [left] := by
  match lefts, huntouched with
  | [node], huntouched =>
      obtain ⟨_, _, hnode, _, _⟩ := List.forall₂_cons_left_iff.mp hgives
      have hidentity : node.id = left.id := beq_iff_eq.mp huntouched
      -- A copy would have an identity that was still free when the child existed already.
      rcases hnode.1 with hmem | hfresh
      · rw [heap.eq_of_identity_eq hmem (Heap.mem_of_le hle hchild) hidentity]
      · exact absurd (start.identity_lt hchild) (Nat.not_lt.mpr (hfresh.trans_eq hidentity))

section Children

variable {dispatcher dispatcher' : Node → DispatchM σ ε (List Node)}
  (hdispatch : ∀ {heap left right}, Holds heap left right →
    Paired (Accompanies refs same) (fun later => List.Forall₂ (Gives heap later)) heap
      (dispatcher left) (dispatcher' right))

include hdispatch

/-- If all children came back untouched then the results are the children. -/
theorem dispatchEach_paired (h : List.Forall₂ (Holds heap) lefts rights) :
    Paired (Accompanies refs same)
      (fun later result nodes => List.Forall₂ (Gives heap later) result.1 nodes ∧
        (result.2 = true → result.1 = lefts)) heap
      (dispatchEach dispatcher lefts) (rights.flatMapM dispatcher') := by
  induction lefts generalizing rights heap with
  | nil =>
      cases h
      exact .pure ⟨.nil, fun _ => rfl⟩
  | cons left lefts ih =>
      obtain ⟨right, rights, hhead, htail, rfl⟩ := List.forall₂_cons_left_iff.mp h
      rw [dispatchEach, List.flatMapM_cons]
      refine (hdispatch hhead).bind fun mid hmid here here' hhere => ?_
      refine (ih (htail.imp (Holds.mono hmid))).bind fun later hlater result others hrest => ?_
      obtain ⟨hothers, huntouched⟩ := hrest
      refine .pure ⟨List.rel_append (hhere.imp (Gives.mono hlater))
        (hothers.imp fun _ _ => Gives.of_later_start hmid), fun hall => ?_⟩
      obtain ⟨hfirst, hsecond⟩ := Bool.and_eq_true_iff.mp hall
      rw [eq_singleton_of_isUntouched hhead.1 hmid hhere hfirst, huntouched hsecond]
      rfl

theorem rebuild_paired (h : Holds heap left right) :
    Paired (Accompanies refs same) (Gives heap) heap (rebuild dispatcher left) (do
      let children ← (Host.children right).flatMapM dispatcher'
      return Host.withChildren (← fresh) children right) := by
  refine (dispatchEach_paired hdispatch h.children).bind fun mid hmid result children hpost => ?_
  obtain ⟨nodes, untouched⟩ := result
  obtain ⟨hnodes, huntouched⟩ := hpost
  have hchildren := map_eq_of_forall₂ (hnodes.imp fun _ _ => And.right)
  rintro run run' ⟨hcovers, halike⟩
  cases untouched with
  -- The plain dispatcher takes an identity in either case; nothing in the pair depends on it.
  | true =>
      obtain rfl : nodes = Host.children left := huntouched rfl
      refine ⟨mid, le_rfl, ⟨hcovers, halike.same, halike.statistics_eq, halike.journal_eq⟩,
        .ok ⟨.inl (Heap.mem_of_le hmid h.1), ?_⟩⟩
      rw [← outline_withChildren_self left.id left]
      exact outline_withChildren_eq h.2 hchildren _ _
  | false =>
      refine ⟨mid.spend, mid.le_spend, ⟨⟨?_, hcovers.refs_subset⟩, halike.same,
        halike.statistics_eq, halike.journal_eq⟩, .ok ⟨.inr ?_, ?_⟩⟩
      · exact congrArg (fun supply : Supply => Supply.mk (supply.next + 1)) hcovers.supply_eq
      · exact (Heap.next_le_of_le hmid).trans_eq (congrArg Supply.next hcovers.supply_eq).symm
      · exact outline_withChildren_eq h.2 hchildren _ _

end Children

theorem dispatch_paired {rules : List (Rule σ ε Node)} (honest : ∀ rule ∈ rules, rule.Honest refs)
    (blind : ∀ rule ∈ rules, rule.Blind same) (depth : Nat) (h : Holds heap left right) :
    Paired (Accompanies refs same) (fun later => List.Forall₂ (Gives heap later)) heap
      (dispatch rules depth left) (plainDispatch rules depth right) := by
  induction depth generalizing heap left right with
  | zero => exact .throw _
  | succ depth ih =>
      rw [dispatch, plainDispatch]
      refine (record_paired _).bind fun start hstart _ _ _ => ?_
      refine (survivors_paired honest blind (Holds.mono hstart _ _ h)).bind
        fun mid hmid nodes nodes' hnodes => ?_
      rw [rebuildEach_eq_mapM]
      refine Paired.mapM Holds.mono Gives.mono (fun later hlater left right h => ?_) hnodes
      exact (rebuild_paired ih h).imp fun _ _ _ _ =>
        Gives.of_later_start (hstart.trans (hmid.trans hlater))

end Pairing

section Ends

variable {α β : Type} {related : α → β → Prop}

theorem Agree.of_mapError_left {left : Except ε α} {right : Except (Halt ε) β}
    (h : Agree related (left.mapError .failed) right) :
    ∃ right', right = right'.mapError .failed ∧ Agree related left right' := by
  cases left with
  | error error =>
      cases h
      exact ⟨.error error, rfl, .error error⟩
  | ok value =>
      cases h with
      | ok hrelated => exact ⟨.ok _, rfl, .ok hrelated⟩

theorem Agree.of_mapError_right {left : Except (Halt ε) α} {right : Except ε β}
    (h : Agree related left (right.mapError .failed)) :
    ∃ left', left = left'.mapError .failed ∧ Agree related left' right := by
  cases right with
  | error error =>
      cases h
      exact ⟨.error error, rfl, .error error⟩
  | ok value =>
      cases h with
      | ok hrelated => exact ⟨.ok _, rfl, .ok hrelated⟩

end Ends

/-- **Sharing is invisible.** Whenever one of the two dispatchers ends so does the other, and nobody
who is blind to identities can tell which one it was. -/
theorem dispatch_refines_plainDispatch {refs : σ → Set Node} {same : σ → σ → Prop}
    {rules : List (Rule σ ε Node)} (honest : ∀ rule ∈ rules, rule.Honest refs)
    (blind : ∀ rule ∈ rules, rule.Blind same) {heap : Heap Node} {left right : Node}
    (hleft : left ∈ heap.objects) (houtline : left.outline = right.outline) {run run' : Run σ}
    (hcovers : heap.Covers refs run.workspace) (halike : Alike same run run') :
    (∀ result after, Ends (fun depth => dispatch rules depth left) run result after →
      ∃ result' after', Ends (fun depth => plainDispatch rules depth right) run' result' after' ∧
        Agree SameOutlines result result' ∧ Alike same after after') ∧
    (∀ result' after', Ends (fun depth => plainDispatch rules depth right) run' result' after' →
      ∃ result after, Ends (fun depth => dispatch rules depth left) run result after ∧
        Agree SameOutlines result result' ∧ Alike same after after') := by
  have hpaired (depth : Nat) : Agree SameOutlines ((dispatch rules depth left).run run).1
        ((plainDispatch rules depth right).run run').1 ∧
      Alike same ((dispatch rules depth left).run run).2
        ((plainDispatch rules depth right).run run').2 := by
    obtain ⟨later, _, hafter, hagree⟩ :=
      dispatch_paired honest blind depth ⟨hleft, houtline⟩ run run' ⟨hcovers, halike⟩
    exact ⟨hagree.imp fun _ _ h => map_eq_of_forall₂ (h.imp fun _ _ => And.right), hafter.2⟩
  constructor
  · rintro result after ⟨depth, hrun⟩
    obtain ⟨hagree, hafter⟩ := hpaired depth
    rw [hrun] at hagree hafter
    obtain ⟨result', hresult', hagree⟩ := hagree.of_mapError_left
    exact ⟨result', _, ⟨depth, Prod.ext hresult' rfl⟩, hagree, hafter⟩
  · rintro result' after' ⟨depth, hrun⟩
    obtain ⟨hagree, hafter⟩ := hpaired depth
    rw [hrun] at hagree hafter
    obtain ⟨result, hresult, hagree⟩ := hagree.of_mapError_right
    exact ⟨result, _, ⟨depth, Prod.ext hresult rfl⟩, hagree, hafter⟩

namespace Catalogue

/-- In a block that holds one object twice both appearances are duplicated, as in a block that holds
two objects. -/
theorem dispatch_refines_plainDispatch_block :
    ∃ nodes after, Ends (fun depth => plainDispatch (RuleType.instances duplicating.rules) depth
        (block 9 [statement 7, statement 8])) (duplicatingRun 10) (.ok nodes) after ∧
      nodes.map Tree.outline = [(block 2 (List.replicate 4 (statement 0))).outline] := by
  have halike : Alike (fun state state' => state.1.Same state'.1 ∧ state.2 = state'.2)
      (duplicatingRun 2) (duplicatingRun 10) := ⟨⟨.refl _, rfl⟩, rfl, rfl⟩
  have houtline : sharedBlock.outline = (block 9 [statement 7, statement 8]).outline := rfl
  obtain ⟨nodes, after, hrun, hnodes⟩ := duplicating_run
  obtain ⟨hforth, -⟩ := dispatch_refines_plainDispatch (pipeline_honest "" _)
    (pipeline_blind "" _) sharedBlock_mem houtline sampleHeap_covers halike
  obtain ⟨result, after', hplain, hagree, -⟩ := hforth (.ok nodes) after ⟨2, hrun⟩
  cases hagree with
  | ok hsame => exact ⟨_, after', hplain, hsame.symm.trans hnodes⟩

end Catalogue

end TreeRules
