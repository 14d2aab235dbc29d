import Mathlib
import TreeRules.Proofs.Bookkeeping
import TreeRules.Proofs.CatalogueConduct
import TreeRules.Proofs.Execution

/-!
# Sharing is exact

A survivor stays the very same object exactly when nothing changed below it: when every dispatch
below it left its own node and nothing else in the working list. Otherwise it is copied once, and no
rule ever sees the copy. This needs rules that treat objects as objects; a dishonest rule could make
up a node with the identity of a copy.
-/

namespace TreeRules.Dispatch

variable {σ ε N α : Type}

def Offer.all (offer : Offer N) : List N := offer.node :: offer.nodes

namespace Trace

/-- The nodes that one dispatch was about: its own, the survivors, and all of the working list in
between. -/
def levelNodes (trace : Trace N) : List N :=
  trace.node :: trace.survivors ++ trace.rounds.flatten.flatMap Offer.all

/-- The nodes that a rule was asked about or that a visit returned, and the survivors. -/
def seen (trace : Trace N) : List N := trace.dispatches.flatMap levelNodes

/-- The copies that were made, by the dispatches in which they were made. -/
def copies (trace : Trace N) : List N :=
  trace.dispatches.flatMap fun inner => inner.survivals.filterMap Survival.copy

theorem seen_eq (trace : Trace N) : trace.seen = trace.levelNodes ++
    trace.survivals.flatMap fun survival => survival.children.flatMap seen :=
  flatMap_dispatches _ _

theorem copies_perm (trace : Trace N) : trace.copies.Perm
    (trace.survivals.flatMap fun survival =>
      survival.children.flatMap copies ++ survival.copy.toList) := by
  have hcopies : trace.survivals.filterMap Survival.copy =
      trace.survivals.flatMap fun survival => survival.copy.toList := by
    rw [List.filterMap_eq_flatMap_toList]
  rw [copies, flatMap_dispatches, hcopies]
  exact List.perm_append_comm.trans (List.flatMap_append_perm _ _ _)

end Trace

variable [Host N]

/-- Objects that were made while one heap became the other, and that no rule got to see. -/
structure New (earlier later : Heap N) (copies : List N) : Prop where
  nodup : (copies.map Host.identity).Nodup
  next_le : ∀ copy ∈ copies, earlier.supply.next ≤ Host.identity copy
  lt_next : ∀ copy ∈ copies, Host.identity copy < later.supply.next
  ne_of_mem : ∀ copy ∈ copies, ∀ node ∈ later.objects, Host.identity node ≠ Host.identity copy

namespace New

variable {earlier mid later : Heap N} {copies more : List N}

theorem nil : New earlier later [] :=
  ⟨List.nodup_nil, fun _ h => absurd h List.not_mem_nil, fun _ h => absurd h List.not_mem_nil,
    fun _ h => absurd h List.not_mem_nil⟩

theorem perm (hperm : copies.Perm more) (h : New earlier later copies) :
    New earlier later more where
  nodup := (hperm.map _).nodup_iff.mp h.nodup
  next_le copy hcopy := h.next_le copy (hperm.mem_iff.mpr hcopy)
  lt_next copy hcopy := h.lt_next copy (hperm.mem_iff.mpr hcopy)
  ne_of_mem copy hcopy := h.ne_of_mem copy (hperm.mem_iff.mpr hcopy)

theorem mono (h : New earlier mid copies) (hle : mid ≤ later) : New earlier later copies where
  nodup := h.nodup
  next_le := h.next_le
  lt_next copy hcopy := (h.lt_next copy hcopy).trans_le (Heap.next_le_of_le hle)
  ne_of_mem copy hcopy node hnode := by
    -- An object that came later has an identity that was free, so it is none of the copies.
    rcases Heap.mem_or_next_le hle hnode with hnode | hnext
    · exact h.ne_of_mem copy hcopy node hnode
    · exact (Nat.lt_of_lt_of_le (h.lt_next copy hcopy) hnext).ne'

theorem append (hfirst : earlier ≤ mid) (hsecond : mid ≤ later) (h : New earlier mid copies)
    (h' : New mid later more) : New earlier later (copies ++ more) := by
  have hmono := h.mono hsecond
  refine ⟨?_, ?_, ?_, ?_⟩
  · rw [List.map_append, List.nodup_append]
    refine ⟨h.nodup, h'.nodup, fun i hi j hj => ?_⟩
    obtain ⟨copy, hcopy, rfl⟩ := List.mem_map.mp hi
    obtain ⟨other, hother, rfl⟩ := List.mem_map.mp hj
    exact (Nat.lt_of_lt_of_le (h.lt_next copy hcopy) (h'.next_le other hother)).ne
  · exact List.forall_mem_append.mpr ⟨h.next_le, fun copy hcopy =>
      (Heap.next_le_of_le hfirst).trans (h'.next_le copy hcopy)⟩
  · exact List.forall_mem_append.mpr ⟨hmono.lt_next, h'.lt_next⟩
  · exact List.forall_mem_append.mpr ⟨hmono.ne_of_mem, h'.ne_of_mem⟩

theorem singleton {heap : Heap N} {copy : N} (hidentity : Host.identity copy = heap.supply.next) :
    New heap heap.spend [copy] := by
  refine ⟨List.nodup_singleton _, ?_, ?_, ?_⟩ <;> refine List.forall_mem_singleton.mpr ?_
  · exact hidentity.ge
  · rw [hidentity]
    exact Nat.lt_succ_self _
  · intro node hnode
    rw [hidentity]
    exact (heap.identity_lt hnode).ne

end New

/-- There is a later heap that covers the workspace and holds the nodes, and the copies are new. -/
def Grows (refs : σ → Set N) (heap : Heap N) (workspace : Workspace σ) (nodes copies : List N) :
    Prop :=
  ∃ later, heap ≤ later ∧ later.Covers refs workspace ∧ (∀ node ∈ nodes, node ∈ later.objects) ∧
    New heap later copies

namespace Grows

variable {refs : σ → Set N} {heap : Heap N} {workspace : Workspace σ}

/-- A thread grows a heap when its steps do, each from heaps that hold the node of the step. -/
theorem of_thread {step : Workspace σ → α → Workspace σ → Prop} {node : α → N}
    {nodes copies : α → List N}
    (hstep : ∀ {v item w}, step v item w → ∀ heap : Heap N, node item ∈ heap.objects →
      heap.Covers refs v → Grows refs heap w (nodes item) (copies item))
    {start finish : Workspace σ} {items : List α} (h : Thread step start items finish)
    {heap : Heap N} (hitems : ∀ item ∈ items, node item ∈ heap.objects)
    (hcovers : heap.Covers refs start) :
    Grows refs heap finish (items.flatMap nodes) (items.flatMap copies) := by
  induction h generalizing heap with
  | nil => exact ⟨heap, le_rfl, hcovers, fun _ h => absurd h List.not_mem_nil, .nil⟩
  | cons hfirst _ ih =>
      obtain ⟨hhead, htail⟩ := List.forall_mem_cons.mp hitems
      obtain ⟨mid, hmid, hcoversMid, hnodes, hnew⟩ := hstep hfirst heap hhead hcovers
      obtain ⟨later, hlater, hcoversLater, hothers, hnewer⟩ :=
        ih (fun item hitem => Heap.mem_of_le hmid (htail item hitem)) hcoversMid
      refine ⟨later, hmid.trans hlater, hcoversLater, ?_, hnew.append hmid hlater hnewer⟩
      exact List.forall_mem_append.mpr
        ⟨fun node hnode => Heap.mem_of_le hlater (hnodes node hnode), hothers⟩

end Grows

section Honest

variable {refs : σ → Set N} {rules : List (Rule σ ε N)} {start finish : Workspace σ} {heap : Heap N}

theorem Answers.grows {rule : Rule σ ε N} (honest : rule.Honest refs) {offer : Offer N}
    (h : Answers rule start offer finish) (hnode : offer.node ∈ heap.objects)
    (hcovers : heap.Covers refs start) : Grows refs heap finish offer.all [] := by
  obtain ⟨later, hlater, hcoversLater, hnodes⟩ := honest.ask hnode start hcovers
  rw [h] at hcoversLater hnodes
  refine ⟨later, hlater, hcoversLater, ?_, .nil⟩
  exact List.forall_mem_cons.mpr ⟨Heap.mem_of_le hlater hnode, hnodes offer.replacement rfl⟩

theorem Rounds.grows (honest : ∀ rule ∈ rules, rule.Honest refs) {rounds : List (List (Offer N))}
    (h : Rounds rules start rounds finish) {nodes survivors : List N}
    (hrelay : Relay nodes rounds survivors) (hnodes : ∀ node ∈ nodes, node ∈ heap.objects)
    (hcovers : heap.Covers refs start) :
    Grows refs heap finish (survivors ++ rounds.flatten.flatMap Offer.all) [] := by
  induction h generalizing nodes heap with
  | nil =>
      cases hrelay
      refine ⟨heap, le_rfl, hcovers, ?_, .nil⟩
      simpa using hnodes
  | @cons rule rules start next finish offers rounds hround _ ih =>
      obtain ⟨hrule, hrules⟩ := List.forall_mem_cons.mp honest
      cases hrelay with
      | cons hrelay =>
          have hoffered : ∀ offer ∈ offers, offer.node ∈ heap.objects :=
            fun offer hoffer => hnodes _ (List.mem_map_of_mem hoffer)
          obtain ⟨mid, hmid, hcoversMid, hoffers, _⟩ :=
            Grows.of_thread (fun h _ => h.grows hrule) hround hoffered hcovers
          have hpassed : ∀ node ∈ offers.flatMap Offer.nodes, node ∈ mid.objects := by
            intro node hnode
            obtain ⟨offer, hoffer, hnode⟩ := List.mem_flatMap.mp hnode
            exact hoffers node (List.mem_flatMap.mpr ⟨offer, hoffer, List.mem_cons_of_mem _ hnode⟩)
          obtain ⟨later, hlater, hcoversLater, hrest, _⟩ := ih hrules hrelay hpassed hcoversMid
          refine ⟨later, hmid.trans hlater, hcoversLater, ?_, .nil⟩
          obtain ⟨hsurvivors, hrounds⟩ := List.forall_mem_append.mp hrest
          rw [List.flatten_cons, List.flatMap_append]
          exact List.forall_mem_append.mpr ⟨hsurvivors, List.forall_mem_append.mpr
            ⟨fun node hnode => Heap.mem_of_le hlater (hoffers node hnode), hrounds⟩⟩

theorem mem_of_map_node_eq {children : List (Trace N)} {node : N}
    (hnodes : children.map Trace.node = Host.children node) (hnode : node ∈ heap.objects) :
    ∀ child ∈ children, child.node ∈ heap.objects := by
  intro child hchild
  refine heap.children_mem hnode child.node ?_
  rw [← hnodes]
  exact List.mem_map_of_mem hchild

/-- Over honest rules, all nodes that were seen exist in the end, and copies are new. -/
theorem Follows.grows (honest : ∀ rule ∈ rules, rule.Honest refs) {trace : Trace N}
    (h : Follows rules start trace finish) (hnode : trace.node ∈ heap.objects)
    (hcovers : heap.Covers refs start) : Grows refs heap finish trace.seen trace.copies := by
  refine Follows.induction
    (P := fun start trace finish => ∀ heap : Heap N, trace.node ∈ heap.objects →
      heap.Covers refs start → Grows refs heap finish trace.seen trace.copies)
    (Q := fun start survival finish => ∀ heap : Heap N, survival.node ∈ heap.objects →
      heap.Covers refs start → Grows refs heap finish (survival.children.flatMap Trace.seen)
        (survival.children.flatMap Trace.copies ++ survival.copy.toList))
    ?_ ?_ ?_ h heap hnode hcovers
  · intro start next finish node rounds survivals hrelay hrounds hsurvivals heap hnode hcovers
    obtain ⟨mid, hmid, hcoversMid, hlevel, _⟩ :=
      hrounds.grows honest hrelay (List.forall_mem_singleton.mpr hnode) hcovers
    obtain ⟨hsurvivors, hoffers⟩ := List.forall_mem_append.mp hlevel
    have hstart : ∀ survival ∈ survivals, survival.node ∈ mid.objects :=
      fun survival hsurvival => hsurvivors _ (List.mem_map_of_mem hsurvival)
    obtain ⟨later, hlater, hcoversLater, hbelow, hnew⟩ :=
      Grows.of_thread (fun h => h.2) hsurvivals hstart hcoversMid
    refine ⟨later, hmid.trans hlater, hcoversLater, ?_, ?_⟩
    · rw [Trace.seen_eq]
      refine List.forall_mem_append.mpr ⟨?_, hbelow⟩
      refine List.forall_mem_append.mpr ⟨List.forall_mem_cons.mpr ⟨?_, ?_⟩, ?_⟩
      · exact Heap.mem_of_le (hmid.trans hlater) hnode
      · exact fun node hnode => Heap.mem_of_le hlater (hsurvivors node hnode)
      · exact fun node hnode => Heap.mem_of_le hlater (hoffers node hnode)
    · exact (New.append hmid hlater .nil hnew).perm (Trace.copies_perm _).symm
  · intro start finish node children hnodes hchildren _ heap hnode hcovers
    obtain ⟨later, hlater, hcoversLater, hseen, hnew⟩ :=
      Grows.of_thread (fun h => h.2) hchildren (mem_of_map_node_eq hnodes hnode) hcovers
    refine ⟨later, hlater, hcoversLater, hseen, ?_⟩
    rw [Survival.copy_survival, Option.toList_none, List.append_nil]
    exact hnew
  · intro start finish node children hnodes hchildren _ heap hnode hcovers
    obtain ⟨later, hlater, hcoversLater, hseen, hnew⟩ :=
      Grows.of_thread (fun h => h.2) hchildren (mem_of_map_node_eq hnodes hnode) hcovers
    have hsupply : finish.supply = later.supply := hcoversLater.supply_eq
    refine ⟨later.spend, hlater.trans later.le_spend, ⟨?_, hcoversLater.refs_subset⟩, hseen, ?_⟩
    · exact congrArg (fun supply : Supply => Supply.mk (supply.next + 1)) hsupply
    · refine New.append hlater later.le_spend hnew (.singleton ?_)
      rw [Host.identity_withChildren, hsupply]

end Honest

/-- Nothing changed in the dispatch, nor in any below it: each left exactly its own node. -/
def Trace.Quiet (trace : Trace N) : Prop :=
  ∀ inner ∈ trace.dispatches, inner.survivors = [inner.node]

def Survival.Quiet (survival : Survival N) : Prop := ∀ child ∈ survival.children, child.Quiet

omit [Host N] in
theorem Trace.quiet_iff {trace : Trace N} : trace.Quiet ↔
    trace.survivors = [trace.node] ∧ ∀ survival ∈ trace.survivals, survival.Quiet :=
  Trace.forall_mem_dispatches_iff

/-- What is known of a dispatch in the end: its nodes are among the objects of the heap, and its
copies are none of them. -/
structure Trace.Settled (heap : Heap N) (count : Nat) (trace : Trace N) : Prop where
  orderly : trace.Orderly count
  node_mem : trace.node ∈ heap.objects
  survivor_mem : ∀ survival ∈ trace.survivals, survival.node ∈ heap.objects
  ne_of_copy : ∀ survival ∈ trace.survivals, ∀ copy ∈ survival.copy, ∀ node ∈ heap.objects,
    Host.identity node ≠ Host.identity copy

section Settled

variable {heap later : Heap N} {count : Nat} {trace : Trace N}

theorem Trace.settled (horderly : ∀ inner ∈ trace.dispatches, inner.Orderly count)
    (hseen : ∀ node ∈ trace.seen, node ∈ later.objects) (hnew : New heap later trace.copies) :
    ∀ inner ∈ trace.dispatches, inner.Settled later count := by
  intro inner hinner
  have hlevel : ∀ node ∈ inner.levelNodes, node ∈ later.objects :=
    fun node hnode => hseen node (List.mem_flatMap.mpr ⟨inner, hinner, hnode⟩)
  obtain ⟨hnodes, -⟩ := List.forall_mem_append.mp hlevel
  obtain ⟨hnode, hsurvivors⟩ := List.forall_mem_cons.mp hnodes
  refine ⟨horderly inner hinner, hnode, fun survival hsurvival => ?_,
    fun survival hsurvival copy hcopy => ?_⟩
  · exact hsurvivors _ (List.mem_map_of_mem hsurvival)
  · refine hnew.ne_of_mem copy (List.mem_flatMap.mpr ⟨inner, hinner, ?_⟩)
    exact List.mem_filterMap.mpr ⟨survival, hsurvival, hcopy⟩

theorem Follows.exists_settled {refs : σ → Set N} {rules : List (Rule σ ε N)}
    (honest : ∀ rule ∈ rules, rule.Honest refs) {start finish : Workspace σ}
    (h : Follows rules start trace finish) (hnode : trace.node ∈ heap.objects)
    (hcovers : heap.Covers refs start) :
    ∃ later : Heap N, ∀ inner ∈ trace.dispatches, inner.Settled later rules.length := by
  obtain ⟨later, _, _, hseen, hnew⟩ := h.grows honest hnode hcovers
  exact ⟨later, Trace.settled h.orderly hseen hnew⟩

theorem Trace.Settled.sameObject_iff (h : trace.Settled heap count) {survival : Survival N}
    (hsurvival : survival ∈ trace.survivals) :
    Host.sameObject survival.output survival.node = true ↔ survival.copy = none := by
  have hne := h.ne_of_copy survival hsurvival
  obtain ⟨node, children, _ | copy⟩ := survival
  · exact ⟨fun _ => rfl, fun _ => beq_self_eq_true _⟩
  · refine ⟨fun hsame => ?_, nofun⟩
    exact absurd (beq_iff_eq.mp hsame).symm (hne copy rfl node (h.survivor_mem _ hsurvival))

theorem Trace.Settled.isUntouched_iff (h : trace.Settled heap count) : trace.IsUntouched ↔
    trace.survivors = [trace.node] ∧ ∀ survival ∈ trace.survivals, survival.copy = none := by
  obtain ⟨node, rounds, survivals⟩ := trace
  constructor
  · intro huntouched
    match survivals, h, huntouched with
    | [survival], h, huntouched =>
        have hmem : survival ∈ [survival] := List.mem_singleton_self _
        have hidentity : Host.identity survival.output = Host.identity node :=
          beq_iff_eq.mp huntouched
        rcases hcopy : survival.copy with _ | copy
        · rw [Survival.output, hcopy, Option.getD_none] at hidentity
          have hnode : survival.node = node :=
            heap.eq_of_identity_eq (h.survivor_mem survival hmem) h.node_mem hidentity
          exact ⟨congrArg (fun node => [node]) hnode, List.forall_mem_singleton.mpr hcopy⟩
        · rw [Survival.output, hcopy, Option.getD_some] at hidentity
          exact absurd hidentity.symm (h.ne_of_copy survival hmem copy hcopy node h.node_mem)
  · rintro ⟨hsurvivors, hcopies⟩
    obtain ⟨survival, hsurvivals, hnode⟩ := List.map_eq_singleton_iff.mp hsurvivors
    obtain rfl : survivals = [survival] := hsurvivals
    have hcopy : survival.copy = none := hcopies survival (List.mem_singleton_self _)
    have houtput : survival.output = node := by rw [Survival.output, hcopy]; exact hnode
    change Host.sameObject survival.output node = true
    rw [houtput]
    exact beq_self_eq_true _

/-- **Untouched means quiet.** -/
theorem Trace.isUntouched_iff_quiet (h : ∀ inner ∈ trace.dispatches, inner.Settled heap count) :
    trace.IsUntouched ↔ trace.Quiet := by
  induction trace using Trace.inductionOn with
  | dispatch node rounds survivals ih =>
      obtain ⟨hself, hinner⟩ := Trace.forall_mem_dispatches_iff.mp h
      rw [hself.isUntouched_iff, Trace.quiet_iff]
      refine and_congr_right fun _ => forall₂_congr fun survival hsurvival => ?_
      rw [hself.orderly.copy_eq_none_iff survival hsurvival]
      exact forall₂_congr fun child hchild =>
        ih survival hsurvival child hchild (hinner survival hsurvival child hchild)

theorem Trace.Settled.outputs_eq (h : trace.Settled heap count) (huntouched : trace.IsUntouched) :
    trace.outputs = [trace.node] := by
  obtain ⟨hsurvivors, hcopies⟩ := h.isUntouched_iff.mp huntouched
  rw [← hsurvivors]
  refine List.map_congr_left fun survival hsurvival => ?_
  rw [Survival.output, hcopies survival hsurvival, Option.getD_none]

theorem Trace.copies_eq_nil (h : ∀ inner ∈ trace.dispatches, inner.Settled heap count)
    (hquiet : trace.Quiet) : trace.copies = [] := by
  induction trace using Trace.inductionOn with
  | dispatch node rounds survivals ih =>
      obtain ⟨hself, hinner⟩ := Trace.forall_mem_dispatches_iff.mp h
      obtain ⟨-, hcopies⟩ := hself.isUntouched_iff.mp ((Trace.isUntouched_iff_quiet h).mpr hquiet)
      obtain ⟨-, hbelow⟩ := Trace.quiet_iff.mp hquiet
      refine List.Perm.eq_nil ?_
      refine (Trace.copies_perm _).trans (List.Perm.of_eq (List.flatMap_eq_nil_iff.mpr ?_))
      intro survival hsurvival
      rw [hcopies survival hsurvival, Option.toList_none, List.append_nil]
      exact List.flatMap_eq_nil_iff.mpr fun child hchild =>
        ih survival hsurvival child hchild (hinner survival hsurvival child hchild)
          (hbelow survival hsurvival child hchild)

theorem Trace.Settled.children_output [Host.Faithful N] (h : trace.Settled heap count)
    (hbelow : ∀ survival ∈ trace.survivals, ∀ child ∈ survival.children, child.Settled heap count)
    {survival : Survival N} (hsurvival : survival ∈ trace.survivals) :
    Host.children survival.output = survival.children.flatMap Trace.outputs := by
  rcases hcopy : survival.copy with _ | copy
  · have huntouched := (h.orderly.copy_eq_none_iff survival hsurvival).mp hcopy
    have houtputs : survival.children.flatMap Trace.outputs =
        survival.children.flatMap fun child => [child.node] := by
      refine List.flatMap_congr fun child hchild => ?_
      exact (hbelow survival hsurvival child hchild).outputs_eq (huntouched child hchild)
    rw [Survival.output, hcopy, Option.getD_none, houtputs,
      ← h.orderly.children_eq survival hsurvival]
    exact (List.flatMap_pure_eq_map _ _).symm
  · rw [Survival.output, hcopy, Option.getD_some,
      h.orderly.eq_of_copy survival hsurvival copy hcopy]
    exact Host.Faithful.children_withChildren _ _ _

end Settled

end TreeRules.Dispatch

namespace TreeRules

variable {σ ε N : Type} [Host N]

/-- The nodes of the subtree in preorder, one for every appearance. -/
def Host.preorder (node : N) : List N :=
  node :: (Host.children node).attach.flatMap fun child => preorder child.1
termination_by node
decreasing_by exact child.2

theorem Host.preorder_eq (node : N) :
    preorder node = node :: (Host.children node).flatMap preorder := by
  rw [preorder, List.flatMap_def, List.attach_map_val (f := preorder), List.flatMap_def]

theorem Host.length_preorder (node : N) : (preorder node).length = subtreeSize node := by
  induction node using (Host.wellFounded (N := N)).induction with
  | _ node ih =>
      rw [preorder_eq, subtreeSize_eq, List.length_cons, List.length_flatMap,
        List.map_congr_left ih, total_eq_sum, Nat.add_comm]

namespace Dispatch

/-- No offer changed anything: every rule left the node alone or returned that very object. -/
def Trace.Idle (trace : Trace N) : Prop :=
  ∀ inner ∈ trace.dispatches, ∀ offers ∈ inner.rounds, ∀ offer ∈ offers, offer.nodes = [offer.node]

omit [Host N] in
theorem Relay.of_idle {nodes survivors : List N} {rounds : List (List (Offer N))}
    (h : Relay nodes rounds survivors)
    (hidle : ∀ offers ∈ rounds, ∀ offer ∈ offers, offer.nodes = [offer.node]) :
    survivors = nodes ∧ ∀ offers ∈ rounds, offers.map Offer.node = nodes := by
  induction h with
  | nil => exact ⟨rfl, fun _ hmem => absurd hmem List.not_mem_nil⟩
  | @cons offers rounds survivors _ ih =>
      obtain ⟨hfirst, hrest⟩ := List.forall_mem_cons.mp hidle
      have hsame : offers.flatMap Offer.nodes = offers.map Offer.node := by
        rw [← List.flatMap_pure_eq_map]
        exact List.flatMap_congr hfirst
      rw [hsame] at ih
      obtain ⟨hsurvivors, hrounds⟩ := ih hrest
      exact ⟨hsurvivors, List.forall_mem_cons.mpr ⟨rfl, hrounds⟩⟩

section Idle

variable {trace : Trace N} {count : Nat} (h : ∀ inner ∈ trace.dispatches, inner.Orderly count)

include h

theorem Trace.Idle.quiet (hidle : trace.Idle) : trace.Quiet := fun inner hinner =>
  ((h inner hinner).relay.of_idle (hidle inner hinner)).1

theorem Trace.map_node_dispatches (hquiet : trace.Quiet) :
    trace.dispatches.map Trace.node = Host.preorder trace.node := by
  induction trace using Trace.inductionOn with
  | dispatch node rounds survivals ih =>
      obtain ⟨hself, hinner⟩ := Trace.forall_mem_dispatches_iff.mp h
      obtain ⟨hsurvivors, hbelow⟩ := Trace.quiet_iff.mp hquiet
      obtain ⟨survival, hsurvivals, hnode⟩ := List.map_eq_singleton_iff.mp hsurvivors
      obtain rfl : survivals = [survival] := hsurvivals
      have hmem : survival ∈ [survival] := List.mem_singleton_self _
      have hchildren : survival.children.map Trace.node = Host.children node := by
        rw [hself.children_eq survival hmem, hnode]
        rfl
      rw [Trace.dispatches_eq, Host.preorder_eq, List.map_cons, Trace.survivals_dispatch,
        List.flatMap_singleton, List.map_flatMap, Trace.node_dispatch, ← hchildren,
        List.flatMap_map]
      refine congrArg _ (List.flatMap_congr fun child hchild => ?_)
      exact ih survival hmem child hchild (hinner survival hmem child hchild)
        (hbelow survival hmem child hchild)

theorem Trace.Idle.map_node_offersOf (hidle : trace.Idle) {place : Nat} (hplace : place < count) :
    (trace.offersOf place).map Offer.node = Host.preorder trace.node := by
  rw [← Trace.map_node_dispatches h (hidle.quiet h), Trace.offersOf, List.map_flatMap,
    ← List.flatMap_pure_eq_map]
  refine List.flatMap_congr fun inner hinner => ?_
  have hround := List.mem_of_getElem? (Trace.getElem?_rounds h hplace hinner)
  exact ((h inner hinner).relay.of_idle (hidle inner hinner)).2 _ hround

end Idle

/-- A run shares exactly what did not change. -/
structure Trace.SharesExactly (heap later : Heap N) (trace : Trace N) : Prop where
  same_iff : ∀ inner ∈ trace.dispatches, ∀ survival ∈ inner.survivals,
    Host.sameObject survival.output survival.node = true ↔ survival.Quiet
  of_quiet : ∀ inner ∈ trace.dispatches, ∀ survival ∈ inner.survivals, survival.Quiet →
    survival.output = survival.node ∧ survival.copy = none ∧
      ∀ child ∈ survival.children, child.copies = []
  of_not_quiet : ∀ inner ∈ trace.dispatches, ∀ survival ∈ inner.survivals, ¬ survival.Quiet →
    ∃ copy, survival.copy = some copy ∧ survival.output = copy ∧
      copy = Host.withChildren (Host.identity copy) (survival.children.flatMap Trace.outputs)
        survival.node
  new_copies : New heap later trace.copies
  seen_mem : ∀ node ∈ trace.seen, node ∈ later.objects

theorem Trace.sharesExactly {heap later : Heap N} {trace : Trace N} {count : Nat}
    (horderly : ∀ inner ∈ trace.dispatches, inner.Orderly count)
    (hseen : ∀ node ∈ trace.seen, node ∈ later.objects) (hnew : New heap later trace.copies) :
    trace.SharesExactly heap later := by
  have hsettled := Trace.settled horderly hseen hnew
  have hbelow {inner child : Trace N} {survival : Survival N} (hinner : inner ∈ trace.dispatches)
      (hsurvival : survival ∈ inner.survivals) (hchild : child ∈ survival.children) :
      ∀ deeper ∈ child.dispatches, deeper.Settled later count := fun deeper hdeeper =>
    hsettled deeper (Trace.mem_dispatches_trans hinner
      (Trace.mem_dispatches_of_below hsurvival hchild hdeeper))
  have hcopy {inner : Trace N} {survival : Survival N} (hinner : inner ∈ trace.dispatches)
      (hsurvival : survival ∈ inner.survivals) : survival.copy = none ↔ survival.Quiet := by
    rw [(horderly inner hinner).copy_eq_none_iff survival hsurvival]
    exact forall₂_congr fun child hchild =>
      Trace.isUntouched_iff_quiet (hbelow hinner hsurvival hchild)
  refine ⟨?_, ?_, ?_, hnew, hseen⟩ <;> intro inner hinner survival hsurvival
  · rw [(hsettled inner hinner).sameObject_iff hsurvival]
    exact hcopy hinner hsurvival
  · intro hquiet
    have hnone := (hcopy hinner hsurvival).mpr hquiet
    refine ⟨by rw [Survival.output, hnone, Option.getD_none], hnone, fun child hchild => ?_⟩
    exact Trace.copies_eq_nil (hbelow hinner hsurvival hchild) (hquiet child hchild)
  · intro hquiet
    obtain ⟨copy, hsome⟩ := Option.ne_none_iff_exists'.mp (mt (hcopy hinner hsurvival).mp hquiet)
    refine ⟨copy, hsome, by rw [Survival.output, hsome, Option.getD_some], ?_⟩
    exact (horderly inner hinner).eq_of_copy survival hsurvival copy hsome

/-- **Sharing is exact.** If moreover no visit returned anything but the visited object then the run
gives the root itself, and every rule is offered the nodes below it in preorder. -/
theorem dispatch_sharesExactly {refs : σ → Set N} {rules : List (Rule σ ε N)}
    (honest : ∀ rule ∈ rules, rule.Honest refs) {heap : Heap N} {root : N}
    (hroot : root ∈ heap.objects) {run after : Run σ} (hcovers : heap.Covers refs run.workspace)
    {depth : Nat} {nodes : List N} (h : (dispatch rules depth root).run run = (.ok nodes, after)) :
    ∃ trace later, trace.node = root ∧ trace.outputs = nodes ∧ Leaves rules run trace after ∧
      heap ≤ later ∧ later.Covers refs after.workspace ∧ trace.SharesExactly heap later ∧
      (trace.Idle → nodes = [root] ∧
        after.statistics.dispatched = run.statistics.dispatched + Host.subtreeSize root ∧
        ∀ place < rules.length, (trace.offersOf place).map Offer.node = Host.preorder root) := by
  obtain ⟨trace, rfl, rfl, hleaves⟩ := dispatch_ok h
  have horderly := hleaves.follows.orderly
  obtain ⟨later, hlater, hcoversLater, hseen, hnew⟩ := hleaves.follows.grows honest hroot hcovers
  refine ⟨trace, later, rfl, rfl, hleaves, hlater, hcoversLater,
    Trace.sharesExactly horderly hseen hnew, fun hidle => ⟨?_, ?_, fun place hplace => ?_⟩⟩
  · have hsettled := Trace.settled horderly hseen hnew
    refine (hsettled trace trace.mem_dispatches_self).outputs_eq ?_
    exact (Trace.isUntouched_iff_quiet hsettled).mpr (hidle.quiet horderly)
  · have hlength := congrArg List.length (Trace.map_node_dispatches horderly (hidle.quiet horderly))
    rw [List.length_map, Host.length_preorder] at hlength
    rw [hleaves.dispatched_eq, hlength]
  · exact hidle.map_node_offersOf horderly hplace

end Dispatch

namespace Catalogue

open Dispatch

/-- In the run that duplicates both appearances of a statement, the block is copied, and the
statements are not. -/
theorem dispatch_sharesExactly_block : ∃ (trace : Trace Node) (later : Heap Node)
    (nodes : List Node) (after : Run _),
    (dispatch (RuleType.instances duplicating.rules) 2 sharedBlock).run (duplicatingRun 2) =
      (.ok nodes, after) ∧
    trace.node = sharedBlock ∧ trace.outputs = nodes ∧ trace.SharesExactly sampleHeap later := by
  obtain ⟨nodes, after, hrun, -⟩ := duplicating_run
  obtain ⟨trace, later, hnode, houtputs, -, -, -, hshares, -⟩ :=
    dispatch_sharesExactly (pipeline_honest "" _) sharedBlock_mem sampleHeap_covers hrun
  exact ⟨trace, later, nodes, after, hrun, hnode, houtputs, hshares⟩

end Catalogue

end TreeRules
