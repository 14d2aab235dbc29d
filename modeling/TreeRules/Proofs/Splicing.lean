import TreeRules.Proofs.Multiplicity

/-!
# Splicing

A rule may delete a node, or splice foreign trees in before and behind it. Over such rules the
working list of a node of the root holds, besides foreign trees, this very node or nothing, and below
a foreign tree there are foreign nodes only. So nothing of the root is dispatched twice, and what is
left of it stands in the result in its order, under the images of the nodes it stood under.
-/

namespace TreeRules

open Dispatch

variable {σ τ ε N : Type}

theorem Tree.forall_mem_objects {α : Type} [Relabel α] {heap : Heap (Tree α)} {tree : Tree α}
    (h : tree ∈ heap.objects) : ∀ node ∈ tree.preorder, node ∈ heap.objects := by
  induction tree using Tree.inductionOn with
  | step tree ih =>
      rw [Tree.preorder_eq]
      refine List.forall_mem_cons.mpr ⟨h, fun node hnode => ?_⟩
      obtain ⟨child, hchild, hnode⟩ := List.mem_flatMap.mp hnode
      exact ih child hchild (heap.children_mem h child hchild) node hnode

namespace Appearance

variable {α : Type} (cut : Tree α → Bool)

/-- Neither the node nor any node above it is cut off. -/
def escapes (x : Appearance α) : Bool := x.path.all fun node => !cut node

@[simp]
theorem escapes_root (tree : Tree α) : escapes cut ⟨[], tree⟩ = !cut tree := by
  simp [escapes, path]

@[simp]
theorem escapes_under (tree : Tree α) (x : Appearance α) :
    (x.under tree).escapes cut = (!cut tree && x.escapes cut) := by
  simp [escapes]

/-- One appearance has the image in the place of the other, under the images of all nodes above it,
so its parent is the image of the other's parent. -/
structure Mirrors (image : Tree α → Tree α → Prop) (x y : Appearance α) : Prop where
  node : image x.node y.node
  above : List.Forall₂ image x.above y.above

theorem Mirrors.under {image : Tree α → Tree α → Prop} {x y : Appearance α} {old new : Tree α}
    (h : x.Mirrors image y) (hpair : image old new) : (x.under old).Mirrors image (y.under new) :=
  ⟨h.node, .cons hpair h.above⟩

theorem Mirrors.labels_eq {image : Tree α → Tree α → Prop} {x y : Appearance α}
    (h : x.Mirrors image y) (himage : ∀ old new, image old new → new.label = old.label) :
    y.labels = x.labels := by
  have habove : x.above.map Tree.label = y.above.map Tree.label := by
    rw [← List.forall₂_eq_eq_eq, List.forall₂_map_left_iff, List.forall₂_map_right_iff]
    exact h.above.imp fun old new hpair => (himage old new hpair).symm
  rw [labels, labels, path, path, List.map_append, List.map_append, habove, List.map_singleton,
    List.map_singleton, himage _ _ h.node]

section Kept

variable {cut} {shown : α → Bool} {image : Tree α → Tree α → Prop} {old new : Tree α}

theorem filter_escapes_of_cut (h : cut old = true) :
    (old.appearances.filter fun x => x.escapes cut && shown x.node.label) = [] := by
  rw [Tree.appearances_eq, List.filter_cons, List.filter_map]
  simp [Function.comp_def, h]

/-- A node that is not cut off is mirrored by its image, if what stands below it is. -/
theorem forall₂_mirrors_of_children (hcut : cut old = false) (hpair : image old new)
    (hlabel : new.label = old.label)
    (hbelow : List.Forall₂ (Mirrors image)
      ((old.children.flatMap Tree.appearances).filter fun x => x.escapes cut && shown x.node.label)
      ((new.children.flatMap Tree.appearances).filter fun y => shown y.node.label)) :
    List.Forall₂ (Mirrors image)
      (old.appearances.filter fun x => x.escapes cut && shown x.node.label)
      (new.appearances.filter fun y => shown y.node.label) := by
  have hunder : List.Forall₂ (Mirrors image)
      (((old.children.flatMap Tree.appearances).map (.under old)).filter
        fun x => x.escapes cut && shown x.node.label)
      (((new.children.flatMap Tree.appearances).map (.under new)).filter
        fun y => shown y.node.label) := by
    rw [List.filter_map, List.filter_map, List.forall₂_map_left_iff, List.forall₂_map_right_iff]
    simp only [Function.comp_def, escapes_under, node_under, hcut, Bool.not_false, Bool.true_and]
    exact hbelow.imp fun _ _ h => h.under hpair
  rw [Tree.appearances_eq, Tree.appearances_eq new, List.filter_cons, List.filter_cons,
    escapes_root, hcut, hlabel, Bool.not_false, Bool.true_and]
  split
  · exact .cons ⟨hpair, .nil⟩ hunder
  · exact hunder

end Kept

end Appearance

namespace Node

/-- The texts in preorder, of the nodes that have one. -/
def texts (node : Node) : List String := node.preorder.filterMap text

/-- The tree shares nothing with the root: neither a node nor a text. -/
def ForeignTo (node root : Node) : Prop :=
  ∀ below ∈ node.preorder, below ∉ root.preorder ∧ ∀ text ∈ Node.text below, text ∉ root.texts

/-- The label carries a text of the root. -/
def knows (root : Node) (label : Label) : Bool := label.text.any fun text => text ∈ root.texts

theorem knows_of_mem {node root : Node} (h : node ∈ root.preorder) :
    root.knows node.label = node.text.isSome := by
  rw [knows, Node.text]
  rcases htext : node.label.text with _ | text
  · rfl
  · exact decide_eq_true (List.mem_filterMap.mpr ⟨node, h, htext⟩)

theorem filter_filterMap_text (root : Node) (nodes : List Node) :
    (nodes.filterMap text).filter (· ∈ root.texts) =
      (nodes.filter fun node => root.knows node.label).filterMap text := by
  rw [List.filter_filterMap, List.filterMap_filter]
  refine List.filterMap_congr fun node _ => ?_
  rw [knows, text]
  rcases node.label.text with _ | text
  · rfl
  · simp [Option.filter]

theorem filterMap_text_flatMap_preorder (nodes : List Node) :
    (nodes.flatMap Tree.preorder).filterMap text =
      ((nodes.map Tree.outline).flatMap Outline.labels).filterMap Label.text := by
  have hlabels : (nodes.flatMap Tree.preorder).map Tree.label =
      (nodes.map Tree.outline).flatMap Outline.labels := by
    rw [List.map_flatMap, List.flatMap_map]
    exact List.flatMap_congr fun node _ => node.map_label_preorder
  rw [← hlabels, List.filterMap_map]
  rfl

/-- The list holds the node, and besides it only trees that are foreign to the root. -/
def Amid (node root : Node) (nodes : List Node) : Prop :=
  ∃ before after, nodes = before ++ node :: after ∧ ∀ other ∈ before ++ after, other.ForeignTo root

variable {node root : Node} {nodes : List Node}

theorem ForeignTo.of_child (h : node.ForeignTo root) :
    ∀ child ∈ node.children, ForeignTo child root :=
  fun _ hchild below hbelow => h below (Tree.preorder_subset_of_mem_children hchild hbelow)

theorem ForeignTo.not_mem (h : node.ForeignTo root) : node ∉ root.preorder :=
  (h node node.mem_preorder_self).1

theorem ForeignTo.knows_eq_false (h : node.ForeignTo root) : root.knows node.label = false := by
  rw [knows, Option.any_eq_false]
  exact fun text htext => decide_eq_false ((h node node.mem_preorder_self).2 text htext)

theorem Amid.singleton (node root : Node) : node.Amid root [node] :=
  ⟨[], [], rfl, fun _ h => absurd h List.not_mem_nil⟩

theorem Amid.foreign (h : node.Amid root nodes) (hnode : node.ForeignTo root) :
    ∀ other ∈ nodes, ForeignTo other root := by
  obtain ⟨before, after, rfl, hrest⟩ := h
  obtain ⟨hbefore, hafter⟩ := List.forall_mem_append.mp hrest
  exact List.forall_mem_append.mpr ⟨hbefore, List.forall_mem_cons.mpr ⟨hnode, hafter⟩⟩

/-- What is read off the items, but nothing off the foreign ones, is read off one of them. -/
theorem Amid.exists_flatMap_eq {β γ : Type} {top : β → Node} {items : List β} {f : β → List γ}
    (h : node.Amid root (items.map top))
    (hf : ∀ item ∈ items, (top item).ForeignTo root → f item = []) :
    ∃ item ∈ items, top item = node ∧ items.flatMap f = f item := by
  obtain ⟨before, after, hitems, hforeign⟩ := h
  obtain ⟨first, rest, rfl, rfl, hrest⟩ := List.map_eq_append_iff.mp hitems
  obtain ⟨item, last, rfl, rfl, rfl⟩ := List.map_eq_cons_iff.mp hrest
  rw [← List.map_append, List.forall_mem_map] at hforeign
  obtain ⟨hfirst, hlast⟩ := List.forall_mem_append.mp hforeign
  have hmem : item ∈ first ++ item :: last := List.mem_append_right _ List.mem_cons_self
  have hfirstNil : first.flatMap f = [] := List.flatMap_eq_nil_iff.mpr fun other hother =>
    hf other (List.mem_append_left _ hother) (hfirst other hother)
  have hlastNil : last.flatMap f = [] := List.flatMap_eq_nil_iff.mpr fun other hother =>
    hf other (List.mem_append_right _ (List.mem_cons_of_mem _ hother)) (hlast other hother)
  refine ⟨item, hmem, rfl, ?_⟩
  rw [List.flatMap_append, List.flatMap_cons, hfirstNil, hlastNil, List.append_nil, List.nil_append]

/-- The list may grow by foreign trees at both ends. -/
theorem Amid.extend {before after : List Node} (h : node.Amid root nodes)
    (hbefore : ∀ other ∈ before, other.ForeignTo root)
    (hafter : ∀ other ∈ after, other.ForeignTo root) :
    node.Amid root (before ++ nodes ++ after) := by
  obtain ⟨first, last, rfl, hrest⟩ := h
  obtain ⟨hfirst, hlast⟩ := List.forall_mem_append.mp hrest
  refine ⟨before ++ first, last ++ after, by simp, ?_⟩
  exact List.forall_mem_append.mpr
    ⟨List.forall_mem_append.mpr ⟨hbefore, hfirst⟩, List.forall_mem_append.mpr ⟨hlast, hafter⟩⟩

end Node

namespace Dispatch

/-- The node, if a visit left nothing in its place. -/
def Offer.dropped? : Offer N → Option N
  | ⟨node, some []⟩ => some node
  | _ => none

/-- If the offer was taken, the node was deleted, or foreign trees were put around it. -/
def Offer.Splices (root : Node) (offer : Offer Node) : Prop :=
  ∀ nodes ∈ offer.replacement, nodes = [] ∨ offer.node.Amid root nodes

/-- The nodes that were deleted in one dispatch, by whichever rule. -/
def Trace.levelDropped (trace : Trace N) : List N := trace.rounds.flatten.filterMap Offer.dropped?

/-- All nodes for which a visit emitted nothing. -/
def Trace.dropped (trace : Trace N) : List N := trace.dispatches.flatMap levelDropped

/-- A visit emitted nothing for this object. -/
def Trace.drops (trace : Trace Node) (node : Node) : Bool := node.id ∈ trace.dropped.map Tree.id

def Trace.Splices (root : Node) (trace : Trace Node) : Prop :=
  ∀ offers ∈ trace.rounds, ∀ offer ∈ offers, offer.Splices root

/-- Some survivor of the run stands in the result as the new node. -/
def Trace.HasImage (trace : Trace N) (old new : N) : Prop :=
  ∃ inner ∈ trace.dispatches, ∃ survival ∈ inner.survivals,
    survival.node = old ∧ survival.output = new

end Dispatch

/-- Every visit deletes its node or puts foreign trees around it, in whatever state the rule is. -/
def Rule.Splices (rule : Rule σ ε Node) (root : Node) : Prop :=
  ∀ before offer after, Answers rule before offer after → offer.Splices root

/-- An instance splices when its rule does, whatever it remembers. -/
theorem Rule.splices_on {rule : Rule τ ε Node} {root : Node} (part : Part σ τ)
    (h : ∀ node, (rule.visit node).Returns fun nodes => nodes = [] ∨ node.Amid root nodes) :
    (rule.on part).Splices root := by
  intro before offer after hanswers nodes hnodes
  rcases hanswers.refused_or_visited with ⟨_, _, hnone⟩ | ⟨shared, _, _, hvisit, hsome⟩
  · rw [hnone] at hnodes
    cases hnodes
  · rw [hsome] at hnodes
    cases hnodes
    have hreturned : (((rule.on part).visit offer.node).run { before with shared }).1 =
        .ok nodes := congrArg Prod.fst hvisit
    exact h offer.node ⟨part.get shared, before.supply⟩ nodes hreturned

namespace Dispatch

theorem Trace.mem_seen_of_dropped {trace : Trace N} {node : N} (h : node ∈ trace.dropped) :
    node ∈ trace.seen := by
  obtain ⟨inner, hinner, hgone⟩ := List.mem_flatMap.mp h
  obtain ⟨offer, hoffer, hdropped⟩ := List.mem_filterMap.mp hgone
  have hnode : offer.node = node := by
    obtain ⟨_, _ | _ | _⟩ := offer <;> cases hdropped
    rfl
  refine List.mem_flatMap.mpr ⟨inner, hinner, List.mem_append_right _ ?_⟩
  exact List.mem_flatMap.mpr ⟨offer, hoffer, hnode ▸ List.mem_cons_self⟩

section Level

variable {root : Node} {offer : Offer Node}

theorem Offer.Splices.dropped_or_amid (h : offer.Splices root) :
    (offer.nodes = [] ∧ offer.dropped? = some offer.node) ∨
      (offer.node.Amid root offer.nodes ∧ offer.dropped? = none) := by
  obtain ⟨node, replacement⟩ := offer
  match replacement, h with
  | none, _ => exact .inr ⟨.singleton node root, rfl⟩
  | some [], _ => exact .inl ⟨rfl, rfl⟩
  | some (first :: rest), h => exact .inr ⟨(h _ rfl).resolve_left nofun, rfl⟩

theorem Offer.Splices.foreign (h : offer.Splices root) (hnode : offer.node.ForeignTo root) :
    (∀ other ∈ offer.nodes, other.ForeignTo root) ∧
      ∀ gone ∈ offer.dropped?, gone.ForeignTo root := by
  rcases h.dropped_or_amid with ⟨hnodes, hdropped⟩ | ⟨hamid, hdropped⟩
  · rw [hnodes, hdropped]
    refine ⟨fun _ hother => absurd hother List.not_mem_nil, fun gone hgone => ?_⟩
    rw [← Option.some.inj hgone]
    exact hnode
  · rw [hdropped]
    exact ⟨hamid.foreign hnode, nofun⟩

theorem foreign_of_offers {offers : List (Offer Node)} (h : ∀ offer ∈ offers, offer.Splices root)
    (hnodes : ∀ offer ∈ offers, offer.node.ForeignTo root) :
    (∀ other ∈ offers.flatMap Offer.nodes, other.ForeignTo root) ∧
      ∀ gone ∈ offers.filterMap Offer.dropped?, gone.ForeignTo root := by
  constructor
  · intro other hother
    obtain ⟨offer, hoffer, hother⟩ := List.mem_flatMap.mp hother
    exact ((h offer hoffer).foreign (hnodes offer hoffer)).1 other hother
  · intro gone hgone
    obtain ⟨offer, hoffer, hgone⟩ := List.mem_filterMap.mp hgone
    exact ((h offer hoffer).foreign (hnodes offer hoffer)).2 gone hgone

variable {nodes survivors : List Node} {rounds : List (List (Offer Node))}

/-- A working list of foreign trees stays one. -/
theorem Relay.foreign (h : Relay nodes rounds survivors)
    (hsplices : ∀ offers ∈ rounds, ∀ offer ∈ offers, offer.Splices root)
    (hnodes : ∀ node ∈ nodes, node.ForeignTo root) :
    (∀ other ∈ survivors, other.ForeignTo root) ∧
      ∀ gone ∈ rounds.flatten.filterMap Offer.dropped?, gone.ForeignTo root := by
  induction h with
  | nil nodes => exact ⟨hnodes, fun _ hgone => absurd hgone List.not_mem_nil⟩
  | @cons offers rounds survivors _ ih =>
      obtain ⟨hround, hrounds⟩ := List.forall_mem_cons.mp hsplices
      obtain ⟨hnext, hgone⟩ := foreign_of_offers hround fun offer hoffer =>
        hnodes _ (List.mem_map_of_mem hoffer)
      obtain ⟨hsurvivors, hrest⟩ := ih hrounds hnext
      refine ⟨hsurvivors, ?_⟩
      rw [List.flatten_cons, List.filterMap_append]
      exact List.forall_mem_append.mpr ⟨hgone, hrest⟩

/-- **What the rules do to a node of the root.** It is still in the working list, among foreign
trees, or a rule deleted it and foreign trees alone are left. -/
theorem Relay.amid_or_dropped {node : Node} (h : Relay nodes rounds survivors)
    (hsplices : ∀ offers ∈ rounds, ∀ offer ∈ offers, offer.Splices root)
    (hnodes : node.Amid root nodes) :
    (node.Amid root survivors ∧
      ∀ gone ∈ rounds.flatten.filterMap Offer.dropped?, gone.ForeignTo root) ∨
    ((∀ other ∈ survivors, other.ForeignTo root) ∧
      node ∈ rounds.flatten.filterMap Offer.dropped? ∧
      ∀ gone ∈ rounds.flatten.filterMap Offer.dropped?, gone = node ∨ gone.ForeignTo root) := by
  induction h with
  | nil nodes => exact .inl ⟨hnodes, fun _ hgone => absurd hgone List.not_mem_nil⟩
  | @cons offers rounds survivors hrelay ih =>
      obtain ⟨hround, hrounds⟩ := List.forall_mem_cons.mp hsplices
      obtain ⟨before, after, hoffered, hforeign⟩ := hnodes
      obtain ⟨first, rest, rfl, rfl, hrest⟩ := List.map_eq_append_iff.mp hoffered
      obtain ⟨offer, last, rfl, rfl, rfl⟩ := List.map_eq_cons_iff.mp hrest
      obtain ⟨hfirst, hround⟩ := List.forall_mem_append.mp hround
      obtain ⟨hoffer, hlast⟩ := List.forall_mem_cons.mp hround
      obtain ⟨hbefore, hafter⟩ := List.forall_mem_append.mp hforeign
      obtain ⟨hfirstNodes, hfirstGone⟩ := foreign_of_offers hfirst fun offer hmem =>
        hbefore _ (List.mem_map_of_mem hmem)
      obtain ⟨hlastNodes, hlastGone⟩ := foreign_of_offers hlast fun offer hmem =>
        hafter _ (List.mem_map_of_mem hmem)
      have hnext : (first ++ offer :: last).flatMap Offer.nodes =
          first.flatMap Offer.nodes ++ offer.nodes ++ last.flatMap Offer.nodes := by simp
      have hgone : (first ++ offer :: last).filterMap Offer.dropped? =
          first.filterMap Offer.dropped? ++ offer.dropped?.toList ++
            last.filterMap Offer.dropped? := by
        rw [List.filterMap_append, List.filterMap_cons]
        cases offer.dropped? <;> simp
      rw [List.flatten_cons, List.filterMap_append, hgone]
      rcases hoffer.dropped_or_amid with ⟨hnodes, hdropped⟩ | ⟨hamid, hdropped⟩
      · -- From here on, the list is foreign.
        rw [hnext, hnodes, List.append_nil] at hrelay
        obtain ⟨hsurvivors, hlater⟩ := hrelay.foreign hrounds
          (List.forall_mem_append.mpr ⟨hfirstNodes, hlastNodes⟩)
        rw [hdropped, Option.toList_some]
        refine .inr ⟨hsurvivors, by simp, ?_⟩
        refine List.forall_mem_append.mpr ⟨List.forall_mem_append.mpr
          ⟨List.forall_mem_append.mpr ⟨?_, List.forall_mem_singleton.mpr (.inl rfl)⟩, ?_⟩, ?_⟩
        · exact fun gone h => .inr (hfirstGone gone h)
        · exact fun gone h => .inr (hlastGone gone h)
        · exact fun gone h => .inr (hlater gone h)
      · rw [hdropped, Option.toList_none, List.append_nil]
        have hnow := List.forall_mem_append.mpr ⟨hfirstGone, hlastGone⟩
        rw [hnext] at ih
        rcases ih hrounds (hamid.extend hfirstNodes hlastNodes) with ⟨hsurvivors, hlater⟩ |
          ⟨hsurvivors, hmem, hlater⟩
        · exact .inl ⟨hsurvivors, List.forall_mem_append.mpr ⟨hnow, hlater⟩⟩
        · refine .inr ⟨hsurvivors, List.mem_append_right _ hmem, ?_⟩
          exact List.forall_mem_append.mpr ⟨fun gone h => .inr (hnow gone h), hlater⟩

end Level

section Trace

variable {root : Node} {heap : Heap Node} {count : Nat} {trace : Trace Node}

theorem Trace.Orderly.node_mem_children (h : trace.Orderly count) {survival : Survival Node}
    (hsurvival : survival ∈ trace.survivals) {child : Trace Node}
    (hchild : child ∈ survival.children) : child.node ∈ survival.node.children := by
  have hchildren : survival.children.map Trace.node = survival.node.children :=
    h.children_eq survival hsurvival
  rw [← hchildren]
  exact List.mem_map_of_mem hchild

theorem Trace.Orderly.foreign (h : trace.Orderly count) (hsplices : trace.Splices root)
    (hnode : trace.node.ForeignTo root) :
    (∀ other ∈ trace.survivors, other.ForeignTo root) ∧
      ∀ gone ∈ trace.levelDropped, gone.ForeignTo root :=
  h.relay.foreign hsplices (List.forall_mem_singleton.mpr hnode)

theorem Trace.Orderly.amid_or_dropped (h : trace.Orderly count) (hsplices : trace.Splices root) :
    (trace.node.Amid root trace.survivors ∧ ∀ gone ∈ trace.levelDropped, gone.ForeignTo root) ∨
    ((∀ other ∈ trace.survivors, other.ForeignTo root) ∧ trace.node ∈ trace.levelDropped ∧
      ∀ gone ∈ trace.levelDropped, gone = trace.node ∨ gone.ForeignTo root) :=
  h.relay.amid_or_dropped hsplices (.singleton _ _)

variable (horderly : ∀ inner ∈ trace.dispatches, inner.Orderly count)
  (hsplices : ∀ inner ∈ trace.dispatches, inner.Splices root)

include horderly hsplices

/-- Below a foreign tree, only foreign nodes are dispatched. -/
theorem Trace.foreign_of_foreign (hnode : trace.node.ForeignTo root) :
    ∀ inner ∈ trace.dispatches, inner.node.ForeignTo root := by
  induction trace using Trace.inductionOn with
  | dispatch node rounds survivals ih =>
      obtain ⟨hself, hbelow⟩ := Trace.forall_mem_dispatches_iff.mp horderly
      obtain ⟨hsplicesSelf, hsplicesBelow⟩ := Trace.forall_mem_dispatches_iff.mp hsplices
      obtain ⟨hsurvivors, -⟩ := hself.foreign hsplicesSelf hnode
      refine Trace.forall_mem_dispatches_iff.mpr ⟨hnode, fun survival hsurvival child hchild => ?_⟩
      have hsurvivor : survival.node.ForeignTo root :=
        hsurvivors _ (List.mem_map_of_mem hsurvival)
      exact ih survival hsurvival child hchild (hbelow survival hsurvival child hchild)
        (hsplicesBelow survival hsurvival child hchild)
        (hsurvivor.of_child _ (hself.node_mem_children hsurvival hchild))

/-- **Nothing of the root is dispatched out of turn.** What is dispatched of a part of the root is
dispatched in preorder, and each node once for each of its appearances at most. -/
theorem Trace.filter_dispatches_sublist (known : Node → Bool)
    (hknown : ∀ node : Node, node.ForeignTo root → known node = false)
    (hnode : trace.node ∈ root.preorder) :
    ((trace.dispatches.map Trace.node).filter known).Sublist trace.node.preorder := by
  induction trace using Trace.inductionOn with
  | dispatch node rounds survivals ih =>
      obtain ⟨hself, hbelow⟩ := Trace.forall_mem_dispatches_iff.mp horderly
      obtain ⟨hsplicesSelf, hsplicesBelow⟩ := Trace.forall_mem_dispatches_iff.mp hsplices
      let kept (survival : Survival Node) : List Node :=
        survival.children.flatMap fun child => (child.dispatches.map Trace.node).filter known
      have hforeign : ∀ survival ∈ survivals, survival.node.ForeignTo root →
          kept survival = [] := by
        intro survival hsurvival hforeign
        refine List.flatMap_eq_nil_iff.mpr fun child hchild => List.filter_eq_nil_iff.mpr ?_
        rintro _ hmem
        obtain ⟨inner, hinner, rfl⟩ := List.mem_map.mp hmem
        have hchildNode : child.node.ForeignTo root :=
          hforeign.of_child _ (hself.node_mem_children hsurvival hchild)
        have hinnerNode := Trace.foreign_of_foreign (hbelow survival hsurvival child hchild)
          (hsplicesBelow survival hsurvival child hchild) hchildNode inner hinner
        rw [hknown _ hinnerNode]
        exact Bool.false_ne_true
      have hkept : (survivals.flatMap kept).Sublist (node.children.flatMap Tree.preorder) := by
        rcases hself.amid_or_dropped hsplicesSelf with
          ⟨(hamid : node.Amid root (survivals.map Survival.node)), -⟩ | ⟨hsurvivors, -⟩
        · obtain ⟨survival, hsurvival, hsame, hlist⟩ := hamid.exists_flatMap_eq hforeign
          have hchildren : survival.children.map Trace.node = node.children := by
            rw [hself.children_eq survival hsurvival, hsame]
            rfl
          rw [hlist, ← hchildren, List.flatMap_map]
          refine List.Sublist.flatMap_right _ fun child hchild => ?_
          have hmem : child.node ∈ node.children := hchildren ▸ List.mem_map_of_mem hchild
          exact ih survival hsurvival child hchild (hbelow survival hsurvival child hchild)
            (hsplicesBelow survival hsurvival child hchild)
            (Tree.mem_preorder_of_mem_children hmem hnode)
        · rw [List.flatMap_eq_nil_iff.mpr fun survival hsurvival =>
            hforeign survival hsurvival (hsurvivors _ (List.mem_map_of_mem hsurvival))]
          exact List.nil_sublist _
      have hlist : ((Trace.dispatch node rounds survivals).dispatches.map Trace.node).filter known =
          [node].filter known ++ survivals.flatMap kept := by
        rw [Trace.dispatches_eq, List.map_cons, Trace.node_dispatch, Trace.survivals_dispatch,
          ← List.singleton_append, List.filter_append]
        simp only [List.map_flatMap, List.filter_flatMap, kept]
      rw [hlist, Trace.node_dispatch, Tree.preorder_eq]
      exact (List.filter_sublist (p := known) (l := [node])).append hkept

end Trace

section Settled

variable {root : Node} {heap : Heap Node} {count : Nat} {trace : Trace Node}
  (hsettled : ∀ inner ∈ trace.dispatches, inner.Settled heap count)
  (hsplices : ∀ inner ∈ trace.dispatches, inner.Splices root)

include hsettled hsplices

/-- What a foreign survivor leaves in the result shows no text of the root, at any depth. -/
theorem Trace.knows_eq_false_of_foreign {survival : Survival Node}
    (hsurvival : survival ∈ trace.survivals) (hforeign : survival.node.ForeignTo root) :
    ∀ below ∈ survival.output.preorder, root.knows below.label = false := by
  obtain ⟨hself, hbelow⟩ := Trace.forall_mem_dispatches_iff.mp hsettled
  obtain ⟨-, hsplicesBelow⟩ := Trace.forall_mem_dispatches_iff.mp hsplices
  have hchildren : survival.output.children = survival.children.flatMap Trace.outputs :=
    Trace.children_output hsettled hsurvival
  rw [Tree.preorder_eq, hchildren]
  refine List.forall_mem_cons.mpr ⟨?_, fun below hmem => ?_⟩
  · rw [hself.orderly.label_output hsurvival]
    exact hforeign.knows_eq_false
  · -- Below, the labels are those of survivors again, and all of these are foreign.
    rw [List.flatMap_assoc] at hmem
    obtain ⟨child, hchild, hmem⟩ := List.mem_flatMap.mp hmem
    have hsettledChild := hbelow survival hsurvival child hchild
    have horderlyChild := fun inner hinner => (hsettledChild inner hinner).orderly
    have hsplicesChild := hsplicesBelow survival hsurvival child hchild
    have hnode : child.node.ForeignTo root :=
      hforeign.of_child _ (hself.orderly.node_mem_children hsurvival hchild)
    have hlabel := (Trace.labels_perm hsettledChild).mem_iff.mp (List.mem_map_of_mem hmem)
    obtain ⟨other, hother, hlabel⟩ := List.mem_map.mp hlabel
    obtain ⟨inner, hinner, hother⟩ := List.mem_flatMap.mp hother
    have hinnerNode := Trace.foreign_of_foreign horderlyChild hsplicesChild hnode inner hinner
    have hforeignOther : Node.ForeignTo other root :=
      ((horderlyChild inner hinner).foreign (hsplicesChild inner hinner) hinnerNode).1 other hother
    rw [← hlabel]
    exact hforeignOther.knows_eq_false

/-- **What is left stands where it stood.** In the result, the texts of the root stand at the images
of the nodes that are not cut off, in the same order, and under the images of the nodes above
these. -/
theorem Trace.forall₂_mirrors (cut : Node → Bool) (image : Node → Node → Prop)
    (hcut : ∀ inner ∈ trace.dispatches, inner.node ∈ root.preorder →
      (cut inner.node = true ↔ inner.node ∈ inner.levelDropped))
    (himage : ∀ inner ∈ trace.dispatches, ∀ survival ∈ inner.survivals,
      image survival.node survival.output)
    (hnode : trace.node ∈ root.preorder) :
    List.Forall₂ (Appearance.Mirrors image)
      (trace.node.appearances.filter fun x => x.escapes cut && root.knows x.node.label)
      ((trace.outputs.flatMap Tree.appearances).filter fun y => root.knows y.node.label) := by
  induction trace using Trace.inductionOn with
  | dispatch node rounds survivals ih =>
      have hforeign : ∀ survival ∈ survivals, survival.node.ForeignTo root →
          (survival.output.appearances.filter fun y => root.knows y.node.label) = [] := by
        intro survival hsurvival hforeign
        refine List.filter_eq_nil_iff.mpr fun y hy => ?_
        rw [Trace.knows_eq_false_of_foreign hsettled hsplices hsurvival hforeign y.node
          (Tree.node_mem_preorder hy)]
        exact Bool.false_ne_true
      have houtputs : (((Trace.dispatch node rounds survivals).outputs.flatMap
            Tree.appearances).filter fun y => root.knows y.node.label) =
          survivals.flatMap fun survival =>
            survival.output.appearances.filter fun y => root.knows y.node.label := by
        rw [Trace.outputs, List.flatMap_map, List.filter_flatMap]
        rfl
      obtain ⟨hself, hbelow⟩ := Trace.forall_mem_dispatches_iff.mp hsettled
      obtain ⟨hsplicesSelf, hsplicesBelow⟩ := Trace.forall_mem_dispatches_iff.mp hsplices
      obtain ⟨hcutSelf, hcutBelow⟩ := Trace.forall_mem_dispatches_iff.mp hcut
      obtain ⟨himageSelf, himageBelow⟩ := Trace.forall_mem_dispatches_iff.mp himage
      have hcutSelf := hcutSelf hnode
      rw [houtputs, Trace.node_dispatch]
      rw [Trace.node_dispatch] at hcutSelf hnode
      rcases hself.orderly.amid_or_dropped hsplicesSelf with
        ⟨(hamid : node.Amid root (survivals.map Survival.node)), hgone⟩ |
        ⟨hsurvivors, hdropped, -⟩
      · have hspared : cut node = false := by
          rw [← Bool.not_eq_true, hcutSelf]
          exact fun hmem => (hgone node hmem).not_mem hnode
        obtain ⟨survival, hsurvival, rfl, hlist⟩ := hamid.exists_flatMap_eq hforeign
        have hlabel := hself.orderly.label_output hsurvival
        have hnodes : survival.children.map Trace.node = survival.node.children :=
          hself.orderly.children_eq survival hsurvival
        have hchildren : survival.output.children = survival.children.flatMap Trace.outputs :=
          Trace.children_output hsettled hsurvival
        rw [hlist]
        refine Appearance.forall₂_mirrors_of_children hspared (himageSelf survival hsurvival)
          hlabel ?_
        rw [hchildren, ← hnodes, List.flatMap_map, List.flatMap_assoc, List.filter_flatMap,
          List.filter_flatMap]
        refine forall₂_flatMap fun child hchild => ?_
        have hmem := Tree.mem_preorder_of_mem_children
          (hself.orderly.node_mem_children hsurvival hchild) hnode
        exact ih survival hsurvival child hchild (hbelow survival hsurvival child hchild)
          (hsplicesBelow survival hsurvival child hchild)
          (hcutBelow survival hsurvival child hchild)
          (himageBelow survival hsurvival child hchild) hmem
      · have hnone : (survivals.flatMap fun survival =>
            survival.output.appearances.filter fun y => root.knows y.node.label) = [] :=
          List.flatMap_eq_nil_iff.mpr fun survival hsurvival =>
            hforeign survival hsurvival (hsurvivors _ (List.mem_map_of_mem hsurvival))
        rw [hnone, Appearance.filter_escapes_of_cut (hcutSelf.mpr hdropped)]
        exact .nil

end Settled

section Run

variable {root : Node} {heap : Heap Node} {count : Nat} {trace : Trace Node}
  (hsettled : ∀ inner ∈ trace.dispatches, inner.Settled heap count)
  (hsplices : ∀ inner ∈ trace.dispatches, inner.Splices root)
  (hroot : trace.node = root)

include hsettled hsplices hroot

open Classical in
theorem Trace.dispatched_sublist :
    ((trace.dispatches.map Trace.node).filter (· ∈ root.preorder)).Sublist root.preorder := by
  have hsublist := Trace.filter_dispatches_sublist
    (fun inner hinner => (hsettled inner hinner).orderly) hsplices
    (fun node => decide (node ∈ root.preorder))
    (fun node hforeign => decide_eq_false hforeign.not_mem) (hroot ▸ root.mem_preorder_self)
  rwa [hroot] at hsublist

variable (hobjects : (root.preorder.map Tree.id).Nodup)

include hobjects

/-- **No node of the root is dispatched twice.** -/
theorem Trace.countP_dispatches_le_one {node : Node} (hnode : node ∈ root.preorder) :
    trace.dispatches.countP (fun inner => Host.sameObject inner.node node) ≤ 1 := by
  classical
  have hrootMem : root ∈ heap.objects :=
    hroot ▸ (hsettled trace trace.mem_dispatches_self).node_mem
  have hsame : ∀ other ∈ trace.dispatches.map Trace.node, Host.sameObject other node = true ↔
      (Host.sameObject other node && decide (other ∈ root.preorder)) = true := by
    intro other hother
    obtain ⟨inner, hinner, rfl⟩ := List.mem_map.mp hother
    refine ⟨fun h => ?_, fun h => (Bool.and_eq_true_iff.mp h).1⟩
    have heq : inner.node = node := heap.eq_of_identity_eq (hsettled inner hinner).node_mem
      (Tree.forall_mem_objects hrootMem node hnode) (beq_iff_eq.mp h)
    rw [h, heq, decide_eq_true hnode]
    rfl
  calc trace.dispatches.countP (fun inner => Host.sameObject inner.node node)
      = (trace.dispatches.map Trace.node).countP (Host.sameObject · node) := by
        rw [List.countP_map]
        rfl
    _ = ((trace.dispatches.map Trace.node).filter (· ∈ root.preorder)).countP
          (Host.sameObject · node) := by
        rw [List.countP_filter]
        exact List.countP_congr hsame
    _ ≤ root.preorder.countP (Host.sameObject · node) :=
        (Trace.dispatched_sublist hsettled hsplices hroot).countP_le
    _ = (root.preorder.map Tree.id).count node.id := by
        rw [List.count, List.countP_map]
        rfl
    _ ≤ 1 := List.nodup_iff_count_le_one.mp hobjects node.id

theorem Trace.eq_of_node_eq {inner other : Trace Node} (hinner : inner ∈ trace.dispatches)
    (hother : other ∈ trace.dispatches) (hmem : inner.node ∈ root.preorder)
    (hsame : inner.node = other.node) : inner = other := by
  classical
  have hsublist := Trace.dispatched_sublist hsettled hsplices hroot
  rw [List.filter_map] at hsublist
  refine List.inj_on_of_nodup_map (hsublist.nodup hobjects.of_map) ?_ ?_ hsame
  · exact List.mem_filter.mpr ⟨hinner, decide_eq_true hmem⟩
  · exact List.mem_filter.mpr ⟨hother, decide_eq_true (hsame ▸ hmem)⟩

/-- A node of the root is dropped when the one dispatch of it drops it. -/
theorem Trace.drops_iff (hseen : ∀ node ∈ trace.seen, node ∈ heap.objects) {inner : Trace Node}
    (hinner : inner ∈ trace.dispatches) (hmem : inner.node ∈ root.preorder) :
    trace.drops inner.node = true ↔ inner.node ∈ inner.levelDropped := by
  rw [Trace.drops, decide_eq_true_iff]
  constructor
  · intro hdropped
    obtain ⟨gone, hgone, hid⟩ := List.mem_map.mp hdropped
    have hobject : gone ∈ heap.objects := hseen gone (Trace.mem_seen_of_dropped hgone)
    obtain rfl : gone = inner.node :=
      heap.eq_of_identity_eq hobject (hsettled inner hinner).node_mem hid
    obtain ⟨other, hother, hgone⟩ := List.mem_flatMap.mp hgone
    -- A dispatch drops its own node and foreign nodes, so this one was dropped by its own dispatch.
    have hown : inner.node = other.node := by
      rcases (hsettled other hother).orderly.amid_or_dropped (hsplices other hother) with
        ⟨-, hall⟩ | ⟨-, -, hall⟩
      · exact absurd hmem (hall _ hgone).not_mem
      · exact (hall _ hgone).resolve_right fun hforeign => hforeign.not_mem hmem
    rw [Trace.eq_of_node_eq hsettled hsplices hroot hobjects hinner hother hmem hown] at hgone ⊢
    exact hgone
  · intro hgone
    exact List.mem_map_of_mem (List.mem_flatMap.mpr ⟨inner, hinner, hgone⟩)

end Run

variable {rules : List (Rule σ ε Node)}

theorem Rounds.forall_mem_offers {rules : List (Rule σ ε N)} {start finish : Workspace σ}
    {rounds : List (List (Offer N))} (h : Rounds rules start rounds finish) {p : Offer N → Prop}
    (hrules : ∀ rule ∈ rules, ∀ before offer after, Answers rule before offer after → p offer) :
    ∀ offers ∈ rounds, ∀ offer ∈ offers, p offer := by
  induction h with
  | nil => exact fun _ hoffers => absurd hoffers List.not_mem_nil
  | cons hoffers _ ih =>
      obtain ⟨hrule, hrules⟩ := List.forall_mem_cons.mp hrules
      refine List.forall_mem_cons.mpr ⟨fun offer hoffer => ?_, ih hrules⟩
      obtain ⟨v, w, hanswers⟩ := hoffers.exists_step_of_mem hoffer
      exact hrule v offer w hanswers

theorem Follows.splices {root : Node} (hrules : ∀ rule ∈ rules, rule.Splices root)
    {start finish : Workspace σ} {trace : Trace Node} (h : Follows rules start trace finish) :
    ∀ inner ∈ trace.dispatches, inner.Splices root := by
  intro inner hinner
  obtain ⟨_, _, hfollows⟩ := h.exists_of_mem_dispatches inner hinner
  cases hfollows with
  | dispatch _ hrounds _ => exact hrounds.forall_mem_offers hrules

/-- **Nothing is reordered, doubled or lost.** Over rules that delete a node or splice foreign trees
in around it, no node of the root is dispatched twice. In the result, the texts of the root are in
their order, without those at or below a node for which a visit emitted nothing; and each of them
stands at its node's image, whose parent is the image of the node's parent. Nodes without a text may
stand between those that have one. -/
theorem dispatch_splices {refs : σ → Set Node} (honest : ∀ rule ∈ rules, rule.Honest refs)
    {heap : Heap Node} {root : Node} (hroot : root ∈ heap.objects) {run after : Run σ}
    (hcovers : heap.Covers refs run.workspace) {depth : Nat} {nodes : List Node}
    (hrun : (dispatch rules depth root).run run = (.ok nodes, after))
    (hobjects : (root.preorder.map Tree.id).Nodup)
    (hsplices : ∀ rule ∈ rules, rule.Splices root) :
    ∃ trace, trace.node = root ∧ trace.outputs = nodes ∧ Leaves rules run trace after ∧
      (∀ node ∈ root.preorder,
        trace.dispatches.countP (fun inner => Host.sameObject inner.node node) ≤ 1) ∧
      ((nodes.flatMap Tree.preorder).filterMap Node.text).filter (· ∈ root.texts) =
        (root.appearances.filter (Appearance.escapes trace.drops)).filterMap
          (fun x => Node.text x.node) ∧
      List.Forall₂ (fun x y => y.labels = x.labels ∧ x.Mirrors trace.HasImage y)
        (root.appearances.filter fun x => x.escapes trace.drops && (Node.text x.node).isSome)
        ((nodes.flatMap Tree.appearances).filter fun y => root.knows y.node.label) := by
  obtain ⟨trace, rfl, rfl, hleaves⟩ := dispatch_ok hrun
  obtain ⟨later, _, _, hseen, hnew⟩ := hleaves.follows.grows honest hroot hcovers
  have hsettled := Trace.settled hleaves.follows.orderly hseen hnew
  have hlevels := hleaves.follows.splices hsplices
  have hmirrors := Trace.forall₂_mirrors hsettled hlevels trace.drops
    (fun old new => new.label = old.label ∧ trace.HasImage old new)
    (fun inner hinner hmem => Trace.drops_iff hsettled hlevels rfl hobjects hseen hinner hmem)
    (fun inner hinner survival hsurvival =>
      ⟨(hsettled inner hinner).orderly.label_output hsurvival, inner, hinner, survival, hsurvival,
        rfl, rfl⟩)
    trace.node.mem_preorder_self
  have hknown : (trace.node.appearances.filter fun x =>
        x.escapes trace.drops && trace.node.knows x.node.label) =
      trace.node.appearances.filter fun x =>
        x.escapes trace.drops && (Node.text x.node).isSome := by
    refine List.filter_congr fun x hx => ?_
    rw [Node.knows_of_mem (Tree.node_mem_preorder hx)]
  rw [hknown] at hmirrors
  have hlabels : (trace.node.appearances.filter fun x =>
        x.escapes trace.drops && (Node.text x.node).isSome).map (fun x => x.node.label) =
      ((trace.outputs.flatMap Tree.appearances).filter fun y =>
        trace.node.knows y.node.label).map fun y => y.node.label := by
    rw [← List.forall₂_eq_eq_eq, List.forall₂_map_left_iff, List.forall₂_map_right_iff]
    exact hmirrors.imp fun x y h => h.node.1.symm
  refine ⟨trace, rfl, rfl, hleaves, fun node hnode => ?_, ?_, hmirrors.imp fun x y h => ⟨?_, ?_⟩⟩
  · exact Trace.countP_dispatches_le_one hsettled hlevels rfl hobjects hnode
  · have htexts := congrArg (List.filterMap Label.text) hlabels
    rw [List.filterMap_map, List.filterMap_map] at htexts
    rw [Node.filter_filterMap_text, ← Tree.map_node_flatMap_appearances, List.filter_map,
      List.filterMap_map]
    refine htexts.symm.trans ?_
    rw [List.filterMap_filter, List.filterMap_filter]
    refine List.filterMap_congr fun x _ => ?_
    change (if (x.escapes trace.drops && (Node.text x.node).isSome) = true then Node.text x.node
      else none) = _
    rcases Node.text x.node with _ | text <;> simp
  · exact h.labels_eq fun old new hpair => hpair.1
  · exact ⟨h.node.2, h.above.imp fun _ _ h => h.2⟩

end Dispatch

namespace Catalogue

variable {root : Node}

/-- The declaration that is added behind another is foreign to every root without its two names. -/
theorem transferred_foreign (hvalue : "value" ∉ root.texts) (hresult : "result" ∉ root.texts)
    (supply : Supply) : Node.ForeignTo (Entry.transferred.build.run supply).1 root := by
  let name : Node := .node supply.next { kind := .identifier, text := some "value" } []
  let result : Node := .node (supply.next + 1) { kind := .identifier, text := some "result" } []
  let declaration : Node := .node (supply.next + 2) { kind := .variableDeclaration } [name, result]
  have hname : name ∉ root.preorder := fun hmem =>
    hvalue (List.mem_filterMap.mpr ⟨name, hmem, rfl⟩)
  have hresultMem : result ∉ root.preorder := fun hmem =>
    hresult (List.mem_filterMap.mpr ⟨result, hmem, rfl⟩)
  have hdeclaration : declaration ∉ root.preorder := fun hmem =>
    hname (Tree.mem_preorder_of_mem_children List.mem_cons_self hmem)
  change ∀ below ∈ [declaration, name, result], _
  simp only [List.forall_mem_cons]
  refine ⟨⟨hdeclaration, nofun⟩, ⟨hname, ?_⟩, ⟨hresultMem, ?_⟩,
    fun _ h => absurd h List.not_mem_nil⟩
  · rintro _ ⟨⟩
    exact hvalue
  · rintro _ ⟨⟩
    exact hresult

/-- Deletions and transfers splice. -/
theorem pipeline_splices (scope : String) {entries : List Entry}
    (hentries : ∀ entry ∈ entries, entry = .transferValue ∨ ∀ node, entry.visit node = pure [])
    (hvalue : "value" ∉ root.texts) (hresult : "result" ∉ root.texts) :
    ∀ rule ∈ RuleType.instances (pipeline scope entries).rules, rule.Splices root := by
  intro rule hrule
  obtain ⟨type, htype, memory, rfl⟩ := RuleType.exists_memory_of_mem_instances hrule
  obtain ⟨entry, hentry, rfl⟩ := List.mem_map.mp htype
  refine Rule.splices_on _ fun node => ?_
  rcases hentries entry hentry with rfl | hdeletes
  · have hcreated : RuleM.Returns
        (RuleM.create Entry.transferred.build : RuleM Entry.State Error Node)
        fun last => last.ForeignTo root := .create (transferred_foreign hvalue hresult)
    refine hcreated.bind fun last hlast => ?_
    exact .pure (.inr ⟨[], [last], rfl, List.forall_mem_singleton.mpr hlast⟩)
  · change (entry.visit node).Returns _
    rw [hdeletes]
    exact .pure (.inl rfl)

section Sample

open NodeBlueprint in
/-- A file with a declaration, an export, and a block with another declaration. -/
def declaring : NodeBlueprint :=
  sourceFile [variableStatement [variableDeclaration "first" (numericLiteral "1")],
    exportAssignment (identifier "exported"),
    branch .block [variableDeclaration "second" (stringLiteral "word"), numericLiteral "2"]]

/-- What becomes of that file when declarations are transferred, and exports and strings deleted. -/
def splicedOutline : Outline Label :=
  let added : Outline Label := .node { kind := .variableDeclaration }
    [.node { kind := .identifier, text := some "value" } [],
      .node { kind := .identifier, text := some "result" } []]
  .node { kind := .sourceFile }
    [.node { kind := .variableStatement }
      [.node { kind := .variableDeclaration }
        [.node { kind := .identifier, text := some "first" } [],
          .node { kind := .numericLiteral, text := some "1" } []], added],
    .node { kind := .block }
      [.node { kind := .variableDeclaration }
        [.node { kind := .identifier, text := some "second" } []], added,
        .node { kind := .numericLiteral, text := some "2" } []]]

/-- What the export held and the string are left out. What was added behind the declarations is no
text of the file. -/
theorem dispatch_splices_declaring :
    let root : Node := (declaring.build.run {}).1
    ∃ (nodes : List Node) (after : Run _) (trace : Trace Node),
      (dispatch (RuleType.instances
        (pipeline "" [.transferValue, .deleteExport, .deleteString]).rules) 4 root).run
        (firstRun _ (declaring.build.run {}).2.next) = (.ok nodes, after) ∧
      trace.outputs = nodes ∧
      (∀ node ∈ root.preorder,
        trace.dispatches.countP (fun inner => Host.sameObject inner.node node) ≤ 1) ∧
      (nodes.flatMap Tree.preorder).filterMap Node.text =
        ["first", "1", "value", "result", "second", "value", "result", "2"] ∧
      root.texts = ["first", "1", "exported", "second", "word", "2"] ∧
      (root.appearances.filter (Appearance.escapes trace.drops)).filterMap
        (fun x => Node.text x.node) = ["first", "1", "second", "2"] := by
  intro root
  have htexts : root.texts = ["first", "1", "exported", "second", "word", "2"] := by
    decide +kernel
  have hvalue : "value" ∉ root.texts := by
    rw [htexts]
    decide
  have hresult : "result" ∉ root.texts := by
    rw [htexts]
    decide
  have hentries : ∀ entry ∈ [Entry.transferValue, .deleteExport, .deleteString],
      entry = .transferValue ∨ ∀ node, entry.visit node = pure [] :=
    List.forall_mem_cons.mpr ⟨.inl rfl, List.forall_mem_cons.mpr ⟨.inr fun _ => rfl,
      List.forall_mem_singleton.mpr (.inr fun _ => rfl)⟩⟩
  have hspliced : ∃ nodes after,
      (dispatch (RuleType.instances
        (pipeline "" [.transferValue, .deleteExport, .deleteString]).rules) 4 root).run
        (firstRun _ (declaring.build.run {}).2.next) = (.ok nodes, after) ∧
      nodes.map Tree.outline = [splicedOutline] :=
    exists_ok_of_outlines (by decide +kernel)
  obtain ⟨nodes, after, hrun, houtlines⟩ := hspliced
  obtain ⟨heap, hmem, hcovers⟩ := exists_heap_of_build declaring
  obtain ⟨trace, -, houtputs, -, honce, hkept, -⟩ :=
    dispatch_splices (pipeline_honest "" _) hmem (hcovers _) hrun (by decide +kernel)
      (pipeline_splices "" hentries hvalue hresult)
  have hshown : (nodes.flatMap Tree.preorder).filterMap Node.text =
      ["first", "1", "value", "result", "second", "value", "result", "2"] := by
    rw [Node.filterMap_text_flatMap_preorder, houtlines]
    decide +kernel
  rw [hshown, htexts] at hkept
  exact ⟨nodes, after, trace, hrun, houtputs, honce, hshown, htexts, hkept.symm⟩

end Sample

end Catalogue

end TreeRules
