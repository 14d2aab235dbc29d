import TreeRules.Proofs.Appearance
import TreeRules.Proofs.CatalogueNesting
import TreeRules.Proofs.Success

/-!
# Rules that only repeat

A rule may leave a node alone, delete it or repeat it, all by the label of the node. A list of such
rules is one such rule, whose factor is the product of theirs. Each of the repeated nodes is
dispatched below by itself, so factors multiply on the way from the root to a node; the working list
itself is never passed through the rules again.
-/

namespace TreeRules

open Dispatch

variable {σ τ ε N α β γ : Type}

section Lists

theorem flatten_replicate_perm (count : Nat) (items : List β) :
    (List.replicate count items).flatten.Perm (items.flatMap (List.replicate count)) := by
  induction count with
  | zero => simp
  | succ count ih =>
      calc (List.replicate (count + 1) items).flatten
          = items ++ (List.replicate count items).flatten := by
            rw [List.replicate_succ, List.flatten_cons]
        List.Perm _ (items.flatMap (fun item => [item]) ++ items.flatMap (List.replicate count)) := by
            rw [List.flatMap_singleton']
            exact ih.append_left items
        List.Perm _ (items.flatMap fun item => [item] ++ List.replicate count item) :=
            List.flatMap_append_perm _ _ _
        _ = items.flatMap (List.replicate (count + 1)) := rfl

theorem flatMap_replicate_replicate (count more : Nat) (item : β) :
    (List.replicate more item).flatMap (List.replicate count) =
      List.replicate (count * more) item := by
  induction more with
  | zero => rfl
  | succ more ih =>
      rw [List.replicate_succ, List.flatMap_cons, ih, List.replicate_append_replicate,
        Nat.mul_succ, Nat.add_comm]

theorem flatMap_const (items : List β) (others : List γ) :
    (items.flatMap fun _ => others) = (List.replicate items.length others).flatten := by
  rw [List.flatMap_def, List.map_const']

theorem forall₂_flatMap {R : α → β → Prop} {items : List γ} {f : γ → List α} {g : γ → List β}
    (h : ∀ item ∈ items, List.Forall₂ R (f item) (g item)) :
    List.Forall₂ R (items.flatMap f) (items.flatMap g) := by
  induction items with
  | nil => exact .nil
  | cons item rest ih =>
      obtain ⟨hitem, hrest⟩ := List.forall_mem_cons.mp h
      rw [List.flatMap_cons, List.flatMap_cons]
      exact List.rel_append hitem (ih hrest)

theorem exists_of_forall₂ {R : α → β → Prop} {items : List α} {others : List β}
    (h : List.Forall₂ R items others) : ∀ item ∈ items, ∃ other ∈ others, R item other := by
  induction h with
  | nil => exact fun _ hmem => absurd hmem List.not_mem_nil
  | @cons _ other _ _ hitem _ ih =>
      refine List.forall_mem_cons.mpr ⟨⟨other, List.mem_cons_self, hitem⟩, fun item hmem => ?_⟩
      obtain ⟨last, hlast, hrest⟩ := ih item hmem
      exact ⟨last, List.mem_cons_of_mem _ hlast, hrest⟩

end Lists

namespace Appearance

variable (m : α → Nat) (tree : Tree α) (x : Appearance α)

/-- How often the appearance is repeated: once for each choice on the way to it. -/
def weight : Nat := (x.labels.map m).prod

/-- How often the place of the appearance is repeated, its own node not counted. -/
def reach : Nat := (x.above.map fun node => m node.label).prod

theorem weight_eq : x.weight m = x.reach m * m x.node.label := by
  simp [weight, reach, labels, path, Function.comp_def]

@[simp]
theorem weight_under : (x.under tree).weight m = m tree.label * x.weight m := by simp [weight]

@[simp]
theorem reach_under : (x.under tree).reach m = m tree.label * x.reach m := by simp [reach]

@[simp]
theorem reach_root : reach m ⟨[], tree⟩ = 1 := rfl

@[simp]
theorem weight_root : weight m ⟨[], tree⟩ = m tree.label := by simp [weight_eq]

end Appearance

namespace Outline

mutual

/-- The outline with everything below the root repeated. -/
def image (m : α → Nat) : Outline α → Outline α
  | node label children => node label (imageOfAll m children)

def imageOfAll (m : α → Nat) : List (Outline α) → List (Outline α)
  | [] => []
  | child :: rest => List.replicate (m child.label) (image m child) ++ imageOfAll m rest

end

theorem imageOfAll_eq_flatMap (m : α → Nat) (children : List (Outline α)) :
    imageOfAll m children =
      children.flatMap fun child => List.replicate (m child.label) (image m child) := by
  induction children with
  | nil => rfl
  | cons child rest ih => rw [imageOfAll, ih, List.flatMap_cons]

theorem image_eq (m : α → Nat) (tree : Outline α) :
    tree.image m = node tree.label
      (tree.children.flatMap fun child => List.replicate (m child.label) (child.image m)) := by
  obtain ⟨label, children⟩ := tree
  rw [image, imageOfAll_eq_flatMap, label_node, children_node]

end Outline

namespace Tree

section Replicas

variable (m : α → Nat)

mutual

/-- The appearances of the tree as often as they are repeated, in the order in which they stand in
the result. -/
def replicas : Tree α → List (Appearance α)
  | node i label children =>
    (List.replicate (m label) (⟨[], node i label children⟩ ::
      (replicasOfAll children).map (.under (node i label children)))).flatten

def replicasOfAll : List (Tree α) → List (Appearance α)
  | [] => []
  | child :: rest => replicas child ++ replicasOfAll rest

end

theorem replicasOfAll_eq_flatMap (trees : List (Tree α)) :
    replicasOfAll m trees = trees.flatMap (replicas m) := by
  induction trees with
  | nil => rfl
  | cons tree rest ih => rw [replicasOfAll, ih, List.flatMap_cons]

theorem replicas_eq (tree : Tree α) :
    tree.replicas m = (List.replicate (m tree.label)
      (⟨[], tree⟩ :: (tree.children.flatMap (replicas m)).map (.under tree))).flatten := by
  obtain ⟨i, label, children⟩ := tree
  rw [replicas, replicasOfAll_eq_flatMap, children_node, label_node]

/-- **Every appearance is repeated once for each choice on the way to it.** -/
theorem replicas_perm (tree : Tree α) : (tree.replicas m).Perm
    (tree.appearances.flatMap fun x => List.replicate (x.weight m) x) := by
  induction tree using inductionOn with
  | step tree ih =>
      have hchildren : ((tree.children.flatMap (replicas m)).map (.under tree)).Perm
          ((tree.children.flatMap appearances).flatMap fun x =>
            List.replicate (x.weight m) (x.under tree)) := by
        rw [List.map_flatMap, List.flatMap_assoc]
        refine List.Perm.flatMap_left _ fun child hchild => ?_
        refine ((ih child hchild).map _).trans (List.Perm.of_eq ?_)
        simp only [List.map_flatMap, List.map_replicate]
      have hbelow : ((tree.children.flatMap appearances).flatMap fun x =>
            List.replicate (x.weight m) (x.under tree)).flatMap (List.replicate (m tree.label)) =
          ((tree.children.flatMap appearances).map (.under tree)).flatMap fun x =>
            List.replicate (x.weight m) x := by
        rw [List.flatMap_map, List.flatMap_assoc]
        refine List.flatMap_congr fun x _ => ?_
        rw [flatMap_replicate_replicate, Appearance.weight_under]
      rw [replicas_eq, appearances_eq, List.flatMap_cons, Appearance.weight_root, ← hbelow]
      refine (flatten_replicate_perm _ _).trans ?_
      rw [List.flatMap_cons]
      exact (hchildren.flatMap_right _).append_left _

end Replicas

end Tree

/-- Below the node, nothing is repeated or deleted. -/
def Node.Still (m : Label → Nat) (node : Node) : Prop :=
  ∀ child ∈ node.children, ∀ below ∈ child.preorder, m below.label = 1

/-- The nodes stand for the one node: so many, each with its image, and the very same object if
nothing below it changes. -/
structure Node.Replaces (m : Label → Nat) (node : Node) (nodes : List Node) : Prop where
  outlines_eq : nodes.map Tree.outline =
    List.replicate (m node.label) (node.outline.image m)
  eq_of_still : node.Still m → nodes = List.replicate (m node.label) node

/-- The new node stands for the old one: it has the old one's image, it is the very same object if
nothing below it changes, and its children are what stands for the old one's children, side by side
and in order. -/
structure Node.Images (m : Label → Nat) (old new : Node) : Prop where
  outline_eq : new.outline = old.outline.image m
  eq_of_still : old.Still m → new = old
  blocks : ∃ blocks, List.Forall₂ (Node.Replaces m) old.children blocks ∧
    new.children = blocks.flatten

/-- In whatever state, the rule replaces a node by so many references to it. -/
structure Rule.Multiplies (rule : Rule σ ε Node) (m : Label → Nat) : Prop where
  refused : ∀ node shared, ((rule.wants node).run shared).1 = false → m node.label = 1
  visited : ∀ node shared, ((rule.wants node).run shared).1 = true → ∀ workspace,
    ∃ after, (rule.visit node).run workspace = (.ok (List.replicate (m node.label) node), after)

namespace Rule.Multiplies

variable {m : Label → Nat} {rule : Rule σ ε Node} (h : rule.Multiplies m)

include h

theorem neverFails : rule.NeverFails := by
  intro node shared hwants workspace
  obtain ⟨after, hvisited⟩ := h.visited node shared hwants workspace
  exact ⟨_, after, hvisited⟩

theorem emits (node : Node) :
    rule.Emits node fun emitted => Host.subtreeDepth emitted ≤ Host.subtreeDepth node := by
  intro shared hwants workspace nodes hnodes emitted hemitted
  obtain ⟨_, hvisited⟩ := h.visited node shared hwants workspace
  rw [hvisited] at hnodes
  rw [← Except.ok.inj hnodes] at hemitted
  rw [List.eq_of_mem_replicate hemitted]

theorem nodes_eq {offer : Offer Node} {before after : Workspace σ}
    (hanswers : Answers rule before offer after) :
    offer.nodes = List.replicate (m offer.node.label) offer.node := by
  rcases hanswers.refused_or_visited with ⟨_, hwants, hnone⟩ | ⟨shared, _, hwants, hvisit, hsome⟩
  · rw [Offer.nodes, hnone, Option.getD_none, h.refused _ _ (congrArg Prod.fst hwants)]
    rfl
  · obtain ⟨_, hvisited⟩ := h.visited _ _ (congrArg Prod.fst hwants) { before with shared }
    rw [hvisit] at hvisited
    rw [Offer.nodes, hsome, Option.getD_some]
    exact Except.ok.inj (Prod.ext_iff.mp hvisited).1

end Rule.Multiplies

/-- The factor that repeats the labels that satisfy the predicate and leaves the others alone. -/
def fan (p : α → Bool) (count : Nat) (label : α) : Nat := if p label then count else 1

theorem fan_of_pos {p : α → Bool} {label : α} (count : Nat) (h : p label = true) :
    fan p count label = count := if_pos h

theorem fan_of_neg {p : α → Bool} {label : α} (count : Nat) (h : p label = false) :
    fan p count label = 1 := by
  rw [fan, h]
  rfl

theorem prod_map_fan (p : α → Bool) (count : Nat) (labels : List α) :
    (labels.map (fan p count)).prod = count ^ labels.countP p := by
  induction labels with
  | nil => rfl
  | cons label labels ih =>
      rw [List.map_cons, List.prod_cons, ih, List.countP_cons, fan]
      split
      · rw [pow_succ, Nat.mul_comm]
      · rw [Nat.one_mul, Nat.add_zero]

/-- In whatever state, the rule wants exactly what satisfies the predicate, and replaces it by so
many references to it. -/
structure Rule.Repeats (rule : Rule σ ε Node) (p : Label → Bool) (count : Nat) : Prop where
  wants : ∀ node shared, ((rule.wants node).run shared).1 = p node.label
  visit : ∀ node, p node.label = true → ∀ workspace,
    ∃ after, (rule.visit node).run workspace = (.ok (List.replicate count node), after)

namespace Rule.Repeats

variable {p : Label → Bool} {count : Nat}

theorem on {rule : Rule τ ε Node} (h : rule.Repeats p count) (part : Part σ τ) :
    (rule.on part).Repeats p count where
  wants node shared := h.wants node (part.get shared)
  visit node hp workspace := by
    obtain ⟨after, hvisited⟩ := h.visit node hp ⟨part.get workspace.shared, workspace.supply⟩
    refine ⟨⟨part.set after.shared workspace.shared, after.supply⟩, ?_⟩
    change part.zoomRule (rule.visit node) workspace = _
    simp only [Part.zoomRule, hvisited]

variable {rule : Rule σ ε Node} (h : rule.Repeats p count)

include h

theorem multiplies : rule.Multiplies (fan p count) where
  refused node shared hwants := by
    rw [h.wants] at hwants
    exact fan_of_neg count hwants
  visited node shared hwants workspace := by
    rw [h.wants] at hwants
    rw [fan_of_pos count hwants]
    exact h.visit node hwants workspace

theorem replacement_eq {offer : Offer Node} {before after : Workspace σ}
    (hanswers : Answers rule before offer after) :
    offer.replacement =
      if p offer.node.label then some (List.replicate count offer.node) else none := by
  have hwants := h.wants offer.node before.shared
  rcases hanswers.refused_or_visited with ⟨_, hasked, hnone⟩ | ⟨shared, _, hasked, hvisit, hsome⟩ <;>
    rw [hasked] at hwants
  · rw [hnone, ← hwants]
    rfl
  · obtain ⟨_, hvisited⟩ := h.visit offer.node hwants.symm { before with shared }
    rw [hvisit] at hvisited
    rw [hsome, ← hwants, Except.ok.inj (Prod.ext_iff.mp hvisited).1]
    rfl

end Rule.Repeats

namespace Dispatch

section Events

variable [Host N] {rules : List (Rule σ ε N)} {start finish : Workspace σ}

omit [Host N] in
theorem Rounds.exists_answers_of_mem_zip {rounds : List (List (Offer N))}
    (h : Rounds rules start rounds finish) :
    ∀ round ∈ (rules.map Rule.name).zip rounds, ∀ offer ∈ round.2,
      ∃ rule ∈ rules, rule.name = round.1 ∧ ∃ v w, Answers rule v offer w := by
  induction h with
  | nil => exact fun _ hround => absurd hround List.not_mem_nil
  | @cons rule rules _ _ _ offers rounds hoffers _ ih =>
      rw [List.map_cons, List.zip_cons_cons]
      refine List.forall_mem_cons.mpr ⟨fun offer hoffer => ?_, fun round hround offer hoffer => ?_⟩
      · exact ⟨rule, List.mem_cons_self, rfl, hoffers.exists_step_of_mem hoffer⟩
      · obtain ⟨other, hother, hrest⟩ := ih round hround offer hoffer
        exact ⟨other, List.mem_cons_of_mem _ hother, hrest⟩

/-- Two ways of counting events agree on a run when they agree on every answer of a rule. -/
theorem Follows.sum_map_events_congr {trace : Trace N} (h : Follows rules start trace finish)
    {part part' : Event → Nat} (hdispatched : part .dispatched = part' .dispatched)
    (hanswers : ∀ rule ∈ rules, ∀ offer v w, Answers rule v offer w →
      ((offer.events rule.name).map part).sum = ((offer.events rule.name).map part').sum) :
    ((trace.events (rules.map Rule.name)).map part).sum =
      ((trace.events (rules.map Rule.name)).map part').sum := by
  rw [Trace.sum_map_events, Trace.sum_map_events, hdispatched]
  refine congrArg List.sum (List.map_congr_left fun inner hinner => congrArg _ ?_)
  obtain ⟨_, _, hfollows⟩ := h.exists_of_mem_dispatches inner hinner
  cases hfollows with
  | dispatch _ hrounds _ =>
      rw [roundEvents, sum_map_flatMap, sum_map_flatMap]
      refine congrArg List.sum (List.map_congr_left fun round hround => ?_)
      rw [sum_map_flatMap, sum_map_flatMap]
      refine congrArg List.sum (List.map_congr_left fun offer hoffer => ?_)
      obtain ⟨rule, hrule, hname, v, w, hanswer⟩ :=
        hrounds.exists_answers_of_mem_zip round hround offer hoffer
      rw [← hname]
      exact hanswers rule hrule offer v w hanswer

end Events

theorem exists_ok_of_multiplies {rules : List (Rule σ ε Node)} {factors : List (Label → Nat)}
    (h : List.Forall₂ Rule.Multiplies rules factors) {depth : Nat}
    {root : Node} (hdepth : Host.subtreeDepth root ≤ depth) (run : Run σ) :
    ∃ nodes after, (dispatch rules depth root).run run = (.ok nodes, after) := by
  refine exists_ok_of_subtreeDepth_le (fun rule hrule => ?_) (fun rule hrule node => ?_) hdepth
  · obtain ⟨_, _, hm⟩ := exists_of_forall₂ h rule hrule
    exact hm.neverFails
  · obtain ⟨_, _, hm⟩ := exists_of_forall₂ h rule hrule
    exact hm.emits node

/-- Rules after one another multiply by their product. -/
theorem Rounds.survivors_eq_replicate {rules : List (Rule σ ε Node)} {factors : List (Label → Nat)}
    (hrules : List.Forall₂ Rule.Multiplies rules factors)
    {start finish : Workspace σ} {rounds : List (List (Offer Node))}
    (h : Rounds rules start rounds finish) {nodes survivors : List Node}
    (hrelay : Relay nodes rounds survivors) {node : Node} {count : Nat}
    (hnodes : nodes = List.replicate count node) :
    survivors = List.replicate ((factors.map (· node.label)).prod * count) node := by
  induction h generalizing factors nodes count with
  | nil =>
      cases hrules
      rw [hrelay.eq_of_nil, hnodes, List.map_nil, List.prod_nil, Nat.one_mul]
  | @cons rule rules start next finish offers rounds hround _ ih =>
      obtain ⟨m, factors, hrule, hothers, rfl⟩ := List.forall₂_cons_left_iff.mp hrules
      have hoffered : offers.map Offer.node = List.replicate count node :=
        (hrelay.map_node_head rfl).trans hnodes
      have hpassed : offers.flatMap Offer.nodes = List.replicate (m node.label * count) node := by
        calc offers.flatMap Offer.nodes
            = offers.flatMap fun offer => List.replicate (m offer.node.label) offer.node := by
              refine List.flatMap_congr fun offer hoffer => ?_
              obtain ⟨_, _, hanswers⟩ := hround.exists_step_of_mem hoffer
              exact hrule.nodes_eq hanswers
          _ = (offers.map Offer.node).flatMap fun node => List.replicate (m node.label) node := by
              rw [List.flatMap_map]
          _ = (List.replicate count node).flatMap (List.replicate (m node.label)) := by
              rw [hoffered]
              refine List.flatMap_congr fun other hother => ?_
              rw [List.eq_of_mem_replicate hother]
          _ = List.replicate (m node.label * count) node := flatMap_replicate_replicate _ _ _
      cases hrelay with
      | cons hrelay =>
          rw [ih hothers hrelay hpassed, List.map_cons, List.prod_cons, ← Nat.mul_assoc,
            Nat.mul_comm (m node.label)]

/-- Every dispatch leaves its own node, as often as its label says. -/
def Trace.Multiplies (m : Label → Nat) (trace : Trace Node) : Prop :=
  ∀ inner ∈ trace.dispatches,
    inner.survivors = List.replicate (m inner.node.label) inner.node

theorem Follows.multiplies {rules : List (Rule σ ε Node)} {factors : List (Label → Nat)}
    (hrules : List.Forall₂ Rule.Multiplies rules factors)
    {start finish : Workspace σ} {trace : Trace Node} (h : Follows rules start trace finish) :
    trace.Multiplies fun label => (factors.map (· label)).prod := by
  intro inner hinner
  obtain ⟨_, _, hfollows⟩ := h.exists_of_mem_dispatches inner hinner
  cases hfollows with
  | dispatch hrelay hrounds _ =>
      have hsurvivors := hrounds.survivors_eq_replicate hrules hrelay List.replicate_one.symm
      rwa [Nat.mul_one] at hsurvivors

namespace Trace.Multiplies

variable {m : Label → Nat} {trace : Trace Node}

theorem node_eq (h : trace.Multiplies m) {survival : Survival Node}
    (hsurvival : survival ∈ trace.survivals) : survival.node = trace.node := by
  have hmem : survival.node ∈ trace.survivors := List.mem_map_of_mem hsurvival
  rw [h trace trace.mem_dispatches_self] at hmem
  exact List.eq_of_mem_replicate hmem

theorem length_survivals (h : trace.Multiplies m) :
    trace.survivals.length = m trace.node.label := by
  have hlength := congrArg List.length (h trace trace.mem_dispatches_self)
  rwa [Trace.survivors, List.length_map, List.length_replicate] at hlength

theorem children_eq (h : trace.Multiplies m) {count : Nat} (horderly : trace.Orderly count)
    {survival : Survival Node} (hsurvival : survival ∈ trace.survivals) :
    survival.children.map Trace.node = trace.node.children := by
  rw [horderly.children_eq survival hsurvival, h.node_eq hsurvival]
  rfl

theorem label_output (h : trace.Multiplies m) {count : Nat} (horderly : trace.Orderly count)
    {survival : Survival Node} (hsurvival : survival ∈ trace.survivals) :
    survival.output.label = trace.node.label := by
  rw [horderly.label_output hsurvival, h.node_eq hsurvival]

theorem of_child (h : trace.Multiplies m) {survival : Survival Node}
    (hsurvival : survival ∈ trace.survivals) {child : Trace Node}
    (hchild : child ∈ survival.children) : child.Multiplies m :=
  fun inner hinner => h inner (mem_dispatches_of_below hsurvival hchild hinner)

/-- **What is dispatched.** Every appearance is dispatched as often as its place is repeated. -/
theorem map_node_dispatches_perm {count : Nat} (h : trace.Multiplies m)
    (horderly : ∀ inner ∈ trace.dispatches, inner.Orderly count) :
    (trace.dispatches.map Trace.node).Perm
      (trace.node.appearances.flatMap fun x => List.replicate (x.reach m) x.node) := by
  induction trace using Trace.inductionOn with
  | dispatch node rounds survivals ih =>
      obtain ⟨hself, hinner⟩ := Trace.forall_mem_dispatches_iff.mp horderly
      let below : List Node := node.children.flatMap fun child =>
        child.appearances.flatMap fun x => List.replicate (x.reach m) x.node
      have hchildren : ∀ survival ∈ survivals,
          (survival.children.flatMap fun child => child.dispatches.map Trace.node).Perm below := by
        intro survival hsurvival
        have hnodes : survival.children.map Trace.node = node.children :=
          h.children_eq hself hsurvival
        refine (List.Perm.flatMap_left _ fun child hchild => ?_).trans
          (List.Perm.of_eq (hnodes ▸ (List.flatMap_map ..).symm))
        exact ih survival hsurvival child hchild (h.of_child hsurvival hchild)
          (hinner survival hsurvival child hchild)
      have hbelow : below.flatMap (List.replicate (m node.label)) =
          ((node.children.flatMap Tree.appearances).map (Appearance.under node)).flatMap fun x =>
            List.replicate (x.reach m) x.node := by
        rw [List.flatMap_map, List.flatMap_assoc, List.flatMap_assoc]
        refine List.flatMap_congr fun child _ => ?_
        rw [List.flatMap_assoc]
        refine List.flatMap_congr fun x _ => ?_
        rw [flatMap_replicate_replicate, Appearance.reach_under, Appearance.node_under]
      have hlength : survivals.length = m node.label := h.length_survivals
      rw [Trace.dispatches_eq, Trace.node_dispatch, Trace.survivals_dispatch, List.map_cons,
        List.map_flatMap, Tree.appearances_eq, List.flatMap_cons, Appearance.reach_root, ← hbelow]
      simp only [List.map_flatMap]
      refine List.Perm.cons _ ((List.Perm.flatMap_left _ hchildren).trans ?_)
      rw [flatMap_const, hlength]
      exact flatten_replicate_perm _ _

theorem node_mem_preorder {count : Nat} (h : trace.Multiplies m)
    (horderly : ∀ inner ∈ trace.dispatches, inner.Orderly count) {inner : Trace Node}
    (hinner : inner ∈ trace.dispatches) : inner.node ∈ trace.node.preorder := by
  have hmem : inner.node ∈ trace.dispatches.map Trace.node := List.mem_map_of_mem hinner
  rw [(h.map_node_dispatches_perm horderly).mem_iff, List.mem_flatMap] at hmem
  obtain ⟨x, hx, hnode⟩ := hmem
  rw [List.eq_of_mem_replicate hnode]
  exact Tree.node_mem_preorder hx

theorem length_dispatches {count : Nat} (h : trace.Multiplies m)
    (horderly : ∀ inner ∈ trace.dispatches, inner.Orderly count) :
    trace.dispatches.length = (trace.node.appearances.map (Appearance.reach m)).sum := by
  have hlength := (h.map_node_dispatches_perm horderly).length_eq
  simpa only [List.length_map, List.length_flatMap, List.length_replicate] using hlength

/-- All that survives, in all dispatches, is as much as stands in the result. -/
theorem length_survivors {count : Nat} (h : trace.Multiplies m)
    (horderly : ∀ inner ∈ trace.dispatches, inner.Orderly count) :
    (trace.dispatches.flatMap Trace.survivors).length = (trace.node.replicas m).length := by
  have hdispatched := (h.map_node_dispatches_perm horderly).flatMap_right
    fun node => List.replicate (m node.label) node
  calc (trace.dispatches.flatMap Trace.survivors).length
      = ((trace.dispatches.map Trace.node).flatMap fun node =>
          List.replicate (m node.label) node).length := by
        rw [List.flatMap_map]
        exact congrArg List.length (List.flatMap_congr h)
    _ = (trace.node.appearances.flatMap fun x => List.replicate (x.weight m) x.node).length := by
        rw [hdispatched.length_eq, List.flatMap_assoc]
        refine congrArg List.length (List.flatMap_congr fun x _ => ?_)
        rw [x.weight_eq, Nat.mul_comm, ← flatMap_replicate_replicate]
        refine List.flatMap_congr fun node hnode => ?_
        rw [List.eq_of_mem_replicate hnode]
    _ = (trace.node.replicas m).length := by
        rw [(trace.node.replicas_perm m).length_eq]
        simp only [List.length_flatMap, List.length_replicate]

section Settled

variable {heap : Heap Node} {count : Nat} (h : trace.Multiplies m)
  (hsettled : ∀ inner ∈ trace.dispatches, inner.Settled heap count)

include h hsettled

/-- What stands for a node is one and the same object where nothing below it changes. -/
theorem output_eq {survival : Survival Node} (hsurvival : survival ∈ trace.survivals)
    (hstill : trace.node.Still m) : survival.output = trace.node := by
  obtain ⟨hself, hinner⟩ := Trace.forall_mem_dispatches_iff.mp hsettled
  have hchildren : ∀ child ∈ survival.children, child.IsUntouched := by
    intro child hchild
    have hbelow := hinner survival hsurvival child hchild
    rw [Trace.isUntouched_iff_quiet hbelow]
    intro inner hmem
    have hnode : child.node ∈ trace.node.children := by
      rw [← h.children_eq hself.orderly hsurvival]
      exact List.mem_map_of_mem hchild
    have hone : m inner.node.label = 1 :=
      hstill child.node hnode inner.node ((h.of_child hsurvival hchild).node_mem_preorder
        (fun deeper hdeeper => (hbelow deeper hdeeper).orderly) hmem)
    rw [h.of_child hsurvival hchild inner hmem, hone]
    rfl
  rw [Survival.output, (hself.orderly.copy_eq_none_iff survival hsurvival).mpr hchildren,
    Option.getD_none, h.node_eq hsurvival]

theorem outputs_eq_replicate (hstill : trace.node.Still m) :
    trace.outputs = List.replicate (m trace.node.label) trace.node := by
  rw [← h.length_survivals, ← List.map_const']
  exact List.map_congr_left fun survival hsurvival => h.output_eq hsettled hsurvival hstill

/-- **What a node becomes.** -/
theorem outline_output {survival : Survival Node} (hsurvival : survival ∈ trace.survivals) :
    survival.output.outline = trace.node.outline.image m := by
  induction trace using Trace.inductionOn generalizing survival with
  | dispatch node rounds survivals ih =>
      obtain ⟨hself, hinner⟩ := Trace.forall_mem_dispatches_iff.mp hsettled
      have hlabel : survival.output.label = node.label := h.label_output hself.orderly hsurvival
      have hnodes : survival.children.map Trace.node = node.children :=
        h.children_eq hself.orderly hsurvival
      have hbelow : survival.output.children = survival.children.flatMap Trace.outputs :=
        Trace.children_output hsettled hsurvival
      have hchildren : survival.output.children.map Tree.outline =
          node.outline.children.flatMap fun child =>
            List.replicate (m child.label) (child.image m) := by
        calc survival.output.children.map Tree.outline
            = survival.children.flatMap fun child => child.outputs.map Tree.outline := by
              rw [hbelow, List.map_flatMap]
          _ = survival.children.flatMap fun child =>
                List.replicate (m child.node.label) (child.node.outline.image m) := by
              refine List.flatMap_congr fun child hmem => ?_
              have hmult := h.of_child hsurvival hmem
              rw [← hmult.length_survivals, ← List.map_const', Trace.outputs, List.map_map]
              exact List.map_congr_left fun inner hinner' =>
                ih survival hsurvival child hmem hmult (hinner survival hsurvival child hmem) hinner'
          _ = node.outline.children.flatMap fun child =>
                List.replicate (m child.label) (child.image m) := by
              rw [← Tree.map_outline_children, ← hnodes, List.flatMap_map, List.flatMap_map]
              simp only [Tree.label_eq_outline_label]
      rw [Trace.node_dispatch, Outline.image_eq, ← hchildren, ← Tree.label_eq_outline_label, ← hlabel]
      obtain ⟨_, _, _⟩ := survival.output
      exact Tree.outline_node _ _ _

theorem replaces : Node.Replaces m trace.node trace.outputs where
  outlines_eq := by
    rw [← h.length_survivals, ← List.map_const', Trace.outputs, List.map_map]
    exact List.map_congr_left fun survival hsurvival => h.outline_output hsettled hsurvival
  eq_of_still := h.outputs_eq_replicate hsettled

theorem images {survival : Survival Node} (hsurvival : survival ∈ trace.survivals) :
    Node.Images m trace.node survival.output where
  outline_eq := h.outline_output hsettled hsurvival
  eq_of_still := h.output_eq hsettled hsurvival
  blocks := by
    obtain ⟨hself, hinner⟩ := Trace.forall_mem_dispatches_iff.mp hsettled
    have hnodes : survival.children.map Trace.node = trace.node.children :=
      h.children_eq hself.orderly hsurvival
    refine ⟨survival.children.map Trace.outputs, ?_, ?_⟩
    · rw [← hnodes, List.forall₂_map_left_iff, List.forall₂_map_right_iff, List.forall₂_same]
      intro child hmem
      exact (h.of_child hsurvival hmem).replaces (hinner survival hsurvival child hmem)
    · rw [← List.flatMap_def]
      exact Trace.children_output hsettled hsurvival

/-- **What stands where.** The appearances in the result are those of the root as often as they are
repeated, with the labels on the way to them. -/
theorem forall₂_replicas :
    List.Forall₂ (fun x y => y.labels = x.labels ∧ Node.Images m x.node y.node)
      (trace.node.replicas m) (trace.outputs.flatMap Tree.appearances) := by
  induction trace using Trace.inductionOn with
  | dispatch node rounds survivals ih =>
      obtain ⟨hself, hinner⟩ := Trace.forall_mem_dispatches_iff.mp hsettled
      have hlength : survivals.length = m node.label := h.length_survivals
      rw [Trace.node_dispatch, Tree.replicas_eq, ← hlength, ← flatMap_const]
      change List.Forall₂ _ _ ((survivals.map Survival.output).flatMap Tree.appearances)
      rw [List.flatMap_map]
      refine forall₂_flatMap fun survival hsurvival => ?_
      have hnodes : survival.children.map Trace.node = node.children :=
        h.children_eq hself.orderly hsurvival
      have hbelow : survival.output.children = survival.children.flatMap Trace.outputs :=
        Trace.children_output hsettled hsurvival
      have hlabel : survival.output.label = node.label := h.label_output hself.orderly hsurvival
      rw [Tree.appearances_eq, hbelow, ← hnodes]
      refine .cons ⟨?_, h.images hsettled hsurvival⟩ ?_
      · exact congrArg (fun label => [label]) hlabel
      · rw [List.forall₂_map_left_iff, List.forall₂_map_right_iff, List.flatMap_map,
          List.flatMap_assoc]
        refine forall₂_flatMap fun child hmem => ?_
        refine (ih survival hsurvival child hmem (h.of_child hsurvival hmem)
          (hinner survival hsurvival child hmem)).imp ?_
        rintro x y ⟨hlabels, himages⟩
        refine ⟨?_, himages⟩
        rw [Appearance.labels_under, Appearance.labels_under, hlabels, hlabel]

end Settled

end Trace.Multiplies

/-- Honest rules that multiply leave a trace in which every dispatch does. -/
theorem exists_trace_of_multiplies {rules : List (Rule σ ε Node)} {factors : List (Label → Nat)}
    (hrules : List.Forall₂ Rule.Multiplies rules factors) {refs : σ → Set Node}
    (honest : ∀ rule ∈ rules, rule.Honest refs) {heap : Heap Node} {root : Node}
    (hroot : root ∈ heap.objects) {run : Run σ} (hcovers : heap.Covers refs run.workspace)
    {depth : Nat} (hdepth : Host.subtreeDepth root ≤ depth) :
    ∃ trace after later, (dispatch rules depth root).run run = (.ok trace.outputs, after) ∧
      trace.node = root ∧ Leaves rules run trace after ∧
      (∀ inner ∈ trace.dispatches, inner.Settled later rules.length) ∧
      trace.Multiplies fun label => (factors.map (· label)).prod := by
  obtain ⟨_, after, hrun⟩ := exists_ok_of_multiplies hrules hdepth run
  obtain ⟨trace, rfl, rfl, hleaves⟩ := dispatch_ok hrun
  obtain ⟨later, hsettled⟩ := hleaves.follows.exists_settled honest hroot hcovers
  exact ⟨trace, after, later, hrun, rfl, hleaves, hsettled, hleaves.follows.multiplies hrules⟩

end Dispatch

namespace Catalogue

variable {count : Nat}

/-- The rules of the catalogue that delete, double or triple what they want. -/
theorem Entry.repeats (scope : String) {entry : Entry}
    (hvisit : ∀ node, entry.visit node = pure (List.replicate count node)) :
    (entry.ruleType scope).rule.Repeats (fun label => entry.wantedKind == some label.kind) count where
  wants := entry.run_wants_fst
  visit node _ workspace := ⟨workspace, congrArg (fun visit => visit.run workspace) (hvisit node)⟩

theorem pipeline_repeats (scope : String) {entries : List Entry}
    (hvisit : ∀ entry ∈ entries, ∀ node, entry.visit node = pure (List.replicate count node)) :
    List.Forall₂ (fun rule p => Rule.Repeats rule p count)
      (RuleType.instances (pipeline scope entries).rules)
      (entries.map fun entry label => entry.wantedKind == some label.kind) := by
  induction entries with
  | nil => exact .nil
  | cons entry entries ih =>
      obtain ⟨hentry, hentries⟩ := List.forall_mem_cons.mp hvisit
      refine .cons ((Entry.repeats scope hentry).on _) ?_
      refine List.forall₂_map_left_iff.mpr ((ih hentries).imp fun rule p hrule => ?_)
      exact hrule.on _

/-- A first run over a tree that was just built. -/
theorem exists_heap_of_build (blueprint : NodeBlueprint) : ∃ heap : Heap Node,
    (blueprint.build.run {}).1 ∈ heap.objects ∧ ∀ entries : List Entry,
      heap.Covers (Context.refs ·.1) (firstRun entries (blueprint.build.run {}).2.next).workspace := by
  obtain ⟨heap, -, hsupply, hmem⟩ := Heap.allocates_build (.empty : Heap Node) blueprint
  exact ⟨heap, hmem, fun entries => ⟨hsupply, nofun⟩⟩

end Catalogue

end TreeRules
