import TreeRules.Proofs.Isolation
import TreeRules.Proofs.OutputLabels
import TreeRules.Proofs.Renaming
import TreeRules.Proofs.Success

/-!
# Relabelling

A rule relabels when it emits one node for the visited one, around the same children. Then the
working list never holds more than one node, and a dispatch is its node's way through all rules
followed by the dispatches of the children. So the whole run is one fold over the appearances in
preorder, although a parent is rebuilt only after its children.
-/

namespace TreeRules

open Dispatch

variable {σ τ ε : Type}

/-- The outline without its labels. -/
def Outline.shape {α : Type} (tree : Outline α) : Outline Unit := tree.map fun _ => ()

namespace Thread

variable {S α : Type} {step : S → α → S → Prop} {start mid finish : S} {items more : List α}

theorem append (h : Thread step start items mid) (h' : Thread step mid more finish) :
    Thread step start (items ++ more) finish := by
  induction h with
  | nil _ => exact h'
  | cons hstep _ ih => exact .cons hstep (ih h')

end Thread

/-- Lets the rule have the node, and goes on with what the rule leaves in its place. -/
def Rule.pass (rule : Rule σ ε Node) (node : Node) : RuleM σ ε Node := do
  return (Offer.nodes ⟨node, ← rule.ask node⟩).headD node

/-- Lets the rules have the node, one after the other. -/
def passAll (rules : List (Rule σ ε Node)) (node : Node) : RuleM σ ε Node :=
  rules.foldlM (fun node rule => rule.pass node) node

/-- In whatever state the rule wants a node, its visit emits exactly one node, around the same
children. -/
def Rule.Relabels (rule : Rule σ ε Node) : Prop :=
  ∀ node shared, ((rule.wants node).run shared).1 = true → ∀ workspace, ∃ new after,
    (rule.visit node).run workspace = (.ok [new], after) ∧ new.children = node.children

namespace Rule.Relabels

theorem on {rule : Rule τ ε Node} (h : rule.Relabels) (part : Part σ τ) :
    (rule.on part).Relabels := by
  intro node shared hwants workspace
  obtain ⟨new, after, hvisited, hchildren⟩ :=
    h node (part.get shared) hwants ⟨part.get workspace.shared, workspace.supply⟩
  refine ⟨new, ⟨part.set after.shared workspace.shared, after.supply⟩, ?_, hchildren⟩
  change part.zoomRule (rule.visit node) workspace = _
  simp only [Part.zoomRule, hvisited]

variable {rule : Rule σ ε Node} (h : rule.Relabels)

include h

theorem neverFails : rule.NeverFails := by
  intro node shared hwants workspace
  obtain ⟨new, after, hvisited, -⟩ := h node shared hwants workspace
  exact ⟨[new], after, hvisited⟩

theorem emits (node : Node) :
    rule.Emits node fun emitted => Host.subtreeDepth emitted ≤ Host.subtreeDepth node := by
  intro shared hwants workspace nodes hnodes emitted hemitted
  obtain ⟨new, _, hvisited, hchildren⟩ := h node shared hwants workspace
  rw [hvisited] at hnodes
  rw [← Except.ok.inj hnodes, List.mem_singleton] at hemitted
  have hbelow : Host.children emitted = Host.children node := by rw [hemitted]; exact hchildren
  rw [Host.subtreeDepth_eq, Host.subtreeDepth_eq, hbelow]

theorem exists_pass {offer : Offer Node} {before after : Workspace σ}
    (hanswers : Answers rule before offer after) :
    ∃ new, offer.nodes = [new] ∧ new.children = offer.node.children ∧
      (rule.pass offer.node).run before = (.ok new, after) := by
  have hpass : (rule.pass offer.node).run before =
      (.ok (offer.nodes.headD offer.node), after) := by
    rw [Rule.pass, run_bind, show (rule.ask offer.node).run before = _ from hanswers]
    rfl
  rcases hanswers.refused_or_visited with ⟨_, _, hnone⟩ | ⟨shared, nodes, hwants, hvisit, hsome⟩
  · have hnodes : offer.nodes = [offer.node] := by rw [Offer.nodes, hnone, Option.getD_none]
    rw [hnodes] at hpass
    exact ⟨offer.node, hnodes, rfl, hpass⟩
  · obtain ⟨new, _, hvisited, hchildren⟩ :=
      h offer.node before.shared (congrArg Prod.fst hwants) { before with shared }
    rw [hvisit] at hvisited
    have hnodes : offer.nodes = [new] := by
      rw [Offer.nodes, hsome, Option.getD_some]
      exact Except.ok.inj (Prod.ext_iff.mp hvisited).1
    rw [hnodes] at hpass
    exact ⟨new, hnodes, hchildren, hpass⟩

end Rule.Relabels

namespace Dispatch

variable {rules : List (Rule σ ε Node)}

/-- The working list holds one node, on its way through the rules. -/
theorem Rounds.exists_passAll (hrules : ∀ rule ∈ rules, rule.Relabels) {start finish : Workspace σ}
    {rounds : List (List (Offer Node))} (h : Rounds rules start rounds finish)
    {nodes survivors : List Node} (hrelay : Relay nodes rounds survivors) {node : Node}
    (hnodes : nodes = [node]) :
    ∃ new, survivors = [new] ∧ new.children = node.children ∧
      (passAll rules node).run start = (.ok new, finish) := by
  induction h generalizing nodes node with
  | nil workspace => exact ⟨node, hrelay.eq_of_nil.trans hnodes, rfl, rfl⟩
  | @cons rule rules start next finish offers rounds hround _ ih =>
      obtain ⟨hrule, hrules⟩ := List.forall_mem_cons.mp hrules
      have hoffered : offers.map Offer.node = [node] := (hrelay.map_node_head rfl).trans hnodes
      obtain ⟨offer, rfl, rfl⟩ := List.map_eq_singleton_iff.mp hoffered
      cases hrelay with
      | cons hrelay =>
          cases hround with
          | cons hanswers hnil =>
              cases hnil
              obtain ⟨passed, hpassed, hchildren, hpass⟩ := hrule.exists_pass hanswers
              have hlist : [offer].flatMap Offer.nodes = [passed] := by
                rw [List.flatMap_singleton, hpassed]
              obtain ⟨new, hsurvivors, hnew, hrest⟩ := ih hrules hrelay hlist
              refine ⟨new, hsurvivors, hnew.trans hchildren, ?_⟩
              rw [passAll, List.foldlM_cons, run_bind, hpass]
              exact hrest

/-- The node goes through all rules and comes out with the label; identities come from some
supply. -/
def Passes (rules : List (Rule σ ε Node)) (before : σ) (item : Node × Label) (after : σ) : Prop :=
  ∃ supply new workspace, (passAll rules item.1).run ⟨before, supply⟩ = (.ok new, workspace) ∧
    new.label = item.2 ∧ workspace.shared = after

/-- The new trees have the shapes of the old ones, and their labels come from one fold over the
appearances of the nodes of the old ones. -/
structure Folds (rules : List (Rule σ ε Node)) (before : σ) (olds news : List Node) (after : σ) :
    Prop where
  shapes_eq : news.map (fun node => node.outline.shape) = olds.map fun node => node.outline.shape
  exists_thread : ∃ items : List (Node × Label),
    items.map Prod.fst = olds.flatMap Tree.preorder ∧
    items.map Prod.snd = (news.flatMap Tree.preorder).map Tree.label ∧
    Thread (Passes rules) before items after

namespace Folds

variable {before mid after : σ}

theorem nil (rules : List (Rule σ ε Node)) (state : σ) : Folds rules state [] [] state :=
  ⟨rfl, [], rfl, rfl, .nil state⟩

theorem append {olds news olds' news' : List Node} (h : Folds rules before olds news mid)
    (h' : Folds rules mid olds' news' after) :
    Folds rules before (olds ++ olds') (news ++ news') after := by
  obtain ⟨hshapes, items, holds, hnews, hthread⟩ := h
  obtain ⟨hshapes', items', holds', hnews', hthread'⟩ := h'
  refine ⟨?_, items ++ items', ?_, ?_, hthread.append hthread'⟩
  · rw [List.map_append, List.map_append, hshapes, hshapes']
  · rw [List.map_append, List.flatMap_append, holds, holds']
  · rw [List.map_append, List.flatMap_append, List.map_append, hnews, hnews']

/-- First the node itself, then what lies below it. -/
theorem node {old new : Node} (hpasses : Passes rules before (old, new.label) mid)
    (hbelow : Folds rules mid old.children new.children after) :
    Folds rules before [old] [new] after := by
  obtain ⟨hshapes, items, holds, hnews, hthread⟩ := hbelow
  refine ⟨?_, (old, new.label) :: items, ?_, ?_, .cons hpasses hthread⟩
  · obtain ⟨_, _, _⟩ := old
    obtain ⟨_, _, _⟩ := new
    simpa [Outline.shape, Function.comp_def] using hshapes
  · rw [List.map_cons, holds, List.flatMap_singleton, Tree.preorder_eq old]
  · rw [List.map_cons, hnews, List.flatMap_singleton, Tree.preorder_eq new, List.map_cons]

end Folds

theorem folds_of_thread {P : Workspace σ → Trace Node → Workspace σ → Prop}
    {start finish : Workspace σ} {children : List (Trace Node)} (h : Thread P start children finish)
    (hstep : ∀ child ∈ children, ∀ v w, P v child w →
      Folds rules v.shared [child.node] child.outputs w.shared) :
    Folds rules start.shared (children.map Trace.node) (children.flatMap Trace.outputs)
      finish.shared := by
  induction h with
  | nil state => exact .nil rules state.shared
  | @cons start next finish child rest hchild _ ih =>
      obtain ⟨hhead, htail⟩ := List.forall_mem_cons.mp hstep
      exact (hhead _ _ hchild).append (ih htail)

/-- **A dispatch is a fold.** First the node passes all rules, and then its children are dispatched;
copies take identities, and nothing else. -/
theorem Follows.folds (hrules : ∀ rule ∈ rules, rule.Relabels) {start finish : Workspace σ}
    {trace : Trace Node} (h : Follows rules start trace finish) {heap : Heap Node} {count : Nat}
    (hsettled : ∀ inner ∈ trace.dispatches, inner.Settled heap count) :
    Folds rules start.shared [trace.node] trace.outputs finish.shared := by
  refine Follows.induction
    (P := fun v trace w => (∀ inner ∈ trace.dispatches, inner.Settled heap count) →
      Folds rules v.shared [trace.node] trace.outputs w.shared)
    (Q := fun v survival w =>
      (∀ child ∈ survival.children, ∀ inner ∈ child.dispatches, inner.Settled heap count) →
        Folds rules v.shared survival.node.children (survival.children.flatMap Trace.outputs)
          w.shared) ?_ ?_ ?_ h hsettled
  · intro start next finish node rounds survivals hrelay hrounds hsurvivals hsettled
    obtain ⟨hself, hinner⟩ := Trace.forall_mem_dispatches_iff.mp hsettled
    obtain ⟨new, hsurvivors, hchildren, hpass⟩ := hrounds.exists_passAll hrules hrelay rfl
    obtain ⟨survival, rfl, rfl⟩ := List.map_eq_singleton_iff.mp hsurvivors
    have hmem : survival ∈ [survival] := List.mem_singleton_self _
    cases hsurvivals with
    | cons hstep hnil =>
        cases hnil
        have hfolds := hstep.2 (hinner survival hmem)
        rw [hchildren] at hfolds
        refine Folds.node ⟨start.supply, survival.node, next, hpass, ?_, rfl⟩ ?_
        · exact (hself.orderly.label_output hmem).symm
        · rw [Trace.children_output hsettled hmem]
          exact hfolds
  · intro start finish node children hnodes hchildren _ hsettled
    have hfolds := folds_of_thread hchildren fun child hchild v w hstep =>
      hstep.2 (hsettled child hchild)
    rw [hnodes] at hfolds
    exact hfolds
  · intro start finish node children hnodes hchildren _ hsettled
    have hfolds := folds_of_thread hchildren fun child hchild v w hstep =>
      hstep.2 (hsettled child hchild)
    rw [hnodes] at hfolds
    exact hfolds

end Dispatch

section Blind

variable {same : σ → σ → Prop} {left right : Node}

theorem Rule.Blind.pass {rule : Rule σ ε Node} (h : rule.Blind same)
    (houtline : left.outline = right.outline) :
    RuleM.Mirrors same (fun left right => left.outline = right.outline) (rule.pass left)
      (rule.pass right) := by
  refine (h.ask houtline).bind fun _ _ replacement replacement' hreplacement => .pure ?_
  match replacement, replacement', hreplacement with
  | none, none, _ => exact houtline
  | some [], some [], _ => exact houtline
  | some (_ :: _), some (_ :: _), hreplacement =>
      exact (List.cons.inj (Option.some.inj hreplacement)).1

theorem passAll_mirrors {rules : List (Rule σ ε Node)} (blind : ∀ rule ∈ rules, rule.Blind same)
    (houtline : left.outline = right.outline) :
    RuleM.Mirrors same (fun left right => left.outline = right.outline) (passAll rules left)
      (passAll rules right) :=
  Paired.foldlM (fun rule hrule _ _ _ _ h => (blind rule hrule).pass h) houtline

/-- For rules that are blind to identities it does not matter from which supply these come. -/
theorem exists_mapM_of_thread {rules : List (Rule σ ε Node)}
    (blind : ∀ rule ∈ rules, rule.Blind same) {before after : σ} {items : List (Node × Label)}
    (h : Thread (Passes rules) before items after) {workspace : Workspace σ}
    (hsame : same before workspace.shared) :
    ∃ news final,
      ((items.map Prod.fst).mapM (passAll rules)).run workspace = (.ok news, final) ∧
      news.map Tree.label = items.map Prod.snd ∧ same after final.shared := by
  induction h generalizing workspace with
  | nil state => exact ⟨[], workspace, rfl, rfl, hsame⟩
  | @cons start next finish item items hstep _ ih =>
      obtain ⟨node, label⟩ := item
      obtain ⟨supply, new, mid, hpass, rfl, rfl⟩ := hstep
      obtain ⟨_, _, hmid, hagree⟩ := passAll_mirrors blind (rfl : node.outline = node.outline)
        ⟨start, supply⟩ workspace hsame
      rw [hpass] at hmid hagree
      rcases hother : (passAll rules node).run workspace with ⟨_ | new', mid'⟩ <;>
        rw [hother] at hmid hagree
      · cases hagree
      · cases hagree with
        | ok houtline =>
            obtain ⟨news, final, hrun, hlabels, hfinal⟩ := ih hmid
            refine ⟨new' :: news, final, ?_, ?_, hfinal⟩
            · rw [List.map_cons, List.mapM_cons, run_bind, hother]
              dsimp only
              rw [run_bind, hrun]
              rfl
            · rw [List.map_cons, List.map_cons, hlabels, Tree.label_eq_outline_label,
                Tree.label_eq_outline_label new, houtline]

end Blind

/-- The label under a number. -/
def Label.numbered (number : Nat) (label : Label) : Label where
  kind := label.kind
  text := some (label.text.getD "" ++ "_" ++ toString number)

/-- The labels with the identifiers among them numbered from zero. -/
def Label.numberAll (labels : List Label) : List Label :=
  labels.mapIdx fun place label =>
    if label.kind = .identifier then
      label.numbered ((labels.take place).countP fun earlier => earlier.kind = .identifier)
    else label

/-- The labels with the identifiers among them numbered from the given number on. -/
def Label.numberFrom : Nat → List Label → List Label
  | _, [] => []
  | next, label :: rest =>
    if label.kind = .identifier then label.numbered next :: numberFrom (next + 1) rest
    else label :: numberFrom next rest

theorem Label.numberFrom_eq (next : Nat) (labels : List Label) :
    numberFrom next labels = labels.mapIdx fun place label =>
      if label.kind = .identifier then
        label.numbered (next + (labels.take place).countP fun earlier => earlier.kind = .identifier)
      else label := by
  induction labels generalizing next with
  | nil => rfl
  | cons label rest ih =>
      rw [List.mapIdx_cons, numberFrom]
      by_cases hkind : label.kind = .identifier
      · simp [hkind, ih, Nat.add_assoc, Nat.add_comm 1]
      · simp [hkind, ih]

theorem Label.numberFrom_zero (labels : List Label) : numberFrom 0 labels = numberAll labels := by
  rw [numberFrom_eq, numberAll]
  simp only [Nat.zero_add]

namespace Catalogue

variable (scope : String)

theorem numberIdentifiers_relabels : ∀ rule ∈ RuleType.instances
    (pipeline scope [.numberIdentifiers]).rules, rule.Relabels := by
  have hrule : (Entry.numberIdentifiers.ruleType scope).rule.Relabels :=
    fun node _ _ workspace => ⟨_, _, rfl, rfl⟩
  exact List.forall_mem_singleton.mpr (hrule.on RuleType.headPart)

/-- The state of an instance that numbers identifiers, with the next number. -/
abbrev Numbering := Context × RuleType.Memories (pipeline scope [.numberIdentifiers]).rules

def Numbering.next {scope : String} (state : Numbering scope) : Nat := state.2.1.next

theorem passes_numberIdentifiers {before after : Numbering scope} {node : Node} {label : Label}
    (h : Passes (RuleType.instances (pipeline scope [.numberIdentifiers]).rules) before (node, label)
      after) :
    if node.kind = .identifier then
      label = node.label.numbered before.next ∧ after.next = before.next + 1
    else label = node.label ∧ after.next = before.next := by
  let rule := (Entry.numberIdentifiers.ruleType scope).rule.on
    (RuleType.headPart : Part (Numbering scope) Entry.State)
  obtain ⟨supply, new, workspace, hpass, rfl, rfl⟩ := h
  have hpass : (rule.pass node >>= pure).run ⟨before, supply⟩ = (.ok new, workspace) := hpass
  rw [bind_pure, Rule.pass, run_bind] at hpass
  have hasked : (rule.wants node).run before = (some .identifier == some node.kind, before) := rfl
  by_cases hkind : node.kind = .identifier
  · rw [if_pos hkind]
    rw [hkind] at hasked
    have hvisited : (rule.visit node).run ⟨before, supply⟩ =
        (.ok [.node supply.next (node.label.numbered before.next) node.children],
          ⟨(before.1, { next := before.next + 1 }, before.2.2), ⟨supply.next + 1⟩⟩) := rfl
    rw [Rule.run_ask_of_visited hasked hvisited] at hpass
    cases hpass
    exact ⟨rfl, rfl⟩
  · rw [if_neg hkind]
    have hunwanted : (some Kind.identifier == some node.kind) = false := by
      simpa using Ne.symm hkind
    rw [hunwanted] at hasked
    rw [Rule.run_ask_of_unwanted hasked] at hpass
    cases hpass
    exact ⟨rfl, rfl⟩

/-- Node after node gets its number. -/
theorem numberFrom_of_thread {before after : Numbering scope} {items : List (Node × Label)}
    (h : Thread (Passes (RuleType.instances (pipeline scope [.numberIdentifiers]).rules)) before
      items after) :
    items.map Prod.snd = Label.numberFrom before.next ((items.map Prod.fst).map Tree.label) := by
  induction h with
  | nil _ => rfl
  | @cons start next finish item rest hstep _ ih =>
      obtain ⟨node, label⟩ := item
      have hpasses := passes_numberIdentifiers scope hstep
      rw [List.map_cons, List.map_cons, List.map_cons, Label.numberFrom, ih]
      by_cases hkind : node.kind = .identifier
      · obtain ⟨hlabel, hnext⟩ := (if_pos hkind).mp hpasses
        rw [if_pos (show node.label.kind = .identifier from hkind), hlabel, hnext]
      · rw [if_neg hkind] at hpasses
        obtain ⟨hlabel, hnext⟩ := hpasses
        rw [if_neg (show node.label.kind ≠ .identifier from hkind), hlabel, hnext]

end Catalogue

namespace Dispatch

/-- Honest rules that relabel make one tree of one tree. -/
theorem exists_folds {rules : List (Rule σ ε Node)} (hrules : ∀ rule ∈ rules, rule.Relabels)
    {refs : σ → Set Node} (honest : ∀ rule ∈ rules, rule.Honest refs) {heap : Heap Node}
    {root : Node} (hroot : root ∈ heap.objects) {run : Run σ}
    (hcovers : heap.Covers refs run.workspace) {depth : Nat}
    (hdepth : Host.subtreeDepth root ≤ depth) :
    ∃ out after, (dispatch rules depth root).run run = (.ok [out], after) ∧
      Folds rules run.workspace.shared [root] [out] after.workspace.shared := by
  obtain ⟨_, after, hrun⟩ := exists_ok_of_subtreeDepth_le
    (fun rule hrule => (hrules rule hrule).neverFails)
    (fun rule hrule => (hrules rule hrule).emits) hdepth
  obtain ⟨trace, rfl, rfl, hleaves⟩ := dispatch_ok hrun
  obtain ⟨later, hsettled⟩ := hleaves.follows.exists_settled honest hroot hcovers
  have hfolds := hleaves.follows.folds hrules hsettled
  have hlength := congrArg List.length hfolds.shapes_eq
  rw [List.length_map, List.length_map] at hlength
  obtain ⟨out, hout⟩ := List.length_eq_one_iff.mp hlength
  rw [hout] at hrun hfolds
  exact ⟨out, after, hrun, hfolds⟩

end Dispatch

namespace Catalogue

/-- A unit under the numbering rule. -/
theorem transform_numbers {scope : String} {bench : Bench} {root : Node} (hroot : bench.Has root)
    {depth : Nat} (hdepth : Host.subtreeDepth root ≤ depth) (services : Services)
    (transformer : UnitTransformer Context) :
    ∃ out next later,
      ((pipeline scope [.numberIdentifiers]).transform depth services root transformer).run bench =
        ((.ok (.single out), next), later) ∧
      out.outline.shape = root.outline.shape ∧
      out.preorder.map Tree.label = Label.numberAll (root.preorder.map Tree.label) := by
  obtain ⟨heap, hsupply, hmem⟩ := hroot
  let request : Request Services Node := ⟨services, root, depth, bench⟩
  let prepared := transformer.context.beginUnit services root
  obtain ⟨out, after, hrun, hshapes, items, holds, hnews, hthread⟩ :=
    exists_folds (numberIdentifiers_relabels scope) (pipeline_honest scope _) hmem
      (@unitStart_covers scope _ request heap hsupply hmem transformer.context) hdepth
  have hstart := @unitStart_shared scope [.numberIdentifiers] request prepared
  rw [hstart] at hthread
  have hlabels := numberFrom_of_thread scope hthread
  rw [holds, hnews, List.flatMap_singleton, List.flatMap_singleton] at hlabels
  have hunit : preparedRun scope [.numberIdentifiers] request transformer.context =
      (.ok [out], after) := hrun
  rw [run_transform, UnitTransformer.conclude, hunit]
  refine ⟨out, _, _, rfl, (List.cons.inj hshapes).1, ?_⟩
  rw [← Label.numberFrom_zero]
  exact hlabels

end Catalogue

namespace Dispatch

/-- **Relabelling is one fold in preorder.** Every appearance passes all rules before the next one
does, and the tree that comes out has the shape of the root and the labels of the fold; the rules end
in the states of the fold. Where rules are blind to identities the fold is a plain one. In
particular, the identifiers of every unit are numbered by appearances from zero. -/
theorem dispatch_relabels {rules : List (Rule σ ε Node)} (hrules : ∀ rule ∈ rules, rule.Relabels)
    {refs : σ → Set Node} (honest : ∀ rule ∈ rules, rule.Honest refs) {heap : Heap Node}
    {root : Node} (hroot : root ∈ heap.objects) {run : Run σ}
    (hcovers : heap.Covers refs run.workspace) {depth : Nat}
    (hdepth : Host.subtreeDepth root ≤ depth) :
    (∃ out after, (dispatch rules depth root).run run = (.ok [out], after) ∧
      out.outline.shape = root.outline.shape ∧
      (∃ items : List (Node × Label), items.map Prod.fst = root.preorder ∧
        items.map Prod.snd = out.preorder.map Tree.label ∧
        Thread (Passes rules) run.workspace.shared items after.workspace.shared) ∧
      ∀ same : σ → σ → Prop, (∀ rule ∈ rules, rule.Blind same) →
        same run.workspace.shared run.workspace.shared →
          ∃ news final, (root.preorder.mapM (passAll rules)).run run.workspace = (.ok news, final) ∧
            out.preorder.map Tree.label = news.map Tree.label ∧
            same after.workspace.shared final.shared) ∧
    ∀ (scope : String) (bound : Nat) (services : Catalogue.Services) (unit : Node)
      (transformer : UnitTransformer Catalogue.Context) (bench : Bench), bench.Has unit →
        Host.subtreeDepth unit ≤ bound → ∃ out next later,
          ((Catalogue.pipeline scope [.numberIdentifiers]).transform bound services unit
            transformer).run bench = ((.ok (.single out), next), later) ∧
          out.outline.shape = unit.outline.shape ∧
          out.preorder.map Tree.label = Label.numberAll (unit.preorder.map Tree.label) := by
  constructor
  · obtain ⟨out, after, hrun, hshapes, items, holds, hnews, hthread⟩ :=
      exists_folds hrules honest hroot hcovers hdepth
    rw [List.flatMap_singleton] at holds hnews
    refine ⟨out, after, hrun, (List.cons.inj hshapes).1, ⟨items, holds, hnews, hthread⟩, ?_⟩
    intro same blind hself
    obtain ⟨news, final, hfold, hlabels, hfinal⟩ := exists_mapM_of_thread blind hthread hself
    rw [holds] at hfold
    exact ⟨news, final, hfold, hnews.symm.trans hlabels.symm, hfinal⟩
  · intro scope bound services unit transformer bench hunit hbound
    exact Catalogue.transform_numbers hunit hbound services transformer

end Dispatch

namespace Catalogue

section Sample

/-- A file that holds one identifier object twice. -/
def sharedName : NodeBlueprint := .shared { kind := .sourceFile } 2 (NodeBlueprint.identifier "name")

/-- The two appearances of one identifier get two numbers. -/
theorem dispatch_relabels_sharedName :
    let root := (sharedName.build.run {}).1
    let bench : Bench := { supply := (sharedName.build.run {}).2 }
    ∃ out after next later unit,
      (dispatch (RuleType.instances (pipeline "" [.numberIdentifiers]).rules)
        (Host.subtreeDepth root) root).run (firstRun _ bench.supply.next) = (.ok [out], after) ∧
      out.outline.shape = root.outline.shape ∧
      ((pipeline "" [.numberIdentifiers]).transform (Host.subtreeDepth root)
        { fileName := "unit.ts" } root { context := { compilation := "", message := "" } }).run
        bench = ((.ok (.single unit), next), later) ∧
      unit.preorder.map Tree.label = [{ kind := .sourceFile },
        { kind := .identifier, text := some "name_0" },
        { kind := .identifier, text := some "name_1" }] := by
  intro root bench
  obtain ⟨heap, -, hsupply, hmem⟩ := Heap.allocates_build (.empty : Heap Node) sharedName
  have hcovers : heap.Covers (Context.refs ·.1)
      (firstRun [.numberIdentifiers] bench.supply.next).workspace := ⟨hsupply, nofun⟩
  obtain ⟨⟨out, after, hrun, hshape, -, -⟩, hunits⟩ :=
    dispatch_relabels (numberIdentifiers_relabels "") (pipeline_honest "" _) hmem hcovers
      (le_refl (Host.subtreeDepth root))
  obtain ⟨unit, next, later, htransform, -, hlabels⟩ :=
    hunits "" (Host.subtreeDepth root) { fileName := "unit.ts" } root
      { context := { compilation := "", message := "" } } bench (Bench.has_build sharedName) le_rfl
  refine ⟨out, after, next, later, unit, hrun, hshape, htransform, ?_⟩
  rw [hlabels]
  decide +kernel

end Sample

end Catalogue

end TreeRules
