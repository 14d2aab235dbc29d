import TreeRules.Proofs.PlainDispatch
import TreeRules.Proofs.Preservation

/-!
# Rewriting of outlines

A rule that never fails, and of a node looks at the outline alone, rewrites outlines: step by step
the rules make a list of outlines of one outline. What a run with such rules makes of a whole tree
solves an equation: a node goes through all rules, and every survivor is rebuilt around what its
children become. The equation is about outlines only; nothing of the dispatcher is left in it.
-/

namespace TreeRules

open Dispatch DispatchM

variable {σ τ ε N α β δ : Type}

/-- From a state that is kept, the action gives a value with the property in a state that is kept,
unless it reaches the bound on the nesting. -/
def Attains (kept : Run σ → Prop) (action : DispatchM σ ε β) (post : β → Prop) : Prop :=
  ∀ run, kept run → (action.run run).1 = .error .tooDeep ∨
    ∃ value after, action.run run = (.ok value, after) ∧ kept after ∧ post value

namespace Attains

variable {kept : Run σ → Prop} {post : β → Prop}

theorem pure {value : β} (h : post value) : Attains kept (pure value : DispatchM σ ε β) post :=
  fun run hkept => .inr ⟨value, run, rfl, hkept, h⟩

theorem bind {action : DispatchM σ ε α} {next : α → DispatchM σ ε β} {mid : α → Prop}
    (h : Attains kept action mid) (hnext : ∀ value, mid value → Attains kept (next value) post) :
    Attains kept (action >>= next) post := by
  intro run hkept
  rw [run_bind]
  rcases h run hkept with hdeep | ⟨value, after, hrun, hafter, hmid⟩
  · rcases hrun : action.run run with ⟨halt | value, after⟩ <;> rw [hrun] at hdeep
    · rw [Except.error.inj hdeep]
      exact .inl rfl
    · cases hdeep
  · rw [hrun]
    exact hnext value hmid after hafter

theorem imp {action : DispatchM σ ε β} {post' : β → Prop} (h : Attains kept action post)
    (himp : ∀ value, post value → post' value) : Attains kept action post' := by
  intro run hkept
  refine (h run hkept).imp_right ?_
  rintro ⟨value, after, hrun, hafter, hpost⟩
  exact ⟨value, after, hrun, hafter, himp value hpost⟩

variable {view : β → δ}

theorem flatMapM {f : α → DispatchM σ ε (List β)} {image : α → List δ}
    (h : ∀ item, Attains kept (f item) fun values => values.map view = image item)
    (items : List α) :
    Attains kept (items.flatMapM f) fun values => values.map view = items.flatMap image := by
  induction items with
  | nil => exact pure rfl
  | cons item items ih =>
      rw [List.flatMapM_cons]
      refine (h item).bind fun here hhere => ih.bind fun others hothers => pure ?_
      rw [List.map_append, hhere, hothers, List.flatMap_cons]

theorem mapM {f : α → DispatchM σ ε β} {image : α → δ}
    (h : ∀ item, Attains kept (f item) fun value => view value = image item) (items : List α) :
    Attains kept (items.mapM f) fun values => values.map view = items.map image := by
  induction items with
  | nil => exact pure rfl
  | cons item items ih =>
      rw [List.mapM_cons]
      refine (h item).bind fun here hhere => ih.bind fun others hothers => pure ?_
      rw [List.map_cons, hhere, hothers, List.map_cons]

end Attains

/-- What steps make of a list of outlines, one step after the other. -/
def passThrough (steps : List (Outline α → List (Outline α))) (trees : List (Outline α)) :
    List (Outline α) :=
  steps.foldl (fun trees step => trees.flatMap step) trees

/-- In states that are kept the rule makes of every node what the step makes of its outline. -/
structure Rule.Rewrites (kept : σ → Prop) (rule : Rule σ ε Node)
    (step : Outline Label → List (Outline Label)) : Prop extends rule.Preserves kept where
  refused : ∀ node shared, kept shared → ((rule.wants node).run shared).1 = false →
    step node.outline = [node.outline]
  visited : ∀ node shared, kept shared → ((rule.wants node).run shared).1 = true →
    ∀ workspace, kept workspace.shared → ∃ nodes,
      ((rule.visit node).run workspace).1 = .ok nodes ∧ nodes.map Tree.outline = step node.outline

namespace Rule.Rewrites

variable {kept : σ → Prop} {step : Outline Label → List (Outline Label)}

theorem offer {rule : Rule σ ε Node} (h : rule.Rewrites kept step) (node : Node) :
    Attains (fun run => kept run.workspace.shared) (offer rule node) fun nodes =>
      nodes.map Tree.outline = step node.outline := by
  intro run hkept
  have hafter : kept ((rule.ask node).run run.workspace).2.shared := h.ask hkept
  rcases hasked : (rule.wants node).run run.workspace.shared with ⟨answer, shared⟩
  have hshared := h.wants node run.workspace.shared hkept
  rw [hasked] at hshared
  cases answer with
  | false =>
      have hask := run_ask_of_unwanted hasked
      have hstep := h.refused node run.workspace.shared hkept (congrArg Prod.fst hasked)
      refine .inr ⟨[node], _, offer_ok_iff.mpr ⟨none, _, hask, rfl, rfl⟩, ?_, hstep.symm⟩
      exact hshared
  | true =>
      obtain ⟨nodes, hvisited, hstep⟩ := h.visited node run.workspace.shared hkept
        (congrArg Prod.fst hasked) { run.workspace with shared } hshared
      have hask := run_ask_of_visited hasked (Prod.ext hvisited rfl)
      rw [hask] at hafter
      exact .inr ⟨nodes, _, offer_ok_iff.mpr ⟨some nodes, _, hask, rfl, rfl⟩, hafter, hstep⟩

theorem on {inner : τ → Prop} {rule : Rule τ ε Node} (h : rule.Rewrites inner step)
    {part : Part σ τ} (hget : ∀ whole, kept whole → inner (part.get whole))
    (hset : ∀ small whole, inner small → kept whole → kept (part.set small whole)) :
    (rule.on part).Rewrites kept step where
  toPreserves := h.toPreserves.on hget hset
  refused node shared hkept := h.refused node (part.get shared) (hget shared hkept)
  visited node shared hkept hwants workspace hworkspace :=
    h.visited node (part.get shared) (hget shared hkept) hwants
      ⟨part.get workspace.shared, workspace.supply⟩ (hget workspace.shared hworkspace)

end Rule.Rewrites

namespace Dispatch

variable {kept : σ → Prop} {rules : List (Rule σ ε Node)}
  {steps : List (Outline Label → List (Outline Label))}
  (h : List.Forall₂ (Rule.Rewrites kept) rules steps)

include h

theorem survivors_attain (nodes : List Node) :
    Attains (fun run => kept run.workspace.shared)
      (rules.foldlM (fun nodes rule => nodes.flatMapM (offer rule)) nodes : DispatchM σ ε _)
      fun survivors => survivors.map Tree.outline = passThrough steps (nodes.map Tree.outline) := by
  induction h generalizing nodes with
  | nil => exact .pure rfl
  | @cons rule step rules steps hrule _ ih =>
      rw [List.foldlM_cons]
      refine (Attains.flatMapM hrule.offer nodes).bind fun passed hpassed => ?_
      have hpass : passed.map Tree.outline = (nodes.map Tree.outline).flatMap step := by
        rw [hpassed, List.flatMap_map]
      rw [passThrough, List.foldl_cons, ← hpass]
      exact ih passed

variable {become : Outline Label → List (Outline Label)}
  (hbecome : ∀ tree, become tree = (passThrough steps [tree]).map fun survivor =>
    .node survivor.label (survivor.children.flatMap become))

include hbecome

theorem plainDispatch_attains (depth : Nat) (node : Node) :
    Attains (fun run => kept run.workspace.shared) (plainDispatch rules depth node) fun nodes =>
      nodes.map Tree.outline = become node.outline := by
  induction depth generalizing node with
  | zero => exact fun _ _ => .inl rfl
  | succ depth ih =>
      rw [plainDispatch]
      have hrecord : Attains (fun run => kept run.workspace.shared)
          (record Statistics.recordDispatch : DispatchM σ ε Unit) fun _ => True :=
        fun run hkept => .inr ⟨(), _, rfl, hkept, trivial⟩
      refine hrecord.bind fun _ _ => ?_
      refine (survivors_attain h [node]).bind fun survivors hsurvivors => ?_
      have hrebuild (survivor : Node) : Attains (fun run => kept run.workspace.shared)
          (do
            let children ← (Host.children survivor).flatMapM (plainDispatch rules depth)
            return Host.withChildren (← fresh) children survivor : DispatchM σ ε Node)
          fun node => node.outline = .node survivor.outline.label
            (survivor.outline.children.flatMap become) := by
        refine (Attains.flatMapM ih (Host.children survivor)).bind fun children hchildren => ?_
        refine fun run hkept => .inr ⟨_, _, rfl, hkept, ?_⟩
        obtain ⟨id, label, below⟩ := survivor
        change (Tree.node _ label children).outline = _
        rw [Tree.outline_node, Tree.outline_node, hchildren]
        exact congrArg (Outline.node label) (List.flatMap_map ..).symm
      refine (Attains.mapM hrebuild survivors).imp fun nodes hnodes => ?_
      rw [List.map_singleton] at hsurvivors
      rw [hnodes, hbecome, ← hsurvivors, List.map_map]
      rfl

/-- **Rewriting rules make of a tree what the equation says**, whether or not objects are shared. -/
theorem dispatch_rewrites {refs : σ → Set Node} {same : σ → σ → Prop}
    (honest : ∀ rule ∈ rules, rule.Honest refs) (blind : ∀ rule ∈ rules, rule.Blind same)
    {heap : Heap Node} {root : Node} (hroot : root ∈ heap.objects) {run : Run σ}
    (hcovers : heap.Covers refs run.workspace)
    (hself : same run.workspace.shared run.workspace.shared)
    (hkept : kept run.workspace.shared) {depth : Nat}
    (hdepth : ((dispatch rules depth root).run run).1 ≠ .error .tooDeep) :
    ∃ nodes, ((dispatch rules depth root).run run).1 = .ok nodes ∧
      nodes.map Tree.outline = become root.outline := by
  obtain ⟨_, _, -, hagree⟩ := dispatch_paired honest blind depth
    (⟨hroot, rfl⟩ : Holds heap root root) run run ⟨hcovers, hself, rfl, rfl⟩
  rcases plainDispatch_attains h hbecome depth root run hkept with
    hdeep | ⟨nodes, after, hrun, -, hnodes⟩
  · rw [hdeep] at hagree
    generalize ((dispatch rules depth root).run run).1 = result at hagree hdepth
    cases hagree with
    | error => exact absurd rfl hdepth
  · rw [hrun] at hagree
    generalize ((dispatch rules depth root).run run).1 = result at hagree
    cases hagree with
    | ok hgives =>
        exact ⟨_, rfl, (map_eq_of_forall₂ (hgives.imp fun _ _ => And.right)).trans hnodes⟩

end Dispatch

end TreeRules
