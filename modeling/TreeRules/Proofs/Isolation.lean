import TreeRules.Proofs.CatalogueNesting
import TreeRules.Proofs.PlainDispatch
import TreeRules.Proofs.Preservation
import TreeRules.Proofs.Units

/-!
# Units do not influence each other

All units of a transformer share one context, which every unit and every offer changes, also when the
unit fails halfway. But what rules read of it is the message, which nobody changes, and the name of
the file, which every unit sets anew; their own memories begin anew as well. So a unit becomes what it
would have become alone.
-/

namespace TreeRules

open Dispatch DispatchM

variable {σ ε : Type}

namespace Dispatch

/-- Over rules that are blind to identities, runs from like states over equal roots give equal trees
and record the same, whatever else exists and whatever was journalled before. -/
theorem dispatch_alike {refs : σ → Set Node} {same : σ → σ → Prop} {rules : List (Rule σ ε Node)}
    (honest : ∀ rule ∈ rules, rule.Honest refs) (blind : ∀ rule ∈ rules, rule.Blind same)
    {heap heap' : Heap Node} {left right : Node} (hleft : left ∈ heap.objects)
    (hright : right ∈ heap'.objects) (houtline : left.outline = right.outline) {run run' : Run σ}
    (hcovers : heap.Covers refs run.workspace) (hcovers' : heap'.Covers refs run'.workspace)
    (hself : same run.workspace.shared run.workspace.shared)
    (hsame : same run'.workspace.shared run.workspace.shared)
    (hstatistics : run'.statistics = run.statistics) (depth : Nat) :
    Agree SameOutlines ((dispatch rules depth left).run run).1
        ((dispatch rules depth right).run run').1 ∧
      ((dispatch rules depth left).run run).2.statistics =
        ((dispatch rules depth right).run run').2.statistics := by
  -- Both are paired with one run of the plain dispatcher; the journals have to be equal for that.
  let level : Run σ := { run' with journal := run.journal }
  obtain ⟨_, _, ⟨_, hplain⟩, hagree⟩ := dispatch_paired honest blind depth
    (⟨hleft, rfl⟩ : Holds heap left left) run run ⟨hcovers, hself, rfl, rfl⟩
  obtain ⟨_, _, ⟨_, hplain'⟩, hagree'⟩ := dispatch_paired honest blind depth
    (⟨hright, houtline.symm⟩ : Holds heap' right left) level run
    ⟨hcovers', hsame, hstatistics, rfl⟩
  obtain ⟨hresult, hafter⟩ := @dispatch_butJournal _ _ _ _ rules depth right run' level ⟨rfl, rfl⟩
  constructor
  · rw [hresult]
    refine hagree.of_common hagree' fun nodes nodes' plain hnodes hnodes' => ?_
    have houtlines := map_eq_of_forall₂ (hnodes.imp fun _ _ => And.right)
    have houtlines' := map_eq_of_forall₂ (hnodes'.imp fun _ _ => And.right)
    exact houtlines.trans houtlines'.symm
  · exact hplain.statistics_eq.trans (hplain'.statistics_eq.symm.trans hafter.2.symm)

end Dispatch

def UnitOutput.map {N M : Type} (f : N → M) : UnitOutput N → UnitOutput M
  | .single root => .single (f root)
  | .deleted => .deleted
  | .expanded nodes => .expanded (nodes.map f)

theorem UnitOutput.map_ofNodes {N M : Type} (f : N → M) (nodes : List N) :
    (ofNodes nodes).map f = ofNodes (nodes.map f) := by
  match nodes with
  | [] | [_] | _ :: _ :: _ => rfl

/-- The root and all below it are objects, under identities that were given out already. -/
def Bench.Has (bench : Bench) (root : Node) : Prop :=
  ∃ heap : Heap Node, heap.supply = bench.supply ∧ root ∈ heap.objects

/-- The first tree that is built is on the bench on which it was built. -/
theorem Bench.has_build (blueprint : NodeBlueprint) :
    ({ supply := (blueprint.build.run {}).2 } : Bench).Has (blueprint.build.run {}).1 := by
  obtain ⟨heap, -, hsupply, hmem⟩ := Heap.allocates_build (.empty : Heap Node) blueprint
  exact ⟨heap, hsupply.symm, hmem⟩

namespace Catalogue

namespace Entry

theorem run_visit_context (entry : Entry) (node : Node) (workspace : Workspace State) :
    ((entry.visit node).run workspace).2.shared.1 = workspace.shared.1 := by
  obtain ⟨⟨⟨_, _, fileName, _, _, _⟩, _⟩, _⟩ := workspace
  cases entry with
  | stampFileName => cases fileName <;> rfl
  | _ => rfl

theorem preserves_message (scope : String) (entry : Entry) (message : String) :
    (entry.ruleType scope).rule.Preserves fun state => state.1.message = message where
  wants node state hmessage := by cases entry <;> exact hmessage
  visit node state _ workspace hmessage := by
    have hcontext := run_visit_context entry node workspace
    exact (congrArg Context.message hcontext).trans hmessage

end Entry

variable {scope : String} {entries : List Entry}

theorem pipeline_preserves_message (message : String) :
    ∀ rule ∈ RuleType.instances (pipeline scope entries).rules,
      rule.Preserves fun state => state.1.message = message := by
  have htypes : ∀ type ∈ (pipeline scope entries).rules,
      type.rule.Preserves fun state => state.1.message = message :=
    forall_mem_rules scope entries fun entry => entry.preserves_message scope message
  exact @RuleType.instances_preserve _ _ _ (fun context : Context => context.message = message) _ htypes

def freshMemories : (entries : List Entry) → RuleType.Memories (pipeline scope entries).rules
  | [] => ()
  | _ :: entries => ({}, freshMemories entries)

theorem run_freshAll (context : Context) :
    (RuleType.freshAll (pipeline scope entries).rules).run context =
      (freshMemories entries, context) := by
  induction entries with
  | nil => rfl
  | cons entry entries ih =>
      exact congrArg (fun made => ((({} : Entry.Memory), made.1), made.2)) ih

theorem unitStart_shared (request : Request Services Node) (context : Context) :
    ((pipeline scope entries).unitStart request context).workspace.shared =
      (context, freshMemories entries) :=
  congrArg Prod.swap (run_freshAll context)

section Call

variable (scope : String) (entries : List Entry)

/-- The run of a unit, over the context as it is prepared for it. -/
def preparedRun (request : Request Services Node) (context : Context) :
    Except (Halt Error) (List Node) ×
      Run (Context × RuleType.Memories (pipeline scope entries).rules) :=
  (pipeline scope entries).unitRun request (context.beginUnit request.services request.root)

/-- What a caller sees of a call: how it halted, or the output up to identities and the latest
statistics. -/
def view {halt : Type} (outcome : Except halt (UnitOutput Node))
    (transformer : UnitTransformer Context) :
    Except halt (UnitOutput (Outline Label) × Option Statistics) :=
  outcome.map fun output => (output.map Tree.outline, transformer.lastStatistics)

variable {scope entries} {depth depth' : Nat} {services : Services} {root root' : Node}
  {bench bench' : Bench} {transformer transformer' : UnitTransformer Context}

theorem run_transform :
    ((pipeline scope entries).transform depth services root transformer).run bench =
      transformer.conclude
        (preparedRun scope entries ⟨services, root, depth, bench⟩ transformer.context) :=
  @Pipeline.run_transform_of_begun _ _ _ (pipeline scope entries) _ transformer
    ⟨services, root, depth, bench⟩ _ rfl

theorem view_transform :
    let call := ((pipeline scope entries).transform depth services root transformer).run bench
    let unit := preparedRun scope entries ⟨services, root, depth, bench⟩ transformer.context
    view call.1.1 call.1.2 = unit.1.map fun nodes =>
      (.ofNodes (nodes.map Tree.outline), some unit.2.statistics) := by
  intro call unit
  have hcall : call = transformer.conclude unit := run_transform
  rw [hcall, UnitTransformer.conclude]
  rcases unit.1 with halt | nodes
  · rfl
  · change Except.ok (UnitOutput.map _ _, _) = Except.ok (_, _)
    rw [UnitOutput.map_ofNodes]

theorem transform_context :
    (((pipeline scope entries).transform depth services root transformer).run bench).1.2.context =
      (preparedRun scope entries ⟨services, root, depth, bench⟩
        transformer.context).2.workspace.shared.1 := by
  rw [run_transform]
  exact transformer.context_conclude _

theorem transform_message :
    (((pipeline scope entries).transform depth services root
      transformer).run bench).1.2.context.message = transformer.context.message := by
  rw [transform_context]
  refine dispatch_preserves (pipeline_preserves_message _) depth root ?_
  rw [unitStart_shared]
  rfl

theorem transform_ends (hdepth : Host.subtreeDepth root + 3 ≤ depth) :
    ∃ (outcome : Except Error (UnitOutput Node)) (next : UnitTransformer Context) (later : Bench),
      ((pipeline scope entries).transform depth services root transformer).run bench =
        ((outcome.mapError .failed, next), later) := by
  have hnot : (preparedRun scope entries ⟨services, root, depth, bench⟩ transformer.context).1 ≠
      .error .tooDeep := pipeline_ne_tooDeep scope entries hdepth _
  obtain ⟨result, hresult⟩ := exists_of_ne_tooDeep hnot
  rw [run_transform, UnitTransformer.conclude, hresult]
  cases result with
  | error error => exact ⟨.error error, _, _, rfl⟩
  | ok nodes => exact ⟨.ok (.ofNodes nodes), _, _, rfl⟩

/-- A call that was not cut short does the same with more room. -/
theorem transform_eq_of_le (hle : depth ≤ depth') {outcome : Except Error (UnitOutput Node)}
    {next : UnitTransformer Context} {later : Bench}
    (h : ((pipeline scope entries).transform depth services root transformer).run bench =
      ((outcome.mapError .failed, next), later)) :
    ((pipeline scope entries).transform depth' services root transformer).run bench =
      ((outcome.mapError .failed, next), later) := by
  rw [run_transform] at h ⊢
  have hextends : (preparedRun scope entries ⟨services, root, depth, bench⟩ transformer.context).1 =
        .error .tooDeep ∨
      preparedRun scope entries ⟨services, root, depth', bench⟩ transformer.context =
        preparedRun scope entries ⟨services, root, depth, bench⟩ transformer.context :=
    extends_of_le (dispatch_extends_succ _ · root) hle _
  rcases hextends with hdeep | hsame
  · rw [UnitTransformer.conclude, hdeep] at h
    have houtcome : Except.error Halt.tooDeep = outcome.mapError Halt.failed :=
      congrArg (fun call => call.1.1) h
    exact absurd houtcome.symm (mapError_failed_ne_tooDeep outcome)
  · rw [hsame]
    exact h

theorem unitStart_covers {request : Request Services Node} {heap : Heap Node}
    (hsupply : heap.supply = request.bench.supply) (hroot : request.root ∈ heap.objects)
    (context : Context) : heap.Covers (Context.refs ·.1) ((pipeline scope entries).unitStart request
      (context.beginUnit request.services request.root)).workspace := by
  refine ⟨hsupply.symm, fun node hnode => ?_⟩
  rw [unitStart_shared] at hnode
  have hnode : some request.root = some node := hnode
  rw [← Option.some.inj hnode]
  exact hroot

/-- **A unit becomes the same over any context with the same message.** -/
theorem view_transform_eq (hmessage : transformer.context.message = transformer'.context.message)
    (hroot : bench.Has root) (hroot' : bench'.Has root') (houtline : root.outline = root'.outline) :
    let call := ((pipeline scope entries).transform depth services root transformer).run bench
    let call' := ((pipeline scope entries).transform depth services root' transformer').run bench'
    view call.1.1 call.1.2 = view call'.1.1 call'.1.2 := by
  intro call call'
  obtain ⟨heap, hsupply, hmem⟩ := hroot
  obtain ⟨heap', hsupply', hmem'⟩ := hroot'
  let request : Request Services Node := ⟨services, root, depth, bench⟩
  let request' : Request Services Node := ⟨services, root', depth, bench'⟩
  let unit := preparedRun scope entries request transformer.context
  let unit' := preparedRun scope entries request' transformer'.context
  have hshared := @unitStart_shared scope entries request (transformer.context.beginUnit services root)
  have hshared' := @unitStart_shared scope entries request'
    (transformer'.context.beginUnit services root')
  obtain ⟨hagree, hstatistics⟩ : Agree SameOutlines unit.1 unit'.1 ∧
      unit.2.statistics = unit'.2.statistics := by
    refine dispatch_alike (pipeline_honest scope entries)
      (pipeline_blind_of_blurs scope entries Context.Akin.blurs) hmem hmem' houtline
      (unitStart_covers hsupply hmem transformer.context)
      (unitStart_covers hsupply' hmem' transformer'.context) ⟨⟨rfl, rfl⟩, rfl⟩ ?_ rfl depth
    rw [hshared, hshared']
    exact ⟨⟨hmessage.symm, rfl⟩, rfl⟩
  have hview : view call.1.1 call.1.2 = unit.1.map fun nodes =>
      (.ofNodes (nodes.map Tree.outline), some unit.2.statistics) := view_transform
  have hview' : view call'.1.1 call'.1.2 = unit'.1.map fun nodes =>
      (.ofNodes (nodes.map Tree.outline), some unit'.2.statistics) := view_transform
  rw [hview, hview', hstatistics]
  refine hagree.map_eq fun nodes nodes' hnodes => ?_
  rw [show nodes.map Tree.outline = nodes'.map Tree.outline from hnodes]

end Call

end Catalogue

end TreeRules
