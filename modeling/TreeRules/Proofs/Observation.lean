import TreeRules.Proofs.Bookkeeping
import TreeRules.Proofs.History
import TreeRules.Proofs.Idleness
import TreeRules.Proofs.Session

/-!
# Observation

The context of a compilation counts what observers are asked, over all units; the statistics count
what rules are asked, for each unit anew. Both are compared with the questions themselves, as a log of
the compilation has them. A unit that fails has asked its questions, but leaves no statistics.
-/

namespace TreeRules.Catalogue

open Dispatch DispatchM

/-- The name under which the offers to observers are recorded. -/
def observerName (scope : String) : String := qualified scope Entry.observe.name

namespace Entry

/-- How much a question to the rule moves the counter of the context. -/
def observed (entry : Entry) : Nat := if entry = observe then 1 else 0

theorem run_wants_context (entry : Entry) (node : Node) (state : State) :
    ((entry.wants node).run state).2.1 =
      { state.1 with offered := state.1.offered + entry.observed } := by
  cases entry <;> rfl

theorem offers_observerName (scope : String) (entry : Entry) :
    Event.offers (observerName scope) (.offered (qualified scope entry.name)) = entry.observed := by
  have hname : observerName scope = qualified scope entry.name ↔ entry = observe := by
    rw [observerName, qualified, qualified, String.append_right_inj]
    cases entry <;> decide
  simp only [Event.offers, observed, hname]

theorem gauged_offered (scope : String) (entry : Entry) :
    (entry.ruleType scope).rule.Gauged (fun state => state.1.offered)
      (Event.offers (observerName scope) (.offered (entry.ruleType scope).name)) where
  wants node state := by
    rw [show (entry.ruleType scope).name = qualified scope entry.name from rfl, offers_observerName]
    exact congrArg Context.offered (run_wants_context entry node state)
  visit node workspace := congrArg Context.offered (run_visit_context entry node workspace)

end Entry

variable {scope : String} {entries : List Entry}

theorem pipeline_gauged_offered : ∀ rule ∈ RuleType.instances (pipeline scope entries).rules,
    rule.Gauged (fun state => state.1.offered)
      (Event.offers (observerName scope) (.offered rule.name)) := by
  have htypes : ∀ type ∈ (pipeline scope entries).rules,
      type.rule.Gauged (fun state => state.1.offered)
        (Event.offers (observerName scope) (.offered type.name)) :=
    forall_mem_rules scope entries fun entry => entry.gauged_offered scope
  exact @RuleType.instances_gauged _ _ _ Context.offered
    (fun name => Event.offers (observerName scope) (.offered name)) _ htypes

section Statistics

variable {σ ε N : Type}

/-- Every offer is recorded once, whatever comes of it. -/
theorem offered_offer (rule : Rule σ ε N) (node : N) (run : Run σ) (name : String) :
    (((offer rule node).run run).2.statistics.counts name).offered =
      (run.statistics.counts name).offered + Event.offers name (.offered rule.name) := by
  rw [run_offer]
  rcases (rule.ask node).run run.workspace with ⟨error | _ | nodes, workspace⟩
  · exact (tallied_foldl run.statistics _).offered name
  · exact (tallied_foldl run.statistics _).offered name
  · exact (tallied_foldl run.statistics _).offered name

/-- The context and the statistics of a run count the same questions. -/
theorem dispatch_counts_alike (depth : Nat) (root : Node)
    (run : Run (Context × RuleType.Memories (pipeline scope entries).rules)) :
    let after := ((dispatch (RuleType.instances (pipeline scope entries).rules) depth root).run run).2
    after.workspace.shared.1.offered + (run.statistics.counts (observerName scope)).offered =
      run.workspace.shared.1.offered + (after.statistics.counts (observerName scope)).offered := by
  let kept (later : Run (Context × RuleType.Memories (pipeline scope entries).rules)) : Prop :=
    later.workspace.shared.1.offered + (run.statistics.counts (observerName scope)).offered =
      run.workspace.shared.1.offered + (later.statistics.counts (observerName scope)).offered
  have hoffer : ∀ rule ∈ RuleType.instances (pipeline scope entries).rules, ∀ node later,
      kept later → kept ((offer rule node).run later).2 := by
    intro rule hrule node later hkept
    have hmoved := (pipeline_gauged_offered rule hrule).ask node later.workspace
    have hcounted := offered_offer rule node later (observerName scope)
    rw [← workspace_offer] at hmoved
    change _ + _ = _ + _ at hkept ⊢
    omega
  have hkept : kept run := rfl
  exact dispatch_keeps hoffer (fun _ hkept => hkept) (fun _ hkept => hkept) depth root hkept

end Statistics

section Log

/-- Whether the deed is a question to an observer. -/
def asksObserver (entries : List Entry) : Deed Services Error Node → Bool
  | .called (.asked place _ _) => entries[place]? == some .observe
  | _ => false

/-- The context has counted what the log holds. -/
def Balanced (entries : List Entry) (state : Context × List (Deed Services Error Node)) : Prop :=
  state.1.offered = state.2.countP (asksObserver entries)

theorem Balanced.append {state : Context × List (Deed Services Error Node)} {context : Context}
    {deed : Deed Services Error Node} (h : Balanced entries state)
    (hoffered : context.offered =
      state.1.offered + if asksObserver entries deed = true then 1 else 0) :
    Balanced entries (context, state.2 ++ [deed]) := by
  change context.offered = (state.2 ++ [deed]).countP (asksObserver entries)
  rw [List.countP_append, List.countP_singleton, hoffered, h]

theorem asksObserver_asked {place : Nat} {entry : Entry} (h : entries[place]? = some entry)
    (node : Node) (answer : Bool) :
    asksObserver entries (.called (.asked place node answer)) = true ↔ entry = .observe := by
  rw [asksObserver, h, beq_iff_eq, Option.some.injEq]

theorem logged_preserves_balanced {place : Nat} {entry : Entry} (h : entries[place]? = some entry) :
    ((entry.ruleType scope).logged place).rule.Preserves fun state => Balanced entries state.1 where
  wants node state hbalanced := by
    have hcontext := entry.run_wants_context node (state.1.1, state.2)
    refine @Balanced.append entries state.1 _ _ hbalanced ?_
    simp only [asksObserver_asked h]
    exact congrArg Context.offered hcontext
  visit node state _ workspace hbalanced := by
    have hcontext := entry.run_visit_context node
      ⟨(workspace.shared.1.1, workspace.shared.2), workspace.supply⟩
    exact @Balanced.append entries workspace.shared.1 _ _ hbalanced
      (congrArg Context.offered hcontext)

theorem pipeline_preserves_balanced :
    ∀ rule ∈ RuleType.instances (pipeline scope entries).logged.rules,
      rule.Preserves fun state => Balanced entries state.1 := by
  refine RuleType.instances_preserve fun type htype => ?_
  obtain ⟨place, original, horiginal, rfl⟩ := RuleType.exists_of_mem_loggedAll htype
  obtain ⟨entry, hentry, rfl⟩ := Option.map_eq_some_iff.mp (List.getElem?_map ▸ horiginal)
  rw [Nat.zero_add]
  exact logged_preserves_balanced hentry

end Log

/-- The offers to observers that the latest statistics hold. -/
def recorded (scope : String) (transformer : UnitTransformer Context) : Nat :=
  (transformer.lastStatistics.map fun statistics =>
    (statistics.counts (observerName scope)).offered).getD 0

section Units

variable {transformer : UnitTransformer Context} {request : Request Services Node}

theorem serve_eq : (pipeline scope entries).serve transformer request =
    (transformer.conclude (preparedRun scope entries request transformer.context)).1 :=
  congrArg Prod.fst run_transform

/-- The context has gone through the requests. Its counter of offers is left open. -/
structure Context.Served (before : Context) (requests : List (Request Services Node))
    (after : Context) : Prop where
  unitsSeen : after.unitsSeen = before.unitsSeen + requests.length
  fileName : after.fileName =
    (requests.getLast?.map fun request => request.services.fileName).or before.fileName
  root : after.root = (requests.getLast?.map Request.root).or before.root
  compilation : after.compilation = before.compilation
  message : after.message = before.message

/-- Rules change nothing of the context but its counter of offers. -/
theorem exists_context_serve (transformer : UnitTransformer Context)
    (request : Request Services Node) : ∃ offered,
    ((pipeline scope entries).serve transformer request).2.context =
      { transformer.context.beginUnit request.services request.root with offered } := by
  let begun := transformer.context.beginUnit request.services request.root
  have htypes : ∀ type ∈ (pipeline scope entries).rules,
      type.rule.Preserves fun state => ∃ offered, state.1 = { begun with offered } := by
    refine forall_mem_rules scope entries fun entry => ⟨fun node state => ?_, ?_⟩
    · rintro ⟨offered, hoffered⟩
      refine ⟨offered + entry.observed, (entry.run_wants_context node state).trans ?_⟩
      rw [hoffered]
    · rintro node state - workspace ⟨offered, hoffered⟩
      exact ⟨offered, (entry.run_visit_context node workspace).trans hoffered⟩
  have hrules := @RuleType.instances_preserve _ _ _
    (fun context : Context => ∃ offered, context = { begun with offered }) _ htypes
  have hcontext := @transform_context scope entries request.depth request.services request.root
    request.bench transformer
  have hkept := dispatch_preserves hrules request.depth request.root
    ⟨begun.offered, congrArg Prod.fst (unitStart_shared request begun)⟩
  obtain ⟨offered, hoffered⟩ := hkept
  exact ⟨offered, hcontext.trans hoffered⟩

theorem served (transformer : UnitTransformer Context) (requests : List (Request Services Node)) :
    transformer.context.Served requests
      ((pipeline scope entries).afterAll transformer requests).context := by
  induction requests using List.reverseRecOn with
  | nil => exact ⟨rfl, rfl, rfl, rfl, rfl⟩
  | append_singleton requests request ih =>
      obtain ⟨offered, hcontext⟩ := @exists_context_serve scope entries
        ((pipeline scope entries).afterAll transformer requests) request
      have hlast : ((pipeline scope entries).afterAll transformer (requests ++ [request])).context =
          _ := (congrArg UnitTransformer.context (Pipeline.afterAll_concat _ _ _ _)).trans hcontext
      rw [hlast]
      refine ⟨?_, ?_, ?_, ih.compilation, ih.message⟩
      · rw [List.length_append, ← Nat.add_assoc, ← ih.unitsSeen]
        rfl
      · rw [List.getLast?_concat]
        rfl
      · rw [List.getLast?_concat]
        rfl

theorem Balanced.append_of_forall {state : Context × List (Deed Services Error Node)}
    {deeds : List (Deed Services Error Node)} (h : Balanced entries state)
    (hdeeds : ∀ deed ∈ deeds, ¬ asksObserver entries deed = true) :
    Balanced entries (state.1, state.2 ++ deeds) := by
  change state.1.offered = (state.2 ++ deeds).countP (asksObserver entries)
  rw [List.countP_append, List.countP_eq_zero.mpr hdeeds]
  exact h

theorem serve_balanced {transformer : UnitTransformer (Context × List (Deed Services Error Node))}
    (h : Balanced entries transformer.context) :
    Balanced entries ((pipeline scope entries).logged.serve transformer request).2.context := by
  let begun := transformer.context.1.beginUnit request.services request.root
  let log := transformer.context.2 ++ [.begun request.services request.root]
  have hserve := @Pipeline.serve_of_begun _ _ _ _ (pipeline scope entries).logged transformer request
    (begun, log) rfl
  have hcontext := (congrArg (fun answer => answer.2.context) hserve).trans
    (transformer.context_conclude _)
  have hbegun : Balanced entries (begun, log) := h.append rfl
  have hnone : ∀ deed ∈ ((List.range' 0 (pipeline scope entries).rules.length).map .made :
      List (Deed Services Error Node)), ¬ asksObserver entries deed = true := by
    intro deed hdeed
    obtain ⟨place, -, rfl⟩ := List.mem_map.mp hdeed
    exact Bool.false_ne_true
  obtain ⟨-, hmade⟩ := RuleType.run_freshAll_loggedAll 0 (pipeline scope entries).rules begun log
  rw [run_freshAll] at hmade
  have hstart : ((pipeline scope entries).logged.unitStart request (begun, log)).workspace.shared.1 =
      _ := hmade
  rw [hcontext]
  refine dispatch_preserves pipeline_preserves_balanced request.depth request.root ?_
  rw [hstart]
  exact hbegun.append_of_forall hnone

theorem offered_preparedRun (request : Request Services Node) (context : Context) :
    let run := (preparedRun scope entries request context).2
    run.workspace.shared.1.offered =
      context.offered + (run.statistics.counts (observerName scope)).offered := by
  have hstart := @unitStart_shared scope entries request
    (context.beginUnit request.services request.root)
  have hcounts := dispatch_counts_alike request.depth request.root
    ((pipeline scope entries).unitStart request (context.beginUnit request.services request.root))
  rw [hstart] at hcounts
  exact hcounts

theorem offered_serve {output : UnitOutput Node}
    (h : ((pipeline scope entries).serve transformer request).1 = .ok output) :
    ((pipeline scope entries).serve transformer request).2.context.offered =
      transformer.context.offered +
        recorded scope ((pipeline scope entries).serve transformer request).2 := by
  have hoffered := @offered_preparedRun scope entries request transformer.context
  rw [serve_eq, UnitTransformer.conclude] at h ⊢
  rcases hresult : (preparedRun scope entries request transformer.context).1 with halt | nodes <;>
    rw [hresult] at h
  · cases h
  · exact hoffered

theorem observers_decline (hentries : ∀ entry ∈ entries, entry = .observe) (node : Node) :
    ∀ rule ∈ RuleType.instances (pipeline scope entries).rules,
      Declines (fun run => run.workspace.shared.1.offered) 1 rule node := by
  intro rule hrule
  have hgauged := pipeline_gauged_offered rule hrule
  obtain ⟨type, htype, memory, rfl⟩ := RuleType.exists_memory_of_mem_instances hrule
  obtain ⟨entry, hentry, rfl⟩ := List.mem_map.mp htype
  obtain rfl := hentries entry hentry
  have hone : Event.offers (observerName scope) (.offered (qualified scope Entry.observe.name)) =
      1 := Entry.offers_observerName scope .observe
  refine ⟨fun shared => ?_, fun run => ?_⟩
  · exact Entry.run_wants_fst .observe node (memory.inContext.get shared)
  · rw [workspace_offer, ← hone]
    exact hgauged.ask node run.workspace

/-- Observers leave every tree alone. -/
theorem serve_observers (hentries : ∀ entry ∈ entries, entry = .observe)
    (hdepth : Host.subtreeDepth request.root ≤ request.depth) :
    ((pipeline scope entries).serve transformer request).1 = .ok (.single request.root) := by
  obtain ⟨after, hrun, -⟩ := dispatch_idle hdepth (fun _ => rfl)
    (fun below _ => observers_decline hentries below)
    ((pipeline scope entries).unitStart request
      (transformer.context.beginUnit request.services request.root))
  have hunit : preparedRun scope entries request transformer.context = (.ok [request.root], after) :=
    hrun
  rw [serve_eq, hunit]
  rfl

/-- Each observer counts every node of the tree. -/
theorem offered_serve_observers (hentries : ∀ entry ∈ entries, entry = .observe)
    {output : UnitOutput Node}
    (h : ((pipeline scope entries).serve transformer request).1 = .ok output) :
    output = .single request.root ∧
      ((pipeline scope entries).serve transformer request).2.context.offered =
        transformer.context.offered + entries.length * Host.subtreeSize request.root := by
  have hstart := @unitStart_shared scope entries request
    (transformer.context.beginUnit request.services request.root)
  have hlength : (RuleType.instances (pipeline scope entries).rules).length = entries.length :=
    (RuleType.length_instances _).trans (List.length_map _)
  rcases hrun : preparedRun scope entries request transformer.context with ⟨halt | nodes, after⟩ <;>
    rw [serve_eq, hrun] at h
  · cases h
  · obtain ⟨rfl, hoffered⟩ := dispatch_idle_of_ok (fun _ => rfl)
      (fun below _ => observers_decline hentries below) hrun
    simp only [hstart, hlength, Nat.mul_one] at hoffered
    rw [serve_eq, hrun, Nat.mul_comm]
    exact ⟨(Except.ok.inj h).symm, hoffered⟩

theorem offered_afterAll (transformer : UnitTransformer Context)
    (requests : List (Request Services Node))
    (h : ∀ answer ∈ (pipeline scope entries).history transformer requests,
      ∃ output, answer.1 = .ok output) :
    ((pipeline scope entries).afterAll transformer requests).context.offered =
      transformer.context.offered +
        (((pipeline scope entries).history transformer requests).map fun answer =>
          recorded scope answer.2).sum := by
  induction requests generalizing transformer with
  | nil => rfl
  | cons request requests ih =>
      obtain ⟨⟨output, houtput⟩, hrest⟩ := List.forall_mem_cons.mp h
      have hfirst := offered_serve houtput
      have hlater := ih ((pipeline scope entries).serve transformer request).2 hrest
      rw [hfirst, Nat.add_assoc] at hlater
      exact hlater

theorem history_observers (hentries : ∀ entry ∈ entries, entry = .observe)
    (transformer : UnitTransformer Context) (requests : List (Request Services Node))
    (hdepth : ∀ request ∈ requests, Host.subtreeDepth request.root ≤ request.depth) :
    ∀ answer ∈ (pipeline scope entries).history transformer requests,
      ∃ output, answer.1 = .ok output := by
  induction requests generalizing transformer with
  | nil => exact fun _ hanswer => absurd hanswer List.not_mem_nil
  | cons request requests ih =>
      obtain ⟨hfirst, hrest⟩ := List.forall_mem_cons.mp hdepth
      exact List.forall_mem_cons.mpr ⟨⟨_, serve_observers hentries hfirst⟩, ih _ hrest⟩

theorem afterAll_observers (hentries : ∀ entry ∈ entries, entry = .observe)
    (transformer : UnitTransformer Context) (requests : List (Request Services Node))
    (h : ∀ answer ∈ (pipeline scope entries).history transformer requests,
      ∃ output, answer.1 = .ok output) :
    ((pipeline scope entries).history transformer requests).map Prod.fst =
        requests.map (fun request => .ok (.single request.root)) ∧
      ((pipeline scope entries).afterAll transformer requests).context.offered =
        transformer.context.offered +
          entries.length * (requests.map fun request => Host.subtreeSize request.root).sum := by
  induction requests generalizing transformer with
  | nil => exact ⟨rfl, rfl⟩
  | cons request requests ih =>
      obtain ⟨⟨output, houtput⟩, hrest⟩ := List.forall_mem_cons.mp h
      obtain ⟨rfl, hoffered⟩ := offered_serve_observers hentries houtput
      obtain ⟨houtputs, hlater⟩ := ih ((pipeline scope entries).serve transformer request).2 hrest
      refine ⟨congrArg₂ List.cons houtput houtputs, ?_⟩
      rw [hoffered, Nat.add_assoc, ← Nat.mul_add, ← List.sum_cons] at hlater
      exact hlater

theorem afterAll_balanced {transformer : UnitTransformer (Context × List (Deed Services Error Node))}
    (requests : List (Request Services Node)) (h : Balanced entries transformer.context) :
    Balanced entries ((pipeline scope entries).logged.afterAll transformer requests).context := by
  induction requests generalizing transformer with
  | nil => exact h
  | cons request requests ih => exact ih (serve_balanced h)

end Units

theorem context_of_create {program : Program} {configuration : Json} {context : Context}
    (h : Context.create scope program configuration = .ok context) :
    context = { compilation := program.name, message := context.message } := by
  rw [Context.create] at h
  rcases hread : Configuration.read (qualified scope "TestedConfiguration")
      (Configuration.Greeting.shape "TestedConfiguration").decode configuration with _ | greeting <;>
    rw [hread] at h
  · cases h
  · obtain rfl := Except.ok.inj h
    rfl

/-- **Observation.** After any requests, failed or not, the context has seen as many units, knows the
file and the root of the last one, and has counted all questions to observers. If no unit failed then
these are the offers that the statistics of the units have under the observers' name; and if there
are only observers, then every root is given back, and each of them has counted every node of it.
Observers alone fail nowhere. -/
theorem units_observed {program : Program} {configuration : Json} {bench later : Bench}
    {transformer : UnitTransformer Context}
    (hmade : ((pipeline scope entries).instantiate program configuration).run bench =
      (.ok transformer, later)) (requests : List (Request Services Node)) :
    let history := (pipeline scope entries).history transformer requests
    let final := (pipeline scope entries).afterAll transformer requests
    final.context.unitsSeen = requests.length ∧
    final.context.fileName = requests.getLast?.map (fun request => request.services.fileName) ∧
    final.context.root = requests.getLast?.map Request.root ∧
    final.context.compilation = program.name ∧
    final.context.message = transformer.context.message ∧
    (∃ deeds,
      (pipeline scope entries).logged.afterAll (transformer.withLog []) requests =
        final.withLog deeds ∧
      final.context.offered = deeds.countP (asksObserver entries)) ∧
    ((∀ answer ∈ history, ∃ output, answer.1 = .ok output) →
      final.context.offered = (history.map fun answer => recorded scope answer.2).sum ∧
      ((∀ entry ∈ entries, entry = .observe) →
        history.map Prod.fst = requests.map (fun request => .ok (.single request.root)) ∧
        final.context.offered =
          entries.length * (requests.map fun request => Host.subtreeSize request.root).sum)) ∧
    ((∀ entry ∈ entries, entry = .observe) →
      (∀ request ∈ requests, Host.subtreeDepth request.root ≤ request.depth) →
        ∀ answer ∈ history, ∃ output, answer.1 = .ok output) := by
  intro history final
  have hcreated := context_of_create (create_of_instantiate hmade)
  have hzero : transformer.context.offered = 0 := congrArg Context.offered hcreated
  have hserved : transformer.context.Served requests final.context := served transformer requests
  obtain ⟨deeds, hlogged⟩ := (pipeline scope entries).exists_afterAll_logged transformer requests
  have hbalanced : Balanced entries
      ((pipeline scope entries).logged.afterAll (transformer.withLog []) requests).context :=
    afterAll_balanced requests hzero
  rw [hlogged] at hbalanced
  refine ⟨?_, ?_, ?_, ?_, hserved.message, ⟨deeds, hlogged, hbalanced⟩,
    fun hok => ⟨?_, fun hentries => ?_⟩,
    fun hentries hdepth => history_observers hentries transformer requests hdepth⟩
  · rw [hserved.unitsSeen, hcreated, Nat.zero_add]
  · rw [hserved.fileName, hcreated, Option.or_none]
  · rw [hserved.root, hcreated, Option.or_none]
  · rw [hserved.compilation, hcreated]
  · have hoffered := offered_afterAll transformer requests hok
    rwa [hzero, Nat.zero_add] at hoffered
  · have hobservers := @afterAll_observers scope entries hentries transformer requests hok
    rwa [hzero, Nat.zero_add] at hobservers

section Sample

/-- Two observers around a rule that doubles statements. -/
def watched : List Entry := [.observe, .duplicateStatement, .observe]

def watchedStart : UnitTransformer Context where
  context := { compilation := "", message := "" }

def blockRequest : Request Services Node where
  services := { fileName := "file" }
  root := sharedBlock
  depth := 2
  bench := { supply := ⟨2⟩ }

def twoBlocks : List (Request Services Node) := [blockRequest, blockRequest]

def watchedHistory : List (Except (Halt Error) (UnitOutput Node) × UnitTransformer Context) :=
  (pipeline "" watched).history watchedStart twoBlocks

theorem watched_succeeds : watchedHistory.map (fun answer => answer.1.isOk) = [true, true] := by
  decide +kernel

theorem watched_records : watchedHistory.map (fun answer => recorded "" answer.2) = [8, 8] := by
  decide +kernel

/-- Both units succeed. In each of them the first observer is asked about three nodes, and the second
about five. -/
theorem units_observed_twice :
    (∃ later, ((pipeline "" watched).instantiate {} .null).run {} = (.ok watchedStart, later)) ∧
    (∀ answer ∈ watchedHistory, ∃ output, answer.1 = .ok output) ∧
    ((pipeline "" watched).afterAll watchedStart twoBlocks).context.unitsSeen = 2 ∧
    ((pipeline "" watched).afterAll watchedStart twoBlocks).context.root = some sharedBlock ∧
    ((pipeline "" watched).afterAll watchedStart twoBlocks).context.offered = 16 := by
  obtain ⟨later, hmade⟩ : ∃ later,
      ((pipeline "" watched).instantiate {} .null).run {} = (.ok watchedStart, later) := ⟨_, rfl⟩
  have hok : ∀ answer ∈ watchedHistory, ∃ output, answer.1 = .ok output := by
    rintro ⟨outcome, transformer⟩ hanswer
    have hmem : outcome.isOk ∈ [true, true] := by
      rw [← watched_succeeds]
      exact List.mem_map_of_mem hanswer
    cases outcome with
    | error halt => simp [Except.isOk, Except.toBool] at hmem
    | ok output => exact ⟨output, rfl⟩
  obtain ⟨hunits, -, hroot, -, -, -, hoffered, -⟩ := units_observed hmade twoBlocks
  have hsum : _ = (watchedHistory.map fun answer => recorded "" answer.2).sum := (hoffered hok).1
  refine ⟨⟨later, hmade⟩, hok, ?_, ?_, ?_⟩
  · rw [hunits]
    rfl
  · rw [hroot]
    rfl
  · rw [hsum, watched_records]
    rfl

end Sample

end TreeRules.Catalogue
