import TreeRules.Proofs.Deeds
import TreeRules.Proofs.Units

/-!
# Histories

One transformer serves requests one after the other, and each of them may fail. Of a failed one only
its mark on the context stays. The statistics of a unit take the place of those of the latest
successful unit, and are never added to them.
-/

namespace TreeRules

open Dispatch

variable {γ ε N S : Type}

/-- The output stands for the nodes, in the case that is meant for so many. -/
structure UnitOutput.Holds (output : UnitOutput N) (nodes : List N) : Prop where
  nodes_eq : output.nodes = nodes
  deleted_iff : output = .deleted ↔ nodes = []
  single_iff : ∀ root, output = .single root ↔ nodes = [root]
  expanded_iff : ∀ many, output = .expanded many ↔ many = nodes ∧ 2 ≤ nodes.length

theorem UnitOutput.ofNodes_holds (nodes : List N) : (ofNodes nodes).Holds nodes := by
  match nodes with
  | [] => exact ⟨rfl, by simp [ofNodes], by simp [ofNodes], by simp [ofNodes]⟩
  | [root] => exact ⟨rfl, by simp [ofNodes], by simp [ofNodes], by simp [ofNodes]⟩
  | first :: second :: rest =>
      have hmany : ofNodes (first :: second :: rest) = .expanded (first :: second :: rest) := rfl
      refine ⟨rfl, by simp [hmany], by simp [hmany], fun many => ?_⟩
      rw [hmany, expanded.injEq]
      exact ⟨fun h => ⟨h.symm, Nat.le_add_left 2 _⟩, fun h => h.1.symm⟩

def UnitTransformer.withLog (transformer : UnitTransformer γ) (log : List (Deed S ε N)) :
    UnitTransformer (γ × List (Deed S ε N)) where
  context := (transformer.context, log)
  lastStatistics := transformer.lastStatistics

/-- A call as it went: its outcome, the statistics of its run if it succeeded, and what was done for
it in order. -/
structure UnitCall (S ε N : Type) where
  request : Request S N
  outcome : Except (Halt ε) (UnitOutput N)
  statistics : Option Statistics := none
  deeds : List (Deed S ε N)

namespace Pipeline

/-- The same pipeline, with a log of its deeds in the context. -/
def logged (pipeline : Pipeline γ ε N) :
    Pipeline (γ × List (Deed pipeline.context.Services ε N)) ε N where
  context := pipeline.context.logged
  rules := RuleType.loggedAll 0 pipeline.rules

variable [Host N] (pipeline : Pipeline γ ε N)

def serve (transformer : UnitTransformer γ) (request : Request pipeline.context.Services N) :
    Except (Halt ε) (UnitOutput N) × UnitTransformer γ :=
  ((pipeline.transform request.depth request.services request.root transformer).run request.bench).1

/-- The outcome of every request in turn, and the transformer as it is left. -/
def history (transformer : UnitTransformer γ) : List (Request pipeline.context.Services N) →
    List (Except (Halt ε) (UnitOutput N) × UnitTransformer γ)
  | [] => []
  | request :: requests =>
    let answer := pipeline.serve transformer request
    answer :: history answer.2 requests

/-- The transformer after all requests. -/
def afterAll (transformer : UnitTransformer γ)
    (requests : List (Request pipeline.context.Services N)) : UnitTransformer γ :=
  requests.foldl (fun transformer request => (pipeline.serve transformer request).2) transformer

theorem afterAll_concat (transformer : UnitTransformer γ)
    (requests : List (Request pipeline.context.Services N))
    (request : Request pipeline.context.Services N) :
    pipeline.afterAll transformer (requests ++ [request]) =
      (pipeline.serve (pipeline.afterAll transformer requests) request).2 :=
  List.foldl_concat _ transformer request requests

/-- What is done for a unit that was begun: the preparation, then an instance of every rule in order,
and then their calls. -/
def unitDeeds (request : Request pipeline.context.Services N) (calls : List (Call ε N)) :
    List (Deed pipeline.context.Services ε N) :=
  .begun request.services request.root ::
    ((List.range pipeline.length).map .made ++ calls.map .called)

/-- What a call does to the transformer. -/
inductive Performs : UnitTransformer γ → UnitCall pipeline.context.Services ε N →
    UnitTransformer γ → Prop where
  | refused {transformer : UnitTransformer γ} {request : Request pipeline.context.Services N}
      {error : ε} {context : γ} :
      (pipeline.context.beginUnit request.services request.root).run transformer.context =
          (.error error, context) →
        Performs transformer
          { request, outcome := .error (.failed error)
            deeds := [.begun request.services request.root] }
          { transformer with context }
  | halted {transformer : UnitTransformer γ} {request : Request pipeline.context.Services N}
      {context : γ} {halt : Halt ε} {run : Run (γ × RuleType.Memories pipeline.rules)}
      (calls : List (Call ε N)) :
      (pipeline.context.beginUnit request.services request.root).run transformer.context =
          (.ok (), context) →
        pipeline.unitRun request context = (.error halt, run) →
          Performs transformer
            { request, outcome := .error halt, deeds := pipeline.unitDeeds request calls }
            { transformer with context := run.workspace.shared.1 }
  | finished {transformer : UnitTransformer γ} {request : Request pipeline.context.Services N}
      {context : γ} {nodes : List N} {run : Run (γ × RuleType.Memories pipeline.rules)}
      {output : UnitOutput N} (calls : List (Call ε N)) :
      (pipeline.context.beginUnit request.services request.root).run transformer.context =
          (.ok (), context) →
        pipeline.unitRun request context = (.ok nodes, run) → output.Holds nodes →
          Performs transformer
            { request, outcome := .ok output, statistics := some run.statistics
              deeds := pipeline.unitDeeds request calls }
            { context := run.workspace.shared.1, lastStatistics := some run.statistics }

section Serve

variable {pipeline} {transformer : UnitTransformer γ}
  {request : Request pipeline.context.Services N} {context : γ}

theorem serve_of_refused {error : ε}
    (h : (pipeline.context.beginUnit request.services request.root).run transformer.context =
      (.error error, context)) :
    pipeline.serve transformer request =
      (.error (.failed error), { transformer with context }) :=
  congrArg Prod.fst (run_transform_of_refused h)

theorem serve_of_begun
    (h : (pipeline.context.beginUnit request.services request.root).run transformer.context =
      (.ok (), context)) :
    pipeline.serve transformer request =
      (transformer.conclude (pipeline.unitRun request context)).1 :=
  congrArg Prod.fst (run_transform_of_begun h)

omit [Host N] in
theorem unitStart_logged_fits (request : Request pipeline.context.Services N) (context : γ)
    (log : List (Deed pipeline.context.Services ε N)) :
    (pipeline.logged.unitStart request (context, log)).Fits
      (RuleType.Calls (RuleType.SameMemories 0 pipeline.rules)
        (log ++ (List.range pipeline.length).map .made)) (pipeline.unitStart request context) := by
  obtain ⟨hmemories, hstate⟩ := RuleType.run_freshAll_loggedAll 0 pipeline.rules context log
  rw [← List.range_eq_range'] at hstate
  refine ⟨⟨congrArg Prod.fst hstate, hmemories, [], ?_⟩, rfl, rfl, rfl⟩
  exact (congrArg Prod.snd hstate).trans (List.append_nil _).symm

theorem exists_unitRun_logged (request : Request pipeline.context.Services N) (context : γ)
    (log : List (Deed pipeline.context.Services ε N)) :
    let unit := pipeline.unitRun request context
    let unit' := pipeline.logged.unitRun request (context, log)
    unit'.1 = unit.1 ∧ unit'.2.statistics = unit.2.statistics ∧
      ∃ calls : List (Call ε N), unit'.2.workspace.shared.1 =
        (unit.2.workspace.shared.1,
          log ++ ((List.range pipeline.length).map .made ++ calls.map .called)) := by
  intro unit unit'
  obtain ⟨hresult, hafter⟩ := dispatch_tracks (RuleType.instances_loggedAll_track 0 pipeline.rules _)
    request.depth request.root (pipeline.unitStart_logged_fits request context log)
  obtain ⟨hcontext, -, calls, hlog⟩ := hafter.shared
  rw [List.append_assoc] at hlog
  exact ⟨hresult, hafter.statistics, calls, Prod.ext hcontext hlog⟩

theorem exists_performs (transformer : UnitTransformer γ)
    (request : Request pipeline.context.Services N)
    (log : List (Deed pipeline.context.Services ε N)) :
    ∃ call : UnitCall pipeline.context.Services ε N, call.request = request ∧
      call.outcome = (pipeline.serve transformer request).1 ∧
      pipeline.Performs transformer call (pipeline.serve transformer request).2 ∧
      (pipeline.logged.serve (transformer.withLog log) request).2 =
        (pipeline.serve transformer request).2.withLog (log ++ call.deeds) := by
  have hlogged : (pipeline.logged.context.beginUnit request.services request.root).run
      (transformer.withLog log).context = _ :=
    pipeline.context.run_beginUnit_logged request.services request.root transformer.context log
  rcases hbegun : (pipeline.context.beginUnit request.services request.root).run
    transformer.context with ⟨error | _, context⟩ <;> rw [hbegun] at hlogged
  · rw [serve_of_refused hbegun, serve_of_refused hlogged]
    exact ⟨_, rfl, rfl, .refused hbegun, rfl⟩
  · obtain ⟨hresult, hstatistics, calls, hcontext⟩ := pipeline.exists_unitRun_logged request context
      (log ++ [.begun request.services request.root])
    rw [List.append_assoc] at hcontext
    rw [serve_of_begun hbegun, serve_of_begun hlogged, UnitTransformer.conclude,
      UnitTransformer.conclude, hresult, hstatistics, hcontext]
    rcases hrun : pipeline.unitRun request context with ⟨halt | nodes, run⟩
    · exact ⟨_, rfl, rfl, .halted calls hbegun hrun, rfl⟩
    · exact ⟨_, rfl, rfl, .finished calls hbegun hrun (UnitOutput.ofNodes_holds nodes), rfl⟩

end Serve

theorem Performs.lastStatistics_eq {before after : UnitTransformer γ}
    {call : UnitCall pipeline.context.Services ε N} (h : pipeline.Performs before call after) :
    after.lastStatistics = call.statistics.or before.lastStatistics := by
  cases h with
  | refused _ => rfl
  | halted _ _ _ => rfl
  | finished _ _ _ _ => rfl

theorem lastStatistics_eq_of_thread {before after : UnitTransformer γ}
    {calls : List (UnitCall pipeline.context.Services ε N)}
    (h : Thread pipeline.Performs before calls after) :
    after.lastStatistics =
      (calls.filterMap UnitCall.statistics).getLast?.or before.lastStatistics := by
  induction h with
  | nil _ => rfl
  | @cons _ _ _ call _ hstep _ ih =>
      rw [ih, hstep.lastStatistics_eq, List.filterMap_cons]
      rcases call.statistics with _ | statistics
      · rfl
      · rw [List.getLast?_cons, Option.some_or, Option.some_or]
        cases (List.filterMap UnitCall.statistics _).getLast? <;> rfl

theorem exists_thread (transformer : UnitTransformer γ)
    (log : List (Deed pipeline.context.Services ε N))
    (requests : List (Request pipeline.context.Services N)) :
    ∃ calls : List (UnitCall pipeline.context.Services ε N),
      calls.map UnitCall.request = requests ∧
      calls.map UnitCall.outcome = (pipeline.history transformer requests).map Prod.fst ∧
      ∀ count,
        let after := pipeline.afterAll transformer (requests.take count)
        Thread pipeline.Performs transformer (calls.take count) after ∧
        pipeline.logged.afterAll (transformer.withLog log) (requests.take count) =
          after.withLog (log ++ (calls.take count).flatMap UnitCall.deeds) := by
  induction requests generalizing transformer log with
  | nil =>
      refine ⟨[], rfl, rfl, fun count => ?_⟩
      have hlog : transformer.withLog log = transformer.withLog (log ++ []) := by
        rw [List.append_nil]
      cases count with
      | zero => exact ⟨.nil _, hlog⟩
      | succ _ => exact ⟨.nil _, hlog⟩
  | cons request requests ih =>
      obtain ⟨call, rfl, houtcome, hperforms, hlogged⟩ :=
        pipeline.exists_performs transformer request log
      obtain ⟨calls, rfl, houtcomes, hcalls⟩ :=
        ih (pipeline.serve transformer call.request).2 (log ++ call.deeds)
      refine ⟨call :: calls, rfl, congrArg₂ List.cons houtcome houtcomes, fun count => ?_⟩
      cases count with
      | zero =>
          simp only [List.take_zero, List.flatMap_nil, List.append_nil]
          exact ⟨.nil _, rfl⟩
      | succ count =>
          obtain ⟨hthread, hlog⟩ := hcalls count
          refine ⟨.cons hperforms hthread, ?_⟩
          rw [← hlogged, List.append_assoc] at hlog
          exact hlog

theorem exists_afterAll_logged (transformer : UnitTransformer γ)
    (requests : List (Request pipeline.context.Services N)) :
    ∃ deeds, pipeline.logged.afterAll (transformer.withLog []) requests =
      (pipeline.afterAll transformer requests).withLog deeds := by
  obtain ⟨calls, -, -, hcalls⟩ := pipeline.exists_thread transformer [] requests
  obtain ⟨-, hlogged⟩ := hcalls requests.length
  rw [List.take_length] at hlogged
  exact ⟨_, (congrArg _ List.take_length.symm).trans hlogged⟩

/-- **Histories.** Every request is served by a call that prepares the context first and once. Where
that fails, its error is the outcome, and nothing else is done. Otherwise an instance of every rule is
made, in order, before any is called, and a new dispatcher is run with them over the root: its error,
or all its nodes, are the outcome. A call that fails leaves nothing but its mark on the context. So
the latest statistics are those of the latest successful run alone, after every prefix. -/
theorem history_spec (pipeline : Pipeline γ ε N) (context : γ)
    (requests : List (Request pipeline.context.Services N)) :
    ∃ calls : List (UnitCall pipeline.context.Services ε N),
      calls.map UnitCall.request = requests ∧
      calls.map UnitCall.outcome = (pipeline.history { context } requests).map Prod.fst ∧
      ∀ count,
        let after := pipeline.afterAll { context } (requests.take count)
        let earlier := calls.take count
        Thread pipeline.Performs { context } earlier after ∧
        pipeline.logged.afterAll { context := (context, []) } (requests.take count) =
          after.withLog (earlier.flatMap UnitCall.deeds) ∧
        after.lastStatistics = (earlier.filterMap UnitCall.statistics).getLast? := by
  obtain ⟨calls, hrequests, houtcomes, hcalls⟩ := pipeline.exists_thread { context } [] requests
  refine ⟨calls, hrequests, houtcomes, fun count => ?_⟩
  obtain ⟨hthread, hlogged⟩ := hcalls count
  refine ⟨hthread, hlogged, ?_⟩
  rw [pipeline.lastStatistics_eq_of_thread hthread, Option.or_none]

end Pipeline

end TreeRules
