import TreeRules.Proofs.Conservation
import TreeRules.Proofs.Failure
import TreeRules.Proofs.History
import TreeRules.Proofs.Isolation

/-!
# Reports

A successful visit is told twice: the dispatcher writes a message to the journal, and it counts the
visit. The two never drift apart, since rules and contexts have no way to either, and a run that
fails has told what it did until then. So the statistics of a unit can be read off its messages.
-/

namespace TreeRules

open Dispatch

variable {σ γ ε N S : Type}

/-- What is shown of a message. -/
def Log.Message.shown (message : Log.Message) : Log.Level × String := (message.level, message.text)

/-- A successful visit: the name of the rule, and the number of nodes that it returned. -/
structure Report where
  rule : String
  nodes : Nat

namespace Report

def message (report : Report) : Log.Message := .replaced report.rule report.nodes

def line (report : Report) : Log.Level × String :=
  (.trace, "Visitor " ++ report.rule ++ " replaced a node with " ++ toString report.nodes ++
    " node(s)")

/-- The number of visits that returned nothing. -/
def deletions (reports : List Report) : Nat := reports.countP fun report => report.nodes = 0

/-- The number of nodes beyond the first, over all visits that returned several. -/
def insertions (reports : List Report) : Nat :=
  ((reports.filter fun report => 2 ≤ report.nodes).map fun report => report.nodes - 1).sum

/-- The number of visits of the rules of one name. -/
def visits (reports : List Report) (name : String) : Nat :=
  reports.countP fun report => report.rule = name

/-- The number of nodes that the rules of one name returned. -/
def emissions (reports : List Report) (name : String) : Nat :=
  ((reports.filter fun report => report.rule = name).map nodes).sum

variable (reports : List Report) (rule name : String) (emitted dispatched roots : Nat)

/-- The message that sums up the reports of a unit. -/
def closing : Log.Message :=
  .finished dispatched reports.length (deletions reports) (insertions reports) roots

def closingLine : Log.Level × String :=
  (.debug, "Rewrote unit: " ++ toString dispatched ++ " node(s) dispatched, " ++
    toString reports.length ++ " visit(s), " ++ toString (deletions reports) ++ " deleted, " ++
    toString (insertions reports) ++ " inserted, " ++ toString roots ++ " root node(s)")

theorem map_shown_message : (reports.map message).map Log.Message.shown = reports.map line := by
  rw [List.map_map]
  rfl

theorem map_shown_closing :
    (reports.map message ++ [closing reports dispatched roots]).map Log.Message.shown =
      reports.map line ++ [closingLine reports dispatched roots] := by
  rw [List.map_append, map_shown_message]
  rfl

theorem deletions_concat : deletions (reports ++ [⟨rule, emitted⟩]) =
    deletions reports + if emitted = 0 then 1 else 0 := by
  unfold deletions
  rw [List.countP_append]
  by_cases hemitted : emitted = 0 <;> simp [hemitted]

theorem insertions_concat :
    insertions (reports ++ [⟨rule, emitted⟩]) = insertions reports + (emitted - 1) := by
  unfold insertions
  rw [List.filter_append, List.map_append, List.sum_append]
  by_cases hemitted : 2 ≤ emitted
  · simp [hemitted]
  · have hone : emitted - 1 = 0 := by omega
    simp [hemitted, hone]

theorem visits_concat : visits (reports ++ [⟨rule, emitted⟩]) name =
    visits reports name + if name = rule then 1 else 0 := by
  unfold visits
  rw [List.countP_append]
  by_cases hname : name = rule
  · simp [hname]
  · simp [hname, Ne.symm hname]

theorem emissions_concat : emissions (reports ++ [⟨rule, emitted⟩]) name =
    emissions reports name + if name = rule then emitted else 0 := by
  unfold emissions
  rw [List.filter_append, List.map_append, List.sum_append]
  by_cases hname : name = rule
  · simp [hname]
  · simp [hname, Ne.symm hname]

end Report

/-- The statistics say of the visits what their reports say. -/
structure Statistics.SumsUp (statistics : Statistics) (reports : List Report) : Prop where
  totalMatches : statistics.totalMatches = reports.length
  deleted : statistics.deleted = Report.deletions reports
  inserted : statistics.inserted = Report.insertions reports
  matched : ∀ name, (statistics.counts name).matched = Report.visits reports name
  emitted : ∀ name, (statistics.counts name).emitted = Report.emissions reports name

namespace Statistics.SumsUp

variable {statistics : Statistics} {reports : List Report}

theorem empty : Statistics.empty.SumsUp [] :=
  ⟨rfl, rfl, rfl, fun _ => rfl, fun _ => rfl⟩

theorem recordDispatch (h : statistics.SumsUp reports) :
    statistics.recordDispatch.SumsUp reports :=
  ⟨h.totalMatches, h.deleted, h.inserted, h.matched, h.emitted⟩

theorem recordOffer (h : statistics.SumsUp reports) (rule : String) :
    (statistics.recordOffer rule).SumsUp reports where
  totalMatches := by rw [totalMatches_recordOffer, h.totalMatches]
  deleted := h.deleted
  inserted := h.inserted
  matched name := by
    rw [counts_recordOffer, ← h.matched name]
    by_cases hname : name = rule <;> simp [hname, RuleCounts.addOffer]
  emitted name := by
    rw [counts_recordOffer, ← h.emitted name]
    by_cases hname : name = rule <;> simp [hname, RuleCounts.addOffer]

theorem recordVisit (h : statistics.SumsUp reports) (rule : String) (emitted : Nat) :
    (statistics.recordVisit rule emitted).SumsUp (reports ++ [⟨rule, emitted⟩]) where
  totalMatches := by
    rw [totalMatches_recordVisit, h.totalMatches, List.length_append, List.length_singleton]
  deleted := by
    rw [Report.deletions_concat, ← h.deleted]
    rfl
  inserted := by
    rw [Report.insertions_concat, ← h.inserted]
    rfl
  matched name := by
    rw [Report.visits_concat, counts_recordVisit, ← h.matched name]
    by_cases hname : name = rule <;> simp [hname, RuleCounts.addVisit]
  emitted name := by
    rw [Report.emissions_concat, counts_recordVisit, ← h.emitted name]
    by_cases hname : name = rule <;> simp [hname, RuleCounts.addVisit]

end Statistics.SumsUp

namespace Dispatch.Event

def report? : Event → Option Report
  | dispatched | offered _ => none
  | replaced rule emitted => some ⟨rule, emitted⟩

theorem filterMap_report_cons (event : Event) (events : List Event) :
    (event :: events).filterMap report? = event.report?.toList ++ events.filterMap report? := by
  rw [List.filterMap_cons]
  cases event.report? <;> rfl

/-- The journal grows by the messages of the reports. -/
theorem toList_foldl_note (journal : Log.Journal) (events : List Event) :
    (events.foldl note journal).toList =
      journal.toList ++ (events.filterMap report?).map Report.message := by
  induction events generalizing journal with
  | nil => exact (List.append_nil _).symm
  | cons event events ih =>
      have hstep : (note journal event).toList =
          journal.toList ++ event.report?.toList.map Report.message := by
        cases event with
        | dispatched | offered rule => exact (List.append_nil _).symm
        | replaced rule emitted => exact Array.toList_push
      rw [List.foldl_cons, ih, hstep, filterMap_report_cons, List.map_append, List.append_assoc]

end Dispatch.Event

namespace Statistics.SumsUp

variable {statistics : Statistics} {reports : List Report}

theorem record (h : statistics.SumsUp reports) (event : Event) :
    (Event.record statistics event).SumsUp (reports ++ event.report?.toList) := by
  cases event with
  | dispatched =>
      rw [Event.report?, Option.toList_none, List.append_nil]
      exact h.recordDispatch
  | offered rule =>
      rw [Event.report?, Option.toList_none, List.append_nil]
      exact h.recordOffer rule
  | replaced rule emitted => exact h.recordVisit rule emitted

theorem foldl_record (h : statistics.SumsUp reports) (events : List Event) :
    (events.foldl Event.record statistics).SumsUp
      (reports ++ events.filterMap Event.report?) := by
  induction events generalizing statistics reports with
  | nil =>
      rw [List.filterMap_nil, List.append_nil]
      exact h
  | cons event events ih =>
      rw [Event.filterMap_report_cons, ← List.append_assoc]
      exact ih (h.record event)

end Statistics.SumsUp

/-- Since the journal was as given, the run wrote a message for every report and nothing else, and
the reports are what it counted. -/
structure Run.Tells (journal : Log.Journal) (reports : List Report) (run : Run σ) : Prop where
  written : run.journal.toList = journal.toList ++ reports.map Report.message
  counted : run.statistics.SumsUp reports

namespace Run.Tells

variable {journal : Log.Journal} {reports : List Report} {run : Run σ}

theorem advance (h : run.Tells journal reports) (workspace : Workspace σ) (events : List Event) :
    (run.advance workspace events).Tells journal
      (reports ++ events.filterMap Event.report?) where
  written := by
    rw [List.map_append, ← List.append_assoc, ← h.written]
    exact Event.toList_foldl_note run.journal events
  counted := h.counted.foldl_record events

/-- The message at the end of a unit sums up the others. -/
theorem journal_conclude {M : Type} {run : Run (γ × M)} (h : run.Tells journal reports)
    (transformer : UnitTransformer γ) (nodes : List N) :
    let unit : Except (Halt ε) (List N) × Run (γ × M) := (.ok nodes, run)
    (transformer.conclude unit).2.journal.toList = journal.toList ++
      (reports.map Report.message ++
        [Report.closing reports run.statistics.dispatched nodes.length]) := by
  intro unit
  have hpush : (transformer.conclude unit).2.journal =
      run.journal.push (.finished run.statistics.dispatched run.statistics.totalMatches
        run.statistics.deleted run.statistics.inserted nodes.length) := rfl
  rw [hpush, Array.toList_push, h.written, h.counted.totalMatches, h.counted.deleted,
    h.counted.inserted, List.append_assoc, Report.closing]

end Run.Tells

/-- The report of a call, if it is a successful visit, when the rules have these names. -/
def Call.report? (names : List String) : Call ε N → Option Report
  | visited place _ (.ok nodes) => some ⟨names.getD place "", nodes.length⟩
  | _ => none

def Deed.report? (names : List String) : Deed S ε N → Option Report
  | called call => call.report? names
  | _ => none

section Report

variable {names : List String}

theorem filterMap_report_called (calls : List (Call ε N)) :
    (calls.map .called : List (Deed S ε N)).filterMap (Deed.report? names) =
      calls.filterMap (Call.report? names) := by
  rw [List.filterMap_map]
  rfl

theorem filterMap_report_made (places : List Nat) :
    (places.map .made : List (Deed S ε N)).filterMap (Deed.report? names) = [] := by
  rw [List.filterMap_map]
  exact List.filterMap_eq_nil_iff.mpr fun _ _ => rfl

variable {place : Nat} {name : String} (hname : names[place]? = some name)

include hname

/-- What is recorded of an offer that did not fail are the calls of the offer. -/
theorem Offer.filterMap_report_events (node : N) (replacement : Option (List N)) :
    (Offer.events name ⟨node, replacement⟩).filterMap Event.report? =
      (Call.ofAsk place node (.ok replacement : Except ε _)).filterMap (Call.report? names) := by
  cases replacement with
  | none => rfl
  | some nodes =>
      have hvisited : (Call.visited place node (.ok nodes : Except ε _)).report? names =
          some ⟨name, nodes.length⟩ := by
        rw [Call.report?, List.getD_eq_getElem?_getD, hname, Option.getD_some]
      rw [Call.ofAsk, List.filterMap_cons_none rfl, List.filterMap_cons_some hvisited]
      rfl

end Report

namespace RuleType

variable {R : Type} {place : Nat} {type : RuleType γ ε N} {memory : Part R type.Memory} {node : N}

/-- An instance, with the log of all instances. -/
def loggedOn (place : Nat) (type : RuleType γ ε N) (memory : Part R type.Memory) :
    Rule ((γ × List (Deed S ε N)) × R) ε N :=
  (type.logged place).rule.on memory.inContext

theorem log_wants {before after : (γ × List (Deed S ε N)) × R} {answer : Bool}
    (h : ((type.loggedOn place memory).wants node).run before = (answer, after)) :
    after.1.2 = before.1.2 ++ [.called (.asked place node answer)] := by
  obtain ⟨rfl, rfl⟩ := Prod.ext_iff.mp h
  rfl

theorem log_visit {before after : Workspace ((γ × List (Deed S ε N)) × R)}
    {result : Except ε (List N)}
    (h : ((type.loggedOn place memory).visit node).run before = (result, after)) :
    after.shared.1.2 = before.shared.1.2 ++ [.called (.visited place node result)] := by
  obtain ⟨rfl, rfl⟩ := Prod.ext_iff.mp h
  rfl

/-- An instance writes its calls to the end of the log. -/
theorem log_ask {before after : Workspace ((γ × List (Deed S ε N)) × R)}
    {result : Except ε (Option (List N))}
    (h : ((type.loggedOn place memory).ask node).run before = (result, after)) :
    after.shared.1.2 = before.shared.1.2 ++ (Call.ofAsk place node result).map .called := by
  rcases hasked : ((type.loggedOn place memory).wants node).run before.shared with
    ⟨_ | _, shared⟩
  · rw [Rule.run_ask_of_unwanted hasked] at h
    obtain ⟨rfl, rfl⟩ := Prod.mk.inj h
    exact log_wants hasked
  · rcases hvisited : ((type.loggedOn place memory).visit node).run { before with shared } with
      ⟨visited, last⟩
    rw [Rule.run_ask_of_visited hasked hvisited] at h
    obtain ⟨rfl, rfl⟩ := Prod.mk.inj h
    rw [log_visit hvisited, log_wants hasked, List.append_assoc]
    cases visited <;> rfl

/-- Every instance of the logged rule types writes its calls, as those of a rule of its name. -/
theorem exists_loggedOn_of_mem {types : List (RuleType γ ε N)}
    {rule : Rule ((γ × List (Deed S ε N)) × Memories (loggedAll 0 types)) ε N}
    (h : rule ∈ instances (loggedAll 0 types)) :
    ∃ (place : Nat) (type : RuleType γ ε N)
      (memory : Part (Memories (loggedAll 0 types)) type.Memory),
      (types.map name)[place]? = some type.name ∧ rule = type.loggedOn place memory := by
  obtain ⟨_, htype, memory, rfl⟩ := exists_memory_of_mem_instances h
  obtain ⟨place, type, hplace, heq⟩ := exists_of_mem_loggedAll htype
  rw [Nat.zero_add] at heq
  subst heq
  refine ⟨place, type, memory, ?_, rfl⟩
  rw [List.getElem?_map, hplace, Option.map_some]

end RuleType

section Log

variable {R : Type} {names : List String} {journal : Log.Journal}

/-- What was told are the successful visits that stand in the log. -/
def TellsLog (names : List String) (journal : Log.Journal)
    (run : Run ((γ × List (Deed S ε N)) × R)) : Prop :=
  run.Tells journal (run.workspace.shared.1.2.filterMap (Deed.report? names))

/-- An offer to an instance tells what it adds to the log. -/
theorem TellsLog.offer {run : Run ((γ × List (Deed S ε N)) × R)} (h : TellsLog names journal run)
    {place : Nat} {type : RuleType γ ε N} (hname : names[place]? = some type.name)
    (memory : Part R type.Memory) (node : N) :
    TellsLog names journal ((offer (type.loggedOn place memory) node).run run).2 := by
  rw [run_offer]
  rcases hasked : ((type.loggedOn place memory).ask node).run run.workspace with
    ⟨error | replacement, workspace⟩
  · have hlog := RuleType.log_ask hasked
    have htells := h.advance workspace [.offered type.name]
    change Run.Tells journal (workspace.shared.1.2.filterMap _) _
    rw [hlog, List.filterMap_append, filterMap_report_called]
    exact htells
  · have hlog := RuleType.log_ask hasked
    have htells := h.advance workspace (Offer.events type.name ⟨node, replacement⟩)
    rw [Offer.filterMap_report_events hname, ← filterMap_report_called, ← List.filterMap_append,
      ← hlog] at htells
    exact htells

/-- However a run ends, it told the successful visits of the log. -/
theorem TellsLog.dispatch [Host N] {types : List (RuleType γ ε N)}
    {run : Run ((γ × List (Deed S ε N)) × RuleType.Memories (RuleType.loggedAll 0 types))}
    (h : TellsLog (types.map RuleType.name) journal run) (depth : Nat) (node : N) :
    TellsLog (types.map RuleType.name) journal
      ((dispatch (RuleType.instances (RuleType.loggedAll 0 types)) depth node).run run).2 := by
  refine dispatch_keeps ?_ ?_ ?_ depth node h
  · intro rule hrule node run hrun
    obtain ⟨place, type, memory, hname, rfl⟩ := RuleType.exists_loggedOn_of_mem hrule
    exact hrun.offer hname memory node
  · exact fun run hrun => ⟨hrun.written, hrun.counted.recordDispatch⟩
  · exact fun run hrun => ⟨hrun.written, hrun.counted⟩

end Log

namespace Pipeline

section Unit

variable {pipeline : Pipeline γ ε N} (request : Request pipeline.context.Services N) (context : γ)
  {log : List (Deed pipeline.context.Services ε N)}

/-- Making the instances tells nothing. -/
theorem tellsLog_unitStart_logged
    (hlog : log.filterMap (Deed.report? pipeline.ruleNames) = []) :
    TellsLog pipeline.ruleNames request.bench.journal
      (pipeline.logged.unitStart request (context, log)) := by
  obtain ⟨-, hstate⟩ := RuleType.run_freshAll_loggedAll 0 pipeline.rules context log
  have hmade : (pipeline.logged.unitStart request (context, log)).workspace.shared.1.2 =
      log ++ (List.range' 0 pipeline.rules.length).map .made := congrArg Prod.snd hstate
  have hreports : (pipeline.logged.unitStart request (context, log)).workspace.shared.1.2.filterMap
      (Deed.report? pipeline.ruleNames) = [] := by
    rw [hmade, List.filterMap_append, hlog, filterMap_report_made, List.append_nil]
  rw [TellsLog, hreports]
  exact ⟨(List.append_nil _).symm, .empty⟩

variable [Host N]

/-- A unit tells the visits that stand in its log. -/
theorem exists_tells_unitRun (hlog : log.filterMap (Deed.report? pipeline.ruleNames) = []) :
    let unit := pipeline.unitRun request context
    let unit' := pipeline.logged.unitRun request (context, log)
    ∃ deeds, unit'.1 = unit.1 ∧ unit'.2.statistics = unit.2.statistics ∧
      unit'.2.workspace.shared.1 = (unit.2.workspace.shared.1, deeds) ∧
      unit.2.Tells request.bench.journal (deeds.filterMap (Deed.report? pipeline.ruleNames)) := by
  intro unit unit'
  have hfits := pipeline.unitStart_logged_fits request context log
  obtain ⟨hresult, hafter⟩ := dispatch_tracks
    (RuleType.instances_loggedAll_track 0 pipeline.rules _) request.depth request.root hfits
  have htells : TellsLog pipeline.ruleNames request.bench.journal unit'.2 :=
    (tellsLog_unitStart_logged request context hlog).dispatch request.depth request.root
  refine ⟨_, hresult, hafter.statistics, Prod.ext hafter.shared.1 rfl, ?_⟩
  exact ⟨hafter.journal ▸ htells.written, hafter.statistics ▸ htells.counted⟩

end Unit

variable [Host N] (pipeline : Pipeline γ ε N)

/-- The context when the rules of the unit are made. -/
def prepared (transformer : UnitTransformer γ) (request : Request pipeline.context.Services N) :
    γ :=
  ((pipeline.context.beginUnit request.services request.root).run transformer.context).2

/-- Objects are treated as objects: by every rule, and by the context, which refers to nothing but
existing objects when the rules are first called. -/
def Grounded (request : Request pipeline.context.Services N) (context : γ) : Prop :=
  ∃ (refs : γ × RuleType.Memories pipeline.rules → Set N) (heap : Heap N),
    (∀ rule ∈ RuleType.instances pipeline.rules, rule.Honest refs) ∧
      request.root ∈ heap.objects ∧ heap.Covers refs (pipeline.unitStart request context).workspace

theorem size_unitRun [Host.Faithful N] {request : Request pipeline.context.Services N} {context : γ}
    (hgrounded : pipeline.Grounded request context) {nodes : List N}
    {run : Run (γ × RuleType.Memories pipeline.rules)}
    (h : pipeline.unitRun request context = (.ok nodes, run)) :
    total (nodes.map Host.subtreeSize) + run.statistics.deleted =
      run.statistics.dispatched + run.statistics.inserted := by
  obtain ⟨refs, heap, honest, hroot, hcovers⟩ := hgrounded
  obtain ⟨trace, hnode, rfl, hleaves⟩ := dispatch_ok h
  rw [← hnode] at hroot
  exact hleaves.size_add_deleted honest hroot hcovers rfl

/-- **The journal tells the statistics.** A call of the transformer writes one message for each
successful visit of its log, in order, and a closing one if it succeeds. The closing message and the
statistics of the unit say of the visits what the other messages say, and what was dispatched and
inserted less what was deleted is the size of the result. -/
theorem transform_reports (transformer : UnitTransformer γ)
    (request : Request pipeline.context.Services N) :
    let call := (pipeline.transform request.depth request.services request.root transformer).run
      request.bench
    ∃ (deeds : List (Deed pipeline.context.Services ε N)) (messages : List Log.Message),
      pipeline.logged.serve (transformer.withLog []) request = (call.1.1, call.1.2.withLog deeds) ∧
      call.2.journal.toList = request.bench.journal.toList ++ messages ∧
      let reports := deeds.filterMap (Deed.report? pipeline.ruleNames)
      (∀ halt, call.1.1 = .error halt → messages = reports.map Report.message ∧
        messages.map Log.Message.shown = reports.map Report.line) ∧
      ∀ output, call.1.1 = .ok output → ∃ statistics,
        let roots := output.nodes.length
        call.1.2.lastStatistics = some statistics ∧ statistics.SumsUp reports ∧
        messages = reports.map Report.message ++
          [Report.closing reports statistics.dispatched roots] ∧
        messages.map Log.Message.shown = reports.map Report.line ++
          [Report.closingLine reports statistics.dispatched roots] ∧
        (Host.Faithful N → pipeline.Grounded request (pipeline.prepared transformer request) →
          (total (output.nodes.map Host.subtreeSize) : ℤ) =
            statistics.dispatched + Report.insertions reports - Report.deletions reports) := by
  intro call
  have hlogged : (pipeline.logged.context.beginUnit request.services request.root).run
      (transformer.withLog []).context = _ :=
    pipeline.context.run_beginUnit_logged request.services request.root transformer.context
      ([] : List (Deed pipeline.context.Services ε N))
  rcases hbegun : (pipeline.context.beginUnit request.services request.root).run
    transformer.context with ⟨error | _, context⟩ <;> rw [hbegun] at hlogged
  · have hcall : call = ((.error (.failed error), { transformer with context }), request.bench) :=
      run_transform_of_refused hbegun
    rw [serve_of_refused hlogged, hcall]
    refine ⟨_, [], rfl, (List.append_nil _).symm, fun _ _ => ⟨rfl, rfl⟩, fun _ houtput => ?_⟩
    cases houtput
  · have hcall : call = transformer.conclude (pipeline.unitRun request context) :=
      run_transform_of_begun hbegun
    have hprepared : pipeline.prepared transformer request = context := congrArg Prod.snd hbegun
    let begun : Deed pipeline.context.Services ε N := .begun request.services request.root
    have hnone : [begun].filterMap (Deed.report? pipeline.ruleNames) = [] := rfl
    obtain ⟨deeds, hresult, hstatistics, hshared, htells⟩ :=
      exists_tells_unitRun request context hnone
    rcases hrun : pipeline.unitRun request context with ⟨halt | nodes, run⟩ <;>
      rw [hrun] at hcall hresult hstatistics hshared htells <;>
      rw [serve_of_begun hlogged, List.nil_append, UnitTransformer.conclude, hresult, hstatistics,
        hshared, hcall, hprepared]
    · refine ⟨deeds, _, rfl, htells.written, fun _ _ => ⟨rfl, ?_⟩, fun _ houtput => ?_⟩
      · exact Report.map_shown_message _
      · cases houtput
    · refine ⟨deeds, _, rfl, htells.journal_conclude transformer nodes, fun _ hhalt => ?_,
        fun output houtput => ?_⟩
      · cases hhalt
      · obtain rfl : UnitOutput.ofNodes nodes = output := Except.ok.inj houtput
        rw [UnitOutput.nodes_ofNodes]
        refine ⟨run.statistics, rfl, htells.counted, rfl, Report.map_shown_closing _ _ _,
          fun hfaithful hgrounded => ?_⟩
        have hsize := pipeline.size_unitRun hgrounded hrun
        rw [htells.counted.deleted, htells.counted.inserted] at hsize
        omega

end Pipeline

namespace Catalogue

/-- Pipelines of the catalogue treat objects as objects, on every bench that has the root. -/
theorem pipeline_grounded (scope : String) (entries : List Entry) {request : Request Services Node}
    (hroot : request.bench.Has request.root) (transformer : UnitTransformer Context) :
    (pipeline scope entries).Grounded request
      ((pipeline scope entries).prepared transformer request) := by
  obtain ⟨heap, hsupply, hmem⟩ := hroot
  exact ⟨_, heap, pipeline_honest scope entries, hmem, unitStart_covers hsupply hmem _⟩

def duplication : Request Services Node := ⟨{}, sharedBlock, 2, { supply := ⟨2⟩ }⟩

theorem duplication_has : duplication.bench.Has duplication.root :=
  ⟨sampleHeap, rfl, sharedBlock_mem⟩

def duplicatingStart : UnitTransformer Context where
  context := { compilation := "", message := "" }

/-- The unit that duplicates both appearances of a statement ends with a message that tells the size
of its result. -/
theorem transform_reports_block : ∃ (output : UnitOutput Node) (statistics : Statistics)
    (reports : List Report),
    let call := (duplicating.transform duplication.depth duplication.services duplication.root
      duplicatingStart).run duplication.bench
    call.1.1 = .ok output ∧ call.1.2.lastStatistics = some statistics ∧
    call.2.journal.toList = reports.map Report.message ++
      [Report.closing reports statistics.dispatched output.nodes.length] ∧
    (total (output.nodes.map Host.subtreeSize) : ℤ) =
      statistics.dispatched + Report.insertions reports - Report.deletions reports := by
  have hok : ((duplicating.transform duplication.depth duplication.services duplication.root
      duplicatingStart).run duplication.bench).1.1.toOption.isSome = true := by decide +kernel
  have hgrounded :=
    pipeline_grounded "" [.observe, .duplicateStatement] duplication_has duplicatingStart
  obtain ⟨deeds, messages, -, hjournal, -, hfinished⟩ :=
    duplicating.transform_reports duplicatingStart duplication
  -- The call stays closed from here on, so that nothing computes it again.
  generalize (duplicating.transform duplication.depth duplication.services duplication.root
    duplicatingStart).run duplication.bench = call at hok hjournal hfinished ⊢
  rcases houtcome : call.1.1 with _ | output <;> rw [houtcome] at hok
  · cases hok
  · obtain ⟨statistics, hlast, -, rfl, -, hsize⟩ := hfinished output houtcome
    exact ⟨output, statistics, _, houtcome, hlast, hjournal, hsize inferInstance hgrounded⟩

end Catalogue

end TreeRules
