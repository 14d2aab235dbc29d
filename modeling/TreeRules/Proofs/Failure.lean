import TreeRules.Proofs.Bookkeeping
import TreeRules.Proofs.CallOrder
import TreeRules.Proofs.Preservation

/-!
# Failures

A dispatcher may dispatch one node after the other, and a failure does not stop it: the next
dispatch goes on from the state that the failing visit left. A failing visit is counted as offered
and not as matched, and no rule is called after it. So all counters can be held against the log of
the calls, whichever dispatches failed.
-/

namespace TreeRules

open Dispatch

variable {σ ε N : Type}

theorem Workspace.eq_of_withLog_eq {workspace workspace' : Workspace σ}
    {calls calls' : List (Call ε N)}
    (h : workspace.withLog calls = workspace'.withLog calls') : workspace = workspace' := by
  have hshared := congrArg (fun workspace => workspace.shared.1) h
  have hsupply := congrArg Workspace.supply h
  obtain ⟨shared, supply⟩ := workspace
  obtain rfl : shared = workspace'.shared := hshared
  obtain rfl : supply = workspace'.supply := hsupply
  rfl

theorem Run.eq_of_withLog_eq {run run' : Run σ} {calls calls' : List (Call ε N)}
    (h : run.withLog calls = run'.withLog calls') : run = run' := by
  have hworkspace := Workspace.eq_of_withLog_eq (congrArg Run.workspace h)
  have hstatistics := congrArg Run.statistics h
  have hjournal := congrArg Run.journal h
  obtain ⟨workspace, statistics, journal⟩ := run
  obtain rfl : workspace = run'.workspace := hworkspace
  obtain rfl : statistics = run'.statistics := hstatistics
  obtain rfl : journal = run'.journal := hjournal
  rfl

/-- The number of recorded questions, over all rules. -/
def Statistics.totalOffered (statistics : Statistics) : Nat :=
  total (statistics.rules.entries.map fun entry => entry.2.offered)

namespace Statistics

variable (statistics : Statistics) (rule : String) (emitted : Nat)

theorem totalOffered_recordOffer :
    (statistics.recordOffer rule).totalOffered = statistics.totalOffered + 1 := by
  have hoffered : ∀ counts : RuleCounts, counts.addOffer.offered = counts.offered + 1 :=
    fun _ => rfl
  exact CountTable.total_bump rfl hoffered statistics.rules rule

theorem totalOffered_recordVisit :
    (statistics.recordVisit rule emitted).totalOffered = statistics.totalOffered := by
  have hoffered : ∀ counts : RuleCounts, (counts.addVisit emitted).offered = counts.offered + 0 :=
    fun _ => rfl
  exact CountTable.total_bump rfl hoffered statistics.rules rule

theorem totalMatches_recordVisit :
    (statistics.recordVisit rule emitted).totalMatches = statistics.totalMatches + 1 := by
  have hmatched : ∀ counts : RuleCounts, (counts.addVisit emitted).matched = counts.matched + 1 :=
    fun _ => rfl
  exact CountTable.total_bump rfl hmatched statistics.rules rule

end Statistics

namespace Call

/-- The answer, if the call is a question. -/
def answer : Call ε N → Option Bool
  | asked _ _ answer => some answer
  | visited _ _ _ => none

/-- Whether the call is a visit that failed. -/
def failed : Call ε N → Bool
  | visited _ _ (.error _) => true
  | _ => false

/-- Whether the rule that is called has the name. -/
def isOf (rules : List (Rule σ ε N)) (name : String) (call : Call ε N) : Bool :=
  rules[call.place]?.map Rule.name == some name

end Call

/-- What an offer records: the question, and the visit unless it failed. -/
def Statistics.recordAsk (statistics : Statistics) (rule : String) :
    Except ε (Option (List N)) → Statistics
  | .ok none | .error _ => statistics.recordOffer rule
  | .ok (some nodes) => (statistics.recordOffer rule).recordVisit rule nodes.length

namespace Statistics

variable (statistics : Statistics) (rule : String) (place : Nat) (node : N)
  (result : Except ε (Option (List N)))

theorem totalOffered_recordAsk :
    (statistics.recordAsk rule result).totalOffered =
      statistics.totalOffered + ((Call.ofAsk place node result).filterMap Call.answer).length := by
  match result with
  | .ok none => exact statistics.totalOffered_recordOffer rule
  | .ok (some nodes) =>
      rw [recordAsk, totalOffered_recordVisit]
      exact statistics.totalOffered_recordOffer rule
  | .error error => exact statistics.totalOffered_recordOffer rule

theorem totalMatches_recordAsk :
    (statistics.recordAsk rule result).totalMatches +
        (Call.ofAsk place node result).countP Call.failed =
      statistics.totalMatches +
        ((Call.ofAsk place node result).filterMap Call.answer).count true := by
  match result with
  | .ok none =>
      rw [recordAsk, totalMatches_recordOffer]
      rfl
  | .ok (some nodes) =>
      rw [recordAsk, totalMatches_recordVisit, totalMatches_recordOffer]
      rfl
  | .error error =>
      rw [recordAsk, totalMatches_recordOffer]
      rfl

theorem counts_recordAsk_self :
    ((statistics.recordAsk rule result).counts rule).offered + (statistics.counts rule).matched =
      (statistics.counts rule).offered + ((statistics.recordAsk rule result).counts rule).matched +
        (((Call.ofAsk place node result).filterMap Call.answer).count false +
          (Call.ofAsk place node result).countP Call.failed) := by
  match result with
  | .ok none =>
      rw [recordAsk, counts_recordOffer, if_pos rfl]
      exact Nat.add_right_comm _ _ _
  | .ok (some nodes) =>
      rw [recordAsk, counts_recordVisit, if_pos rfl, counts_recordOffer, if_pos rfl]
      exact Nat.add_right_comm _ _ _
  | .error error =>
      rw [recordAsk, counts_recordOffer, if_pos rfl]
      exact Nat.add_right_comm _ _ _

theorem counts_recordAsk_of_ne {name : String} (hname : name ≠ rule) :
    (statistics.recordAsk rule result).counts name = statistics.counts name := by
  match result with
  | .ok none => rw [recordAsk, counts_recordOffer, if_neg hname]
  | .ok (some nodes) =>
      rw [recordAsk, counts_recordVisit, if_neg hname, counts_recordOffer, if_neg hname]
  | .error error => rw [recordAsk, counts_recordOffer, if_neg hname]

end Statistics

/-- The counters agree with the calls: a call is counted under the name of its rule, and a failed
visit is not counted as a match. -/
structure Accounted (rules : List (Rule σ ε N)) (calls : List (Call ε N))
    (statistics : Statistics) : Prop where
  asked : statistics.totalOffered = (calls.filterMap Call.answer).length
  accepted : (calls.filterMap Call.answer).count true =
    statistics.totalMatches + calls.countP Call.failed
  offered : ∀ name, (statistics.counts name).offered = (statistics.counts name).matched +
    (((calls.filter (Call.isOf rules name)).filterMap Call.answer).count false +
      (calls.filter (Call.isOf rules name)).countP Call.failed)

section Accounted

variable {rules : List (Rule σ ε N)} {rule : Rule σ ε N} {place : Nat}
  (hrule : rules[place]? = some rule)

include hrule

theorem filter_isOf_ofAsk (name : String) (node : N) (result : Except ε (Option (List N))) :
    (Call.ofAsk place node result).filter (Call.isOf rules name) =
      if name = rule.name then Call.ofAsk place node result else [] := by
  have hof : ∀ call ∈ Call.ofAsk place node result,
      call.isOf rules name = true ↔ name = rule.name := by
    intro call hcall
    rw [Call.isOf, place_of_mem_ofAsk hcall, hrule, Option.map_some, beq_iff_eq, Option.some_inj]
    exact eq_comm
  by_cases hname : name = rule.name
  · rw [if_pos hname]
    exact List.filter_eq_self.mpr fun call hcall => (hof call hcall).mpr hname
  · rw [if_neg hname]
    exact List.filter_eq_nil_iff.mpr fun call hcall => mt (hof call hcall).mp hname

theorem Accounted.append_ofAsk {calls : List (Call ε N)} {statistics : Statistics}
    (h : Accounted rules calls statistics) (node : N) (result : Except ε (Option (List N))) :
    Accounted rules (calls ++ Call.ofAsk place node result)
      (statistics.recordAsk rule.name result) where
  asked := by
    rw [statistics.totalOffered_recordAsk rule.name place node, h.asked, List.filterMap_append,
      List.length_append]
  accepted := by
    have hbefore := h.accepted
    have hmatches := statistics.totalMatches_recordAsk rule.name place node result
    rw [List.filterMap_append, List.count_append, List.countP_append]
    omega
  offered name := by
    have hbefore := h.offered name
    rw [List.filter_append, filter_isOf_ofAsk hrule]
    by_cases hname : name = rule.name
    · have hcounts := statistics.counts_recordAsk_self rule.name place node result
      rw [if_pos hname, List.filterMap_append, List.count_append, List.countP_append]
      rw [← hname] at hcounts ⊢
      omega
    · rw [statistics.counts_recordAsk_of_ne rule.name result hname, if_neg hname, List.append_nil]
      exact hbefore

end Accounted

theorem accounted_nil (rules : List (Rule σ ε N)) : Accounted rules [] {} where
  asked := rfl
  accepted := rfl
  offered _ := rfl

namespace Dispatch

theorem statistics_offer (rule : Rule σ ε N) (node : N) (run : Run σ) :
    ((offer rule node).run run).2.statistics =
      run.statistics.recordAsk rule.name ((rule.ask node).run run.workspace).1 := by
  rw [run_offer]
  rcases (rule.ask node).run run.workspace with ⟨_ | _ | _, _⟩ <;> rfl

theorem run_offer_logged (place : Nat) (rule : Rule σ ε N) (node : N) (run : Run σ)
    (log : List (Call ε N)) :
    (offer (rule.logged place) node).run (run.withLog log) =
      (((offer rule node).run run).1, ((offer rule node).run run).2.withLog
        (log ++ Call.ofAsk place node ((rule.ask node).run run.workspace).1)) := by
  have hask : ((rule.logged place).ask node).run (run.withLog log).workspace = _ :=
    Rule.run_ask_logged
  rw [run_offer, run_offer, hask]
  rcases (rule.ask node).run run.workspace with ⟨_ | _, _⟩ <;> rfl

section Accounted

variable [Host N] {rules : List (Rule σ ε N)}

/-- Whatever was called before, and however the dispatch ends, the counters agree with the calls. -/
theorem dispatch_accounted {earlier calls : List (Call ε N)} {run after : Run σ}
    (h : Accounted rules earlier run.statistics) {depth : Nat} {root : N}
    {result : Except (Halt ε) (List N)}
    (hlogged : (dispatch (logged 0 rules) depth root).run (run.withLog []) =
      (result, after.withLog calls)) : Accounted rules (earlier ++ calls) after.statistics := by
  let kept (run : Run (σ × List (Call ε N))) : Prop :=
    Accounted rules (earlier ++ run.workspace.shared.2) run.statistics
  have hoffer : ∀ rule ∈ logged 0 rules, ∀ node run, kept run →
      kept ((offer rule node).run run).2 := by
    intro rule hrule node run hkept
    obtain ⟨place, original, horiginal, rfl⟩ := mem_logged hrule
    have hrun : run = Run.withLog ⟨⟨run.workspace.shared.1, run.workspace.supply⟩, run.statistics,
      run.journal⟩ run.workspace.shared.2 := rfl
    rw [Nat.zero_add, hrun, run_offer_logged]
    have hstep := hkept.append_ofAsk horiginal node
      ((original.ask node).run ⟨run.workspace.shared.1, run.workspace.supply⟩).1
    rw [List.append_assoc] at hstep
    change Accounted rules _ _
    rw [Run.withLog, statistics_offer]
    exact hstep
  have hrecord : ∀ run, kept run →
      kept { run with statistics := run.statistics.recordDispatch } := by
    intro run hkept
    exact ⟨hkept.asked, hkept.accepted, hkept.offered⟩
  have hstart : kept (run.withLog []) := by
    change Accounted rules (earlier ++ []) run.statistics
    rw [List.append_nil]
    exact h
  have hend := @dispatch_keeps _ _ _ _ _ kept hoffer hrecord (fun _ hkept => hkept) depth root _
    hstart
  rw [hlogged] at hend
  exact hend

end Accounted

section Last

theorem failed_of_mem_ofAsk_ok {place : Nat} {node : N} {replacement : Option (List N)}
    {call : Call ε N} (h : call ∈ Call.ofAsk place node (.ok replacement)) :
    call.failed = false := by
  cases replacement with
  | none =>
      rw [List.mem_singleton.mp h]
      rfl
  | some nodes => rcases List.mem_pair.mp h with rfl | rfl <;> rfl

theorem failed_of_mem_roundCalls {first : Nat} {rounds : List (List (Offer N))} {call : Call ε N}
    (h : call ∈ roundCalls first rounds) : call.failed = false := by
  induction rounds generalizing first with
  | nil => cases h
  | cons offers rounds ih =>
      rcases List.mem_append.mp h with hcall | hcall
      · obtain ⟨offer, _, hcall⟩ := List.mem_flatMap.mp hcall
        exact failed_of_mem_ofAsk_ok hcall
      · exact ih hcall

theorem failed_of_mem_calls {trace : Trace N} {call : Call ε N} (h : call ∈ trace.calls) :
    call.failed = false := by
  obtain ⟨level, hlevel, hcall⟩ := List.mem_flatten.mp h
  exact trace.forall_mem_levels (P := fun level => ∀ call ∈ level, Call.failed call = false)
    (fun _ _ h => failed_of_mem_roundCalls h) level hlevel call hcall

theorem Breakdown.calls_child (node survivor : N) (rounds : List (List (Offer N)))
    (survivals : List (Survival N)) (children : List (Trace N)) (inner : Breakdown ε N) :
    (child node rounds survivals survivor children inner).calls =
      roundCalls 0 rounds ++
        (survivals.flatMap fun survival => survival.children.flatMap Trace.calls) ++
        children.flatMap Trace.calls ++ inner.calls := by
  simp only [calls, levels, List.cons_append, List.flatten_cons, List.flatten_append,
    flatten_flatMap, List.append_assoc]
  rfl

/-- Before the dispatch that broke off, no visit failed. -/
theorem failed_of_mem_before {rounds : List (List (Offer N))} {survivals : List (Survival N)}
    {children : List (Trace N)} {call : Call ε N}
    (h : call ∈ roundCalls 0 rounds ++
      (survivals.flatMap fun survival => survival.children.flatMap Trace.calls) ++
        children.flatMap Trace.calls) : call.failed = false := by
  have hchildren : ∀ {children : List (Trace N)}, call ∈ children.flatMap Trace.calls →
      call.failed = false := by
    intro children hcall
    obtain ⟨child, _, hcall⟩ := List.mem_flatMap.mp hcall
    exact failed_of_mem_calls hcall
  rcases List.mem_append.mp h with hcall | hcall
  · rcases List.mem_append.mp hcall with hcall | hcall
    · exact failed_of_mem_roundCalls hcall
    · obtain ⟨survival, _, hcall⟩ := List.mem_flatMap.mp hcall
      exact hchildren hcall
  · exact hchildren hcall

theorem Breakdown.failed_of_tooDeep {breakdown : Breakdown ε N} (h : breakdown.halt = .tooDeep) :
    ∀ call ∈ breakdown.calls, call.failed = false := by
  induction breakdown with
  | visit _ _ _ _ _ => cases h
  | child node rounds survivals survivor children inner ih =>
      rw [calls_child]
      exact List.forall_mem_append.mpr ⟨fun _ hcall => failed_of_mem_before hcall, ih h⟩
  | tooDeep _ => exact fun _ hcall => absurd hcall List.not_mem_nil

variable [Host N] {rules : List (Rule σ ε N)}

/-- What broke off with a failure ends in the failing visit: in the calls, in the events and in the
workspace. -/
theorem Breaks.exists_last {start finish : Workspace σ} {breakdown : Breakdown ε N}
    (h : Breaks rules start breakdown finish) {error : ε} (hhalt : breakdown.halt = .failed error) :
    ∃ earlier place node rule mid events,
      breakdown.calls = earlier ++ Call.ofAsk place node (.error error) ∧
      (∀ call ∈ earlier, call.failed = false) ∧ rules[place]? = some rule ∧
      (rule.ask node).run mid = (.error error, finish) ∧
      breakdown.events (rules.map Rule.name) = events ++ [.offered rule.name] := by
  induction h with
  | @visit start next mid finish before later rule node last _ rounds offers _ hrules _ hrounds _
      hlast =>
      cases hhalt
      have hplace : rules[rounds.length]? = some rule := by
        rw [hrounds.length_eq, hrules, List.getElem?_append_right le_rfl, Nat.sub_self]
        rfl
      have hname : (rules.map Rule.name)[rounds.length]? = some rule.name := by
        rw [List.getElem?_map, hplace, Option.map_some]
      refine ⟨roundCalls 0 (rounds ++ [offers]), rounds.length, last, rule, mid,
        .dispatched :: roundEvents (rules.map Rule.name) (rounds ++ [offers]), ?_,
        fun _ hcall => failed_of_mem_roundCalls hcall, hplace, hlast, ?_⟩
      · simp [Breakdown.calls, Breakdown.levels]
      · rw [Breakdown.events, hname]
        rfl
  | @child start next mid before finish node survivor _ _ rounds survivals children inner _ _ _ _ _ _
      ih =>
      obtain ⟨earlier, place, last, rule, point, events, hcalls, hearlier, hplace, hlast, hevents⟩ :=
        ih hhalt
      refine ⟨roundCalls 0 rounds ++
          (survivals.flatMap fun survival => survival.children.flatMap Trace.calls) ++
          children.flatMap Trace.calls ++ earlier, place, last, rule, point,
        .dispatched :: roundEvents (rules.map Rule.name) rounds ++
          (survivals.flatMap fun survival =>
            survival.children.flatMap (Trace.events (rules.map Rule.name))) ++
          children.flatMap (Trace.events (rules.map Rule.name)) ++ events, ?_, ?_, hplace, hlast,
        ?_⟩
      · rw [Breakdown.calls_child, hcalls, ← List.append_assoc]
      · exact List.forall_mem_append.mpr ⟨fun _ hcall => failed_of_mem_before hcall, hearlier⟩
      · rw [Breakdown.events, hevents, ← List.append_assoc]
  | tooDeep _ _ => cases hhalt

end Last

end Dispatch

/-- One of several dispatches: the node and the bound on the nesting, the result, and the calls of
the rules. -/
structure Turn (ε N : Type) where
  root : N
  depth : Nat
  result : Except (Halt ε) (List N)
  calls : List (Call ε N)

namespace Turn

def request (turn : Turn ε N) : N × Nat := (turn.root, turn.depth)

/-- The error of the visit that failed, if one did. A node that lies too deep is no failed visit. -/
def failure (turn : Turn ε N) : Option ε :=
  match turn.result with
  | .error (.failed error) => some error
  | _ => none

/-- The dispatch takes the dispatcher from one state to the other, whatever its result. -/
structure Runs [Host N] (rules : List (Rule σ ε N)) (before : Run σ) (turn : Turn ε N)
    (after : Run σ) : Prop where
  run_eq : (dispatch rules turn.depth turn.root).run before = (turn.result, after)
  logged_eq : (dispatch (logged 0 rules) turn.depth turn.root).run (before.withLog []) =
    (turn.result, after.withLog turn.calls)

/-- A dispatch that fails does nothing after the visit that failed, the only one that did. -/
structure FailsFast (rules : List (Rule σ ε N)) (turn : Turn ε N) (after : Run σ) : Prop where
  of_failure : ∀ error, turn.failure = some error → ∃ earlier place node rule mid,
    turn.calls = earlier ++ [.asked place node true, .visited place node (.error error)] ∧
    (∀ call ∈ earlier, call.failed = false) ∧ rules[place]? = some rule ∧
    (offer rule node).run mid = (.error (.failed error), after)
  of_none : turn.failure = none → ∀ call ∈ turn.calls, call.failed = false

theorem FailsFast.countP_failed {rules : List (Rule σ ε N)} {turn : Turn ε N} {after : Run σ}
    (h : turn.FailsFast rules after) :
    turn.calls.countP Call.failed = turn.failure.toList.length := by
  rcases hfailure : turn.failure with _ | error
  · exact List.countP_eq_zero.mpr fun call hcall => by
      rw [h.of_none hfailure call hcall]
      exact Bool.false_ne_true
  · obtain ⟨earlier, place, node, _, _, hcalls, hearlier, _, _⟩ := h.of_failure error hfailure
    have hzero : earlier.countP Call.failed = 0 := by
      refine List.countP_eq_zero.mpr fun call hcall => ?_
      rw [hearlier call hcall]
      exact Bool.false_ne_true
    rw [hcalls, List.countP_append, hzero, Nat.zero_add]
    rfl

section Runs

variable [Host N] {rules : List (Rule σ ε N)}

theorem Runs.failsFast {turn : Turn ε N} {before after : Run σ}
    (h : turn.Runs rules before after) : turn.FailsFast rules after := by
  obtain ⟨root, depth, result, calls⟩ := turn
  have hlogged : (dispatch (logged 0 rules) depth root).run (before.withLog []) =
    (result, after.withLog calls) := h.logged_eq
  match result with
  | .ok nodes =>
      obtain ⟨trace, _, _, hleaves⟩ := dispatch_ok hlogged
      have hcalls : calls = trace.calls := hleaves.follows.log_eq
      refine ⟨nofun, fun _ call hcall => ?_⟩
      rw [hcalls] at hcall
      exact failed_of_mem_calls hcall
  | .error .tooDeep =>
      obtain ⟨breakdown, _, hhalt, hbreaks, _⟩ := dispatch_error hlogged
      have hcalls : calls = breakdown.calls := hbreaks.log_eq
      refine ⟨nofun, fun _ => ?_⟩
      change ∀ call ∈ calls, _
      rw [hcalls]
      exact breakdown.failed_of_tooDeep hhalt
  | .error (.failed error) =>
      refine ⟨fun error' heq => ?_, nofun⟩
      cases heq
      obtain ⟨breakdown, _, hhalt, hbreaks, hafter⟩ := dispatch_error hlogged
      have hcalls : calls = breakdown.calls := hbreaks.log_eq
      obtain ⟨earlier, place, node, rule, mid, events, hlast, hearlier, hplace, hask, hevents⟩ :=
        hbreaks.exists_last hhalt
      rw [getElem?_logged] at hplace
      obtain ⟨original, horiginal, rfl⟩ := Option.map_eq_some_iff.mp hplace
      -- Without its log, the rule fails in the same way.
      let point : Workspace σ := ⟨mid.shared.1, mid.supply⟩
      have hlog : ((original.logged (0 + place)).ask node).run (point.withLog mid.shared.2) = _ :=
        Rule.run_ask_logged
      have hboth := hask.symm.trans hlog
      have hresult : ((original.ask node).run point).1 = .error error :=
        (congrArg Prod.fst hboth).symm
      have hworkspace : after.workspace = ((original.ask node).run point).2 :=
        Workspace.eq_of_withLog_eq (congrArg Prod.snd hboth)
      have hfailed : (original.ask node).run point = (.error error, after.workspace) :=
        Prod.ext hresult hworkspace.symm
      have hrecorded : after =
          before.advance after.workspace (events ++ [.offered original.name]) := by
        rw [hevents] at hafter
        exact @Run.eq_of_withLog_eq _ _ _ _ _ calls calls hafter
      refine ⟨earlier, place, node, original, before.advance point events, hcalls.trans hlast,
        hearlier, horiginal, offer_error_iff.mpr ⟨error, after.workspace, hfailed, rfl, ?_⟩⟩
      rw [Run.advance_advance]
      exact hrecorded

theorem exists_runs (rules : List (Rule σ ε N)) (request : N × Nat) (run : Run σ) :
    ∃ (turn : Turn ε N) (after : Run σ), turn.request = request ∧ turn.Runs rules run after := by
  obtain ⟨root, depth⟩ := request
  obtain ⟨calls, hlogged⟩ := dispatch_logged rules depth root run
  exact ⟨⟨root, depth, _, calls⟩, _, rfl, rfl, hlogged⟩

theorem exists_thread (rules : List (Rule σ ε N)) (requests : List (N × Nat)) (run : Run σ) :
    ∃ (turns : List (Turn ε N)) (after : Run σ), turns.map request = requests ∧
      Thread (fun before turn next => turn.Runs rules before next ∧ turn.FailsFast rules next)
        run turns after := by
  induction requests generalizing run with
  | nil => exact ⟨[], run, rfl, .nil run⟩
  | cons request requests ih =>
      obtain ⟨turn, next, rfl, hruns⟩ := exists_runs rules request run
      obtain ⟨turns, after, rfl, hthread⟩ := ih next
      exact ⟨turn :: turns, after, rfl, .cons ⟨hruns, hruns.failsFast⟩ hthread⟩

theorem accounted_of_thread {run after : Run σ} {turns : List (Turn ε N)}
    (h : Thread (fun before turn next => turn.Runs rules before next ∧ turn.FailsFast rules next)
      run turns after) {earlier : List (Call ε N)}
    (hrun : Accounted rules earlier run.statistics) :
    Accounted rules (earlier ++ turns.flatMap calls) after.statistics := by
  induction h generalizing earlier with
  | nil run =>
      rw [List.flatMap_nil, List.append_nil]
      exact hrun
  | cons hstep _ ih =>
      rw [List.flatMap_cons, ← List.append_assoc]
      exact ih (dispatch_accounted hrun hstep.1.logged_eq)

theorem countP_failed_of_thread {run after : Run σ} {turns : List (Turn ε N)}
    (h : Thread (fun before turn next => turn.Runs rules before next ∧ turn.FailsFast rules next)
      run turns after) :
    (turns.flatMap calls).countP Call.failed = (turns.filterMap failure).length := by
  induction h with
  | nil _ => rfl
  | @cons _ _ _ turn turns hstep _ ih =>
      rw [List.flatMap_cons, List.countP_append, hstep.2.countP_failed, ih, List.filterMap_cons]
      rcases turn.failure with _ | error
      · exact Nat.zero_add _
      · exact Nat.add_comm _ _

end Runs

end Turn

/-- **Failures are accounted for.** Any number of nodes are dispatched one after the other, each
from the state that the dispatch before it left, whether or not that failed. A dispatch fails with
the error of its last visit: all visits before it succeeded, and nothing is called or changed after
it. After any number of dispatches every question is counted as offered; under every name, the
offered nodes that are not counted as matched are those that were refused or whose visit failed; and
the rules accepted as many nodes as were matched, and one more for each dispatch that failed. -/
theorem failures_accounted [Host N] (rules : List (Rule σ ε N)) (workspace : Workspace σ)
    (journal : Log.Journal) (requests : List (N × Nat)) :
    ∃ turns : List (Turn ε N), turns.map Turn.request = requests ∧
      ∀ count, ∃ after : Run σ,
        let earlier := turns.take count
        let calls := earlier.flatMap Turn.calls
        let answers := calls.filterMap Call.answer
        Thread (fun before turn next => turn.Runs rules before next ∧ turn.FailsFast rules next)
          { workspace, journal } earlier after ∧
        after.statistics.totalOffered = answers.length ∧
        answers.count true =
          after.statistics.totalMatches + (earlier.filterMap Turn.failure).length ∧
        ∀ name,
          let counts := after.statistics.counts name
          let own := calls.filter (Call.isOf rules name)
          counts.matched ≤ counts.offered ∧
          counts.offered - counts.matched =
            (own.filterMap Call.answer).count false + own.countP Call.failed := by
  obtain ⟨turns, _, hrequests, hthread⟩ :=
    Turn.exists_thread rules requests ({ workspace, journal } : Run σ)
  refine ⟨turns, hrequests, fun count => ?_⟩
  obtain ⟨after, hearlier⟩ := hthread.exists_take count
  have haccounted := Turn.accounted_of_thread hearlier (accounted_nil rules)
  rw [List.nil_append] at haccounted
  have hfailures := Turn.countP_failed_of_thread hearlier
  refine ⟨after, hearlier, haccounted.asked, ?_, fun name => ?_⟩
  · rw [← hfailures]
    exact haccounted.accepted
  · intro counts own
    have hoffered : counts.offered = counts.matched +
        ((own.filterMap Call.answer).count false + own.countP Call.failed) :=
      haccounted.offered name
    constructor
    · omega
    · omega

end TreeRules
