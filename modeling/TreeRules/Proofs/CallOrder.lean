import TreeRules.Proofs.Breakdown
import TreeRules.Proofs.Tracking

/-!
# The order of calls

Every rule is made to write down how it is called and what it answers. That changes nothing else, so
the log of such a run tells the calls of the run without a log. A finished run calls the rules as
its trace says, and a run that halts as its breakdown says.
-/

namespace TreeRules

open Dispatch

variable {σ ε N : Type}

/-- A call of the rule at some place of the list, and what the rule answered. -/
inductive Call (ε N : Type) where
  | asked (place : Nat) (node : N) (answer : Bool)
  | visited (place : Nat) (node : N) (result : Except ε (List N))

namespace Call

def place : Call ε N → Nat
  | asked place _ _ => place
  | visited place _ _ => place

/-- The calls of one offer to a rule, which ends in a failure or in what replaces the node. -/
def ofAsk (place : Nat) (node : N) : Except ε (Option (List N)) → List (Call ε N)
  | .ok none => [asked place node false]
  | .ok (some nodes) => [asked place node true, visited place node (.ok nodes)]
  | .error error => [asked place node true, visited place node (.error error)]

end Call

/-- The rule, made to write every call to the end of a log that it cannot read. -/
def Rule.logged (place : Nat) (rule : Rule σ ε N) : Rule (σ × List (Call ε N)) ε N where
  name := rule.name
  wants node := fun state =>
    let asked := (rule.wants node).run state.1
    (asked.1, asked.2, state.2 ++ [.asked place node asked.1])
  visit node := fun workspace =>
    let visited := (rule.visit node).run ⟨workspace.shared.1, workspace.supply⟩
    (visited.1,
      ⟨(visited.2.shared, workspace.shared.2 ++ [.visited place node visited.1]), visited.2.supply⟩)

/-- All rules with one log, the first one at the given place. -/
def logged (first : Nat) : List (Rule σ ε N) → List (Rule (σ × List (Call ε N)) ε N)
  | [] => []
  | rule :: rules => rule.logged first :: logged (first + 1) rules

theorem length_logged (first : Nat) (rules : List (Rule σ ε N)) :
    (logged first rules).length = rules.length := by
  induction rules generalizing first with
  | nil => rfl
  | cons rule rules ih => rw [logged, List.length_cons, List.length_cons, ih]

theorem getElem?_logged (first place : Nat) (rules : List (Rule σ ε N)) :
    (logged first rules)[place]? = rules[place]?.map (Rule.logged (first + place)) := by
  induction rules generalizing first place with
  | nil => rfl
  | cons rule rules ih =>
      cases place with
      | zero => rfl
      | succ place =>
          rw [logged, List.getElem?_cons_succ, List.getElem?_cons_succ, ih, Nat.add_assoc,
            Nat.add_comm 1]

theorem mem_logged {first : Nat} {rules : List (Rule σ ε N)}
    {rule : Rule (σ × List (Call ε N)) ε N} (h : rule ∈ logged first rules) :
    ∃ place original, rules[place]? = some original ∧
      rule = Rule.logged (first + place) original := by
  obtain ⟨place, hplace⟩ := List.mem_iff_getElem?.mp h
  rw [getElem?_logged] at hplace
  obtain ⟨original, horiginal, rfl⟩ := Option.map_eq_some_iff.mp hplace
  exact ⟨place, original, horiginal, rfl⟩

theorem logged_eq_append {first : Nat} {rules : List (Rule σ ε N)}
    {earlier later : List (Rule (σ × List (Call ε N)) ε N)} {rule : Rule (σ × List (Call ε N)) ε N}
    (h : logged first rules = earlier ++ rule :: later) :
    ∃ before original, earlier = logged first before ∧
      rule = Rule.logged (first + before.length) original := by
  induction earlier generalizing first rules with
  | nil =>
      obtain _ | ⟨original, rules⟩ := rules
      · cases h
      · cases h
        exact ⟨[], original, rfl, rfl⟩
  | cons other earlier ih =>
      obtain _ | ⟨original, rules⟩ := rules
      · cases h
      · obtain ⟨hother, hrest⟩ := List.cons.inj h
        obtain ⟨before, last, rfl, rfl⟩ := ih hrest
        refine ⟨original :: before, last, by rw [← hother]; rfl, ?_⟩
        rw [List.length_cons, Nat.add_right_comm, Nat.add_assoc]

def Workspace.withLog (workspace : Workspace σ) (log : List (Call ε N)) :
    Workspace (σ × List (Call ε N)) where
  shared := (workspace.shared, log)
  supply := workspace.supply

def Run.withLog (run : Run σ) (log : List (Call ε N)) : Run (σ × List (Call ε N)) where
  workspace := run.workspace.withLog log
  statistics := run.statistics
  journal := run.journal

namespace Rule

variable {place : Nat} {rule : Rule σ ε N} {node : N} {workspace : Workspace σ}
  {log : List (Call ε N)}

theorem run_wants_logged {shared after : σ} {answer : Bool}
    (h : (rule.wants node).run shared = (answer, after)) :
    ((rule.logged place).wants node).run (shared, log) =
      (answer, after, log ++ [.asked place node answer]) := by
  change (((rule.wants node).run shared).1, ((rule.wants node).run shared).2,
    log ++ [Call.asked place node ((rule.wants node).run shared).1]) = _
  rw [h]

theorem run_visit_logged {after : Workspace σ} {result : Except ε (List N)}
    (h : (rule.visit node).run workspace = (result, after)) :
    ((rule.logged place).visit node).run (workspace.withLog log) =
      (result, after.withLog (log ++ [.visited place node result])) := by
  change (((rule.visit node).run workspace).1, ((rule.visit node).run workspace).2.withLog
    (log ++ [Call.visited place node ((rule.visit node).run workspace).1])) = _
  rw [h]

theorem run_ask_logged : ((rule.logged place).ask node).run (workspace.withLog log) =
    (((rule.ask node).run workspace).1, ((rule.ask node).run workspace).2.withLog
      (log ++ Call.ofAsk place node ((rule.ask node).run workspace).1)) := by
  rcases hasked : (rule.wants node).run workspace.shared with ⟨answer, shared⟩
  cases answer with
  | false =>
      rw [run_ask_of_unwanted (run_wants_logged hasked), run_ask_of_unwanted hasked]
      rfl
  | true =>
      rcases hvisited : (rule.visit node).run { workspace with shared } with ⟨result, after⟩
      rw [run_ask_of_visited hasked hvisited]
      refine (run_ask_of_visited (run_wants_logged hasked) (run_visit_logged hvisited)).trans ?_
      rw [List.append_assoc]
      cases result <;> rfl

theorem logged_tracks (rule : Rule σ ε N) (place : Nat) :
    (rule.logged place).Tracks (fun state shared => state.1 = shared) rule where
  name := rfl
  wants _ _ _ hshared := by
    subst hshared
    exact ⟨rfl, rfl⟩
  visit _ _ _ _ hshared := by
    subst hshared
    exact ⟨rfl, rfl, rfl⟩

end Rule

theorem Run.Fits.eq_withLog {run : Run (σ × List (Call ε N))} {run' : Run σ}
    (h : run.Fits (fun state shared => state.1 = shared) run') :
    run = run'.withLog run.workspace.shared.2 := by
  obtain ⟨⟨⟨shared, log⟩, supply⟩, statistics, journal⟩ := run
  obtain ⟨⟨shared', supply'⟩, statistics', journal'⟩ := run'
  obtain ⟨rfl, rfl, rfl, rfl⟩ := h
  rfl

namespace Dispatch

theorem logged_track (first : Nat) (rules : List (Rule σ ε N)) :
    List.Forall₂ (Rule.Tracks fun state shared => state.1 = shared) (logged first rules) rules := by
  induction rules generalizing first with
  | nil => exact .nil
  | cons rule rules ih => exact .cons (rule.logged_tracks first) (ih (first + 1))

theorem dispatch_logged [Host N] (rules : List (Rule σ ε N)) (depth : Nat) (node : N)
    (run : Run σ) : ∃ calls, (dispatch (logged 0 rules) depth node).run (run.withLog []) =
      (((dispatch rules depth node).run run).1,
        ((dispatch rules depth node).run run).2.withLog calls) := by
  have hstart : (run.withLog ([] : List (Call ε N))).Fits (fun state shared => state.1 = shared) run :=
    ⟨rfl, rfl, rfl, rfl⟩
  obtain ⟨hresult, hafter⟩ := dispatch_tracks (logged_track 0 rules) depth node hstart
  exact ⟨_, Prod.ext hresult hafter.eq_withLog⟩

def Offer.calls (place : Nat) (offer : Offer N) : List (Call ε N) :=
  Call.ofAsk place offer.node (.ok offer.replacement)

/-- The calls of rounds of offers: round by round, and in every round from left to right. -/
def roundCalls (first : Nat) : List (List (Offer N)) → List (Call ε N)
  | [] => []
  | offers :: rounds => offers.flatMap (Offer.calls first) ++ roundCalls (first + 1) rounds

/-- The calls of all dispatches of a trace, each without those of the dispatches below it. -/
def Trace.levels (trace : Trace N) : List (List (Call ε N)) :=
  trace.dispatches.map fun inner => roundCalls 0 inner.rounds

def Trace.calls (trace : Trace N) : List (Call ε N) := trace.levels.flatten

/-- The calls of all dispatches until the halt, the last of which breaks off. -/
def Breakdown.levels : Breakdown ε N → List (List (Call ε N))
  | visit _ rounds offers last error =>
    [roundCalls 0 (rounds ++ [offers]) ++ Call.ofAsk rounds.length last (.error error)]
  | child _ rounds survivals _ children inner =>
    roundCalls 0 rounds ::
      (survivals.flatMap fun survival => survival.children.flatMap Trace.levels) ++
      children.flatMap Trace.levels ++ inner.levels
  | tooDeep _ => []

def Breakdown.calls (breakdown : Breakdown ε N) : List (Call ε N) := breakdown.levels.flatten

theorem flatten_flatMap {α β : Type} (items : List α) (f : α → List (List β)) :
    (items.flatMap f).flatten = items.flatMap fun item => (f item).flatten := by
  rw [List.flatMap_def, List.flatten_flatten, List.map_map]
  rfl

theorem roundCalls_append (first : Nat) (rounds more : List (List (Offer N))) :
    (roundCalls first (rounds ++ more) : List (Call ε N)) =
      roundCalls first rounds ++ roundCalls (first + rounds.length) more := by
  induction rounds generalizing first with
  | nil => rfl
  | cons offers rounds ih =>
      rw [List.cons_append, roundCalls, ih, roundCalls, List.append_assoc, List.length_cons,
        Nat.add_right_comm, Nat.add_assoc]

section Log

variable {rule : Rule σ ε N} {rules : List (Rule σ ε N)} {place first : Nat}
  {start finish : Workspace (σ × List (Call ε N))}

theorem log_of_ask {node : N} {result : Except ε (Option (List N))}
    (h : ((rule.logged place).ask node).run start = (result, finish)) :
    finish.shared.2 = start.shared.2 ++ Call.ofAsk place node result := by
  have hlogged := @Rule.run_ask_logged _ _ _ place rule node ⟨start.shared.1, start.supply⟩
    start.shared.2
  have hresult : result = _ := congrArg Prod.fst (h.symm.trans hlogged)
  have hfinish : finish = _ := congrArg Prod.snd (h.symm.trans hlogged)
  rw [hfinish, hresult]
  rfl

theorem Answers.log_eq {offer : Offer N} (h : Answers (rule.logged place) start offer finish) :
    finish.shared.2 = start.shared.2 ++ offer.calls place := log_of_ask h

theorem Rounds.log_eq {rounds : List (List (Offer N))}
    (h : Rounds (logged first rules) start rounds finish) :
    finish.shared.2 = start.shared.2 ++ roundCalls first rounds := by
  induction rules generalizing first start rounds with
  | nil =>
      cases h
      exact (List.append_nil _).symm
  | cons rule rules ih =>
      cases h with
      | cons hround hrounds =>
          have hfirst := hround.eq_append_flatMap (fun workspace => workspace.shared.2)
            (Offer.calls first) fun h => h.log_eq
          rw [ih hrounds, hfirst, roundCalls, List.append_assoc]

theorem Trace.calls_eq (trace : Trace N) : (trace.calls : List (Call ε N)) =
    roundCalls 0 trace.rounds ++
      trace.survivals.flatMap fun survival => survival.children.flatMap Trace.calls :=
  flatMap_dispatches _ _

variable [Host N]

theorem Follows.log_eq {trace : Trace N} (h : Follows (logged 0 rules) start trace finish) :
    finish.shared.2 = start.shared.2 ++ trace.calls := by
  refine Follows.induction
    (P := fun start trace finish => finish.shared.2 = start.shared.2 ++ trace.calls)
    (Q := fun start survival finish =>
      finish.shared.2 = start.shared.2 ++ survival.children.flatMap Trace.calls) ?_ ?_ ?_ h
  · intro start next finish node rounds survivals _ hrounds hsurvivals
    have hbelow := hsurvivals.eq_append_flatMap (fun workspace => workspace.shared.2)
      (fun survival => survival.children.flatMap Trace.calls) fun h => h.2
    rw [hbelow, hrounds.log_eq, Trace.calls_eq, List.append_assoc]
    rfl
  · intro start finish node children _ hchildren _
    exact hchildren.eq_append_flatMap (fun workspace => workspace.shared.2) Trace.calls fun h => h.2
  · intro start finish node children _ hchildren _
    exact hchildren.eq_append_flatMap (fun workspace => workspace.shared.2) Trace.calls fun h => h.2

theorem Rebuilds.log_eq {survival : Survival N}
    (h : Rebuilds (logged 0 rules) start survival finish) :
    finish.shared.2 = start.shared.2 ++ survival.children.flatMap Trace.calls := by
  obtain ⟨last, hchildren, hshared⟩ := h.exists_thread
  rw [← hshared]
  exact hchildren.eq_append_flatMap (fun workspace => workspace.shared.2) Trace.calls
    fun h => h.log_eq

theorem Breaks.log_eq {breakdown : Breakdown ε N}
    (h : Breaks (logged 0 rules) start breakdown finish) :
    finish.shared.2 = start.shared.2 ++ breakdown.calls := by
  induction h with
  | @visit start next mid finish _ _ _ node last rest rounds offers error hrules _ hrounds hoffers
      hlast =>
      -- The rules before the failing one answered a round each, so the log calls it by its place.
      obtain ⟨before, original, rfl, rfl⟩ := logged_eq_append hrules
      have hlength : before.length = rounds.length := by rw [hrounds.length_eq, length_logged]
      rw [Nat.zero_add, hlength] at hoffers hlast
      have hround := hoffers.eq_append_flatMap (fun workspace => workspace.shared.2)
        (Offer.calls rounds.length) fun h => h.log_eq
      calc finish.shared.2
          = mid.shared.2 ++ Call.ofAsk rounds.length last (.error error) := log_of_ask hlast
        _ = start.shared.2 ++ (roundCalls 0 (rounds ++ [offers]) ++
              Call.ofAsk rounds.length last (.error error)) := by
            rw [hround, hrounds.log_eq, roundCalls_append, Nat.zero_add]
            simp [roundCalls]
        _ = _ := by simp [Breakdown.calls, Breakdown.levels]
  | @child start next mid before finish node survivor rest others rounds survivals children inner _
      hrounds hsurvivals _ hchildren _ ih =>
      have hbelow := hsurvivals.eq_append_flatMap (fun workspace => workspace.shared.2)
        (fun survival => survival.children.flatMap Trace.calls) fun h => h.log_eq
      have hthese := hchildren.eq_append_flatMap (fun workspace => workspace.shared.2) Trace.calls
        fun h => h.log_eq
      rw [ih, hthese, hbelow, hrounds.log_eq]
      simp only [Breakdown.calls, Breakdown.levels, List.cons_append, List.flatten_cons,
        List.flatten_append, flatten_flatMap, List.append_assoc]
      rfl
  | tooDeep workspace node => exact (List.append_nil _).symm

end Log

section Answered

/-- Every positive answer is followed at once by the visit of that node, and nothing else is. -/
inductive Answered : List (Call ε N) → Prop where
  | nil : Answered []
  | refused (place : Nat) (node : N) {rest : List (Call ε N)} :
      Answered rest → Answered (.asked place node false :: rest)
  | accepted (place : Nat) (node : N) (result : Except ε (List N)) {rest : List (Call ε N)} :
      Answered rest → Answered (.asked place node true :: .visited place node result :: rest)

namespace Answered

variable {calls more : List (Call ε N)}

theorem append (h : Answered calls) (h' : Answered more) : Answered (calls ++ more) := by
  induction h with
  | nil => exact h'
  | refused place node _ ih => exact .refused place node ih
  | accepted place node result _ ih => exact .accepted place node result ih

theorem flatMap {α : Type} {items : List α} {f : α → List (Call ε N)}
    (h : ∀ item ∈ items, Answered (f item)) : Answered (items.flatMap f) := by
  induction items with
  | nil => exact .nil
  | cons item items ih =>
      obtain ⟨hitem, hitems⟩ := List.forall_mem_cons.mp h
      exact hitem.append (ih hitems)

theorem ofAsk (place : Nat) (node : N) (result : Except ε (Option (List N))) :
    Answered (Call.ofAsk place node result) := by
  match result with
  | .ok none => exact .refused place node .nil
  | .ok (some nodes) => exact .accepted place node (.ok nodes) .nil
  | .error error => exact .accepted place node (.error error) .nil

theorem roundCalls (first : Nat) (rounds : List (List (Offer N))) :
    Answered (roundCalls first rounds : List (Call ε N)) := by
  induction rounds generalizing first with
  | nil => exact .nil
  | cons offers rounds ih =>
      exact (flatMap fun offer _ => ofAsk first offer.node (.ok offer.replacement)).append (ih _)

theorem flatten {levels : List (List (Call ε N))} (h : ∀ level ∈ levels, Answered level) :
    Answered levels.flatten := by
  rw [← List.flatMap_id]
  exact flatMap h

theorem not_visited_head (h : Answered calls) (place : Nat) (node : N)
    (result : Except ε (List N)) : calls[0]? ≠ some (.visited place node result) := by
  cases h <;> nofun

theorem visited_succ_iff (h : Answered calls) (index place : Nat) (node : N) :
    (∃ result, calls[index + 1]? = some (.visited place node result)) ↔
      calls[index]? = some (.asked place node true) := by
  induction h generalizing index with
  | nil => simp
  | @refused _ _ rest hrest ih =>
      cases index with
      | zero =>
          refine ⟨fun ⟨result, hvisited⟩ => ?_, nofun⟩
          exact absurd hvisited (hrest.not_visited_head place node result)
      | succ index => exact ih index
  | @accepted _ _ answer rest hrest ih =>
      match index with
      | 0 => simp
      | 1 =>
          refine ⟨fun ⟨result, hvisited⟩ => ?_, nofun⟩
          exact absurd hvisited (hrest.not_visited_head place node result)
      | index + 2 => exact ih index

end Answered

end Answered

section Levels

theorem Trace.forall_mem_levels {P : List (Call ε N) → Prop}
    (hrounds : ∀ rounds, P (roundCalls 0 rounds)) (trace : Trace N) :
    ∀ level ∈ (trace.levels : List (List (Call ε N))), P level := by
  intro level hlevel
  obtain ⟨inner, _, rfl⟩ := List.mem_map.mp hlevel
  exact hrounds inner.rounds

/-- The calls of one dispatch are whole rounds, unless a visit fails at their end. -/
theorem Breakdown.forall_mem_levels {P : List (Call ε N) → Prop}
    (hrounds : ∀ rounds, P (roundCalls 0 rounds))
    (hbroken : ∀ rounds offers last error,
      P (roundCalls 0 (rounds ++ [offers]) ++ Call.ofAsk rounds.length last (.error error)))
    (breakdown : Breakdown ε N) : ∀ level ∈ breakdown.levels, P level := by
  have hchildren (children : List (Trace N)) :
      ∀ level ∈ (children.flatMap Trace.levels : List (List (Call ε N))), P level := by
    intro level hlevel
    obtain ⟨child, _, hlevel⟩ := List.mem_flatMap.mp hlevel
    exact child.forall_mem_levels hrounds level hlevel
  induction breakdown with
  | visit node rounds offers last error =>
      exact List.forall_mem_singleton.mpr (hbroken rounds offers last error)
  | child node rounds survivals survivor children inner ih =>
      rw [levels]
      refine List.forall_mem_append.mpr ⟨List.forall_mem_append.mpr ⟨?_, hchildren children⟩, ih⟩
      refine List.forall_mem_cons.mpr ⟨hrounds rounds, fun level hlevel => ?_⟩
      obtain ⟨survival, _, hlevel⟩ := List.mem_flatMap.mp hlevel
      exact hchildren survival.children level hlevel
  | tooDeep node => exact fun _ hlevel => absurd hlevel List.not_mem_nil

/-- Whether all calls of a rule come before those of the rules behind it. -/
def RuleMajor (calls : List (Call ε N)) : Prop :=
  calls.Pairwise fun call next => call.place ≤ next.place

theorem place_of_mem_ofAsk {place : Nat} {node : N} {result : Except ε (Option (List N))}
    {call : Call ε N} (h : call ∈ Call.ofAsk place node result) : call.place = place := by
  match result with
  | .ok none =>
      rw [List.mem_singleton.mp h]
      rfl
  | .ok (some nodes) => rcases List.mem_pair.mp h with rfl | rfl <;> rfl
  | .error error => rcases List.mem_pair.mp h with rfl | rfl <;> rfl

theorem place_of_mem_flatMap {place : Nat} {offers : List (Offer N)} {call : Call ε N}
    (h : call ∈ offers.flatMap (Offer.calls place)) : call.place = place := by
  obtain ⟨offer, _, hcall⟩ := List.mem_flatMap.mp h
  exact place_of_mem_ofAsk hcall

theorem place_of_mem_roundCalls {first : Nat} {rounds : List (List (Offer N))} {call : Call ε N}
    (h : call ∈ roundCalls first rounds) :
    first ≤ call.place ∧ call.place < first + rounds.length := by
  induction rounds generalizing first with
  | nil => cases h
  | cons offers rounds ih =>
      rw [List.length_cons]
      rcases List.mem_append.mp h with hcall | hcall
      · have hplace := place_of_mem_flatMap hcall
        omega
      · have hplace := ih hcall
        omega

theorem ruleMajor_of_place_eq {place : Nat} {calls : List (Call ε N)}
    (h : ∀ call ∈ calls, call.place = place) : RuleMajor calls := by
  refine List.pairwise_of_forall_mem_list fun call hcall next hnext => ?_
  exact Nat.le_of_eq ((h call hcall).trans (h next hnext).symm)

theorem ruleMajor_roundCalls (first : Nat) (rounds : List (List (Offer N))) :
    RuleMajor (roundCalls first rounds : List (Call ε N)) := by
  induction rounds generalizing first with
  | nil => exact .nil
  | cons offers rounds ih =>
      refine List.pairwise_append.mpr ⟨?_, ih (first + 1), fun call hcall next hnext => ?_⟩
      · exact ruleMajor_of_place_eq fun call hcall => place_of_mem_flatMap hcall
      · rw [place_of_mem_flatMap hcall]
        exact Nat.le_of_succ_le (place_of_mem_roundCalls hnext).1

theorem ruleMajor_broken (rounds : List (List (Offer N))) (offers : List (Offer N)) (last : N)
    (error : ε) : RuleMajor (roundCalls 0 (rounds ++ [offers]) ++
      Call.ofAsk rounds.length last (.error error)) := by
  refine List.pairwise_append.mpr ⟨ruleMajor_roundCalls 0 _, ?_, fun call hcall next hnext => ?_⟩
  · exact ruleMajor_of_place_eq fun call hcall => place_of_mem_ofAsk hcall
  · have hplace := (place_of_mem_roundCalls hcall).2
    rw [List.length_append, List.length_singleton] at hplace
    rw [place_of_mem_ofAsk hnext]
    omega

theorem Breakdown.answered (breakdown : Breakdown ε N) : Answered breakdown.calls :=
  .flatten (breakdown.forall_mem_levels (Answered.roundCalls 0) fun rounds offers last error =>
    (Answered.roundCalls 0 (rounds ++ [offers])).append (.ofAsk rounds.length last (.error error)))

theorem Breakdown.ruleMajor (breakdown : Breakdown ε N) :
    ∀ level ∈ breakdown.levels, RuleMajor level :=
  breakdown.forall_mem_levels (ruleMajor_roundCalls 0) ruleMajor_broken

theorem Trace.answered (trace : Trace N) : Answered (trace.calls : List (Call ε N)) :=
  .flatten (trace.forall_mem_levels (Answered.roundCalls 0))

theorem Trace.ruleMajor (trace : Trace N) :
    ∀ level ∈ (trace.levels : List (List (Call ε N))), RuleMajor level :=
  trace.forall_mem_levels (ruleMajor_roundCalls 0)

end Levels

variable [Host N]

/-- How a dispatch with `count` rules breaks off, whatever the rules are: in a round, with nothing
done below the node, or below it once the working list has passed all rules. All dispatches before
that point are complete. -/
inductive Breakdown.Orderly (count : Nat) : Breakdown ε N → Prop where
  | visit {node last : N} {rest : List N} {rounds : List (List (Offer N))} {offers : List (Offer N)}
      {error : ε} : rounds.length < count →
        Relay [node] rounds (offers.map Offer.node ++ last :: rest) →
        Orderly count (.visit node rounds offers last error)
  | child {node survivor : N} {rest others : List N} {rounds : List (List (Offer N))}
      {survivals : List (Survival N)} {children : List (Trace N)} {inner : Breakdown ε N} :
        rounds.length = count →
        Relay [node] rounds (survivals.map Survival.node ++ survivor :: rest) →
        (∀ survival ∈ survivals, survival.children.map Trace.node = Host.children survival.node ∧
          ∀ child ∈ survival.children, ∀ deeper ∈ child.dispatches, deeper.Orderly count) →
        Host.children survivor = children.map Trace.node ++ inner.node :: others →
        (∀ child ∈ children, ∀ deeper ∈ child.dispatches, deeper.Orderly count) →
        Orderly count inner → Orderly count (.child node rounds survivals survivor children inner)
  | tooDeep (node : N) : Orderly count (.tooDeep node)

theorem Rebuilds.orderly {rules : List (Rule σ ε N)} {start finish : Workspace σ}
    {survival : Survival N} (h : Rebuilds rules start survival finish) :
    ∀ child ∈ survival.children, ∀ deeper ∈ child.dispatches, deeper.Orderly rules.length := by
  intro child hchild
  obtain ⟨_, hchildren, _⟩ := h.exists_thread
  obtain ⟨_, _, hfollows⟩ := hchildren.exists_step_of_mem hchild
  exact hfollows.orderly

theorem Breaks.orderly {rules : List (Rule σ ε N)} {start finish : Workspace σ}
    {breakdown : Breakdown ε N} (h : Breaks rules start breakdown finish) :
    breakdown.Orderly rules.length := by
  induction h with
  | visit hrules hrelay hrounds _ _ =>
      refine .visit ?_ hrelay
      rw [hrounds.length_eq, hrules, List.length_append, List.length_cons]
      omega
  | child hrelay hrounds hsurvivals hchildren hthread _ ih =>
      refine .child hrounds.length_eq hrelay (fun survival hsurvival => ?_) hchildren
        (fun child hchild => ?_) ih
      · obtain ⟨_, _, hrebuilds⟩ := hsurvivals.exists_step_of_mem hsurvival
        exact ⟨hrebuilds.children_eq, hrebuilds.orderly⟩
      · obtain ⟨_, _, hfollows⟩ := hthread.exists_step_of_mem hchild
        exact hfollows.orderly
  | tooDeep _ node => exact .tooDeep node

/-- **The order of calls.** Logging the calls changes nothing. A visit is made at once where a rule
accepted a node, and nowhere else. One dispatch calls rule after rule, each about the list that the
rule before it left, before anything below is dispatched, and the dispatches follow each other as in
the trace of the run, or as in its breakdown until it halted. -/
theorem dispatch_callOrder (rules : List (Rule σ ε N)) (depth : Nat) (root : N) (run : Run σ) :
    ∃ calls : List (Call ε N),
      (dispatch (logged 0 rules) depth root).run (run.withLog []) =
        (((dispatch rules depth root).run run).1,
          ((dispatch rules depth root).run run).2.withLog calls) ∧
      (∀ index place node, (∃ result, calls[index + 1]? = some (.visited place node result)) ↔
        calls[index]? = some (.asked place node true)) ∧
      (∀ place node result, calls[0]? ≠ some (.visited place node result)) ∧
      (∀ nodes, ((dispatch rules depth root).run run).1 = .ok nodes →
        ∃ trace : Trace N, trace.node = root ∧ trace.outputs = nodes ∧
          (∀ inner ∈ trace.dispatches, inner.Orderly rules.length) ∧
          (∀ level ∈ (trace.levels : List (List (Call ε N))), RuleMajor level) ∧
          calls = trace.levels.flatten) ∧
      (∀ halt, ((dispatch rules depth root).run run).1 = .error halt →
        ∃ breakdown : Breakdown ε N, breakdown.node = root ∧ breakdown.halt = halt ∧
          breakdown.Orderly rules.length ∧ (∀ level ∈ breakdown.levels, RuleMajor level) ∧
          calls = breakdown.levels.flatten) := by
  obtain ⟨calls, hlogged⟩ := dispatch_logged rules depth root run
  have hlength : (logged 0 rules : List (Rule _ ε N)).length = rules.length := length_logged 0 rules
  suffices hcalls : Answered calls ∧ _ from
    ⟨calls, hlogged, hcalls.1.visited_succ_iff, hcalls.1.not_visited_head, hcalls.2⟩
  rcases hrun : (dispatch rules depth root).run run with ⟨halt | nodes, after⟩ <;>
    rw [hrun] at hlogged
  · obtain ⟨breakdown, hnode, hhalt, hbreaks, -⟩ := dispatch_error hlogged
    have hcalls : calls = breakdown.calls := hbreaks.log_eq
    refine ⟨hcalls ▸ breakdown.answered, nofun, fun halt' heq => ?_⟩
    cases heq
    exact ⟨breakdown, hnode, hhalt, hlength ▸ hbreaks.orderly, breakdown.ruleMajor, hcalls⟩
  · obtain ⟨trace, hnode, houtputs, hleaves⟩ := dispatch_ok hlogged
    have hcalls : calls = trace.calls := hleaves.follows.log_eq
    refine ⟨hcalls ▸ trace.answered, fun nodes' heq => ?_, nofun⟩
    cases heq
    exact ⟨trace, hnode, houtputs, hlength ▸ hleaves.follows.orderly, trace.ruleMajor, hcalls⟩

end Dispatch

end TreeRules
