import TreeRules.Proofs.Execution

/-!
# Runs that do not finish

A run halts in the middle of one dispatch: at a visit that fails, or at a node that lies too deep.
Everything around that point is left unfinished, and everything before it is complete. A breakdown
holds the way down to the point, with the traces of what was complete.
-/

namespace TreeRules.Dispatch

open DispatchM

variable {σ ε N : Type}

inductive Breakdown (ε N : Type) where
  /-- After whole rounds and some offers of the next one, the visit of `last` failed. -/
  | visit (node : N) (rounds : List (List (Offer N))) (offers : List (Offer N)) (last : N)
      (error : ε)
  /-- After the survivals of some survivors and the dispatches of some children of the next one, the
  dispatch of another child broke down. -/
  | child (node : N) (rounds : List (List (Offer N))) (survivals : List (Survival N))
      (survivor : N) (children : List (Trace N)) (inner : Breakdown ε N)
  | tooDeep (node : N)

namespace Breakdown

def node : Breakdown ε N → N
  | visit node _ _ _ _ => node
  | child node _ _ _ _ _ => node
  | tooDeep node => node

def halt : Breakdown ε N → Halt ε
  | visit _ _ _ _ error => .failed error
  | child _ _ _ _ _ inner => inner.halt
  | tooDeep _ => .tooDeep

/-- All events until the halt, for rules of the given names. -/
def events (names : List String) : Breakdown ε N → List Event
  | visit _ rounds offers _ _ =>
    .dispatched :: roundEvents names (rounds ++ [offers]) ++
      (names[rounds.length]?.map Event.offered).toList
  | child _ rounds survivals _ children inner =>
    .dispatched :: roundEvents names rounds ++
      (survivals.flatMap fun survival => survival.children.flatMap (Trace.events names)) ++
      children.flatMap (Trace.events names) ++ inner.events names
  | tooDeep _ => []

end Breakdown

theorem offerEach_error {rule : Rule σ ε N} {nodes : List N} {run after : Run σ} {halt : Halt ε}
    (h : (offerEach rule nodes).run run = (.error halt, after)) :
    ∃ offers last rest error mid, nodes = offers.map Offer.node ++ last :: rest ∧
      halt = .failed error ∧ Thread (Answers rule) run.workspace offers mid ∧
      (rule.ask last).run mid = (.error error, after.workspace) ∧
      after = run.advance after.workspace
        (offers.flatMap (Offer.events rule.name) ++ [.offered rule.name]) := by
  induction nodes generalizing run with
  | nil => exact (pure_ne_error h).elim
  | cons node rest ih =>
      rcases bind_error_iff.mp h with hoffer | ⟨here, mid, hoffer, h⟩
      · obtain ⟨error, workspace, hask, rfl, rfl⟩ := offer_error_iff.mp hoffer
        exact ⟨[], node, rest, error, run.workspace, rfl, rfl, .nil _, hask, rfl⟩
      · rcases bind_error_iff.mp h with hrest | ⟨_, _, _, h⟩
        · obtain ⟨replacement, workspace, hask, rfl, rfl⟩ := offer_ok_iff.mp hoffer
          obtain ⟨offers, last, others, error, before, rfl, rfl, hthread, hlast, hafter⟩ := ih hrest
          refine ⟨⟨node, replacement⟩ :: offers, last, others, error, before, rfl, rfl,
            .cons hask hthread, hlast, ?_⟩
          rw [hafter]
          simp
        · exact (pure_ne_error h).elim

/-- The rules up to the failing one answer whole rounds. -/
theorem survivors_error {rules : List (Rule σ ε N)} {nodes : List N} {run after : Run σ}
    {halt : Halt ε} (h : (survivors rules nodes).run run = (.error halt, after)) :
    ∃ earlier rule later rounds offers last rest error before mid,
      rules = earlier ++ rule :: later ∧
      halt = .failed error ∧ Relay nodes rounds (offers.map Offer.node ++ last :: rest) ∧
      Rounds earlier run.workspace rounds before ∧ Thread (Answers rule) before offers mid ∧
      (rule.ask last).run mid = (.error error, after.workspace) ∧
      after = run.advance after.workspace
        (roundEvents (rules.map Rule.name) (rounds ++ [offers]) ++ [.offered rule.name]) := by
  induction rules generalizing run nodes with
  | nil => exact (pure_ne_error h).elim
  | cons rule rules ih =>
      rcases bind_error_iff.mp h with hround | ⟨passed, mid, hround, h⟩
      · obtain ⟨offers, last, rest, error, mid, rfl, rfl, hthread, hlast, hafter⟩ :=
          offerEach_error hround
        refine ⟨[], rule, rules, [], offers, last, rest, error, run.workspace, mid, rfl, rfl,
          .nil _, .nil _, hthread, hlast, ?_⟩
        rw [hafter]
        simp
      · obtain ⟨offers, rfl, rfl, hthread, hmid⟩ := offerEach_ok hround
        obtain ⟨earlier, failing, later, rounds, failed, last, rest, error, before, point, rfl, rfl,
          hrelay, hrounds, hfailed, hlast, hafter⟩ := ih h
        refine ⟨rule :: earlier, failing, later, offers :: rounds, failed, last, rest, error,
          before, point, rfl, rfl, .cons hrelay, .cons hthread hrounds, hfailed, hlast, ?_⟩
        rw [hafter, hmid]
        simp

variable [Host N]

/-- The breakdown is what the rules leave behind on the way from one workspace to the one in which
the run halted. -/
inductive Breaks (rules : List (Rule σ ε N)) :
    Workspace σ → Breakdown ε N → Workspace σ → Prop where
  | visit {start next mid finish : Workspace σ} {earlier later : List (Rule σ ε N)}
      {rule : Rule σ ε N} {node last : N} {rest : List N} {rounds : List (List (Offer N))}
      {offers : List (Offer N)} {error : ε} : rules = earlier ++ rule :: later →
        Relay [node] rounds (offers.map Offer.node ++ last :: rest) →
        Rounds earlier start rounds next → Thread (Answers rule) next offers mid →
        (rule.ask last).run mid = (.error error, finish) →
          Breaks rules start (.visit node rounds offers last error) finish
  | child {start next mid before finish : Workspace σ} {node survivor : N} {rest others : List N}
      {rounds : List (List (Offer N))} {survivals : List (Survival N)} {children : List (Trace N)}
      {inner : Breakdown ε N} :
        Relay [node] rounds (survivals.map Survival.node ++ survivor :: rest) →
        Rounds rules start rounds next → Thread (Rebuilds rules) next survivals mid →
        Host.children survivor = children.map Trace.node ++ inner.node :: others →
        Thread (Follows rules) mid children before → Breaks rules before inner finish →
          Breaks rules start (.child node rounds survivals survivor children inner) finish
  | tooDeep (workspace : Workspace σ) (node : N) : Breaks rules workspace (.tooDeep node) workspace

section Children

variable {rules : List (Rule σ ε N)} {dispatch : N → DispatchM σ ε (List N)}
  (hok : ∀ {child nodes run after}, (dispatch child).run run = (.ok nodes, after) →
    ∃ trace, trace.node = child ∧ trace.outputs = nodes ∧ Leaves rules run trace after)
  (herror : ∀ {child run halt after}, (dispatch child).run run = (.error halt, after) →
    ∃ inner : Breakdown ε N, inner.node = child ∧ inner.halt = halt ∧
      Breaks rules run.workspace inner after.workspace ∧
      after = run.advance after.workspace (inner.events (rules.map Rule.name)))

include hok herror

theorem dispatchEach_error {children : List N} {run after : Run σ} {halt : Halt ε}
    (h : (dispatchEach dispatch children).run run = (.error halt, after)) :
    ∃ traces mid inner rest, children = traces.map Trace.node ++ Breakdown.node inner :: rest ∧
      inner.halt = halt ∧ Thread (Follows rules) run.workspace traces mid ∧
      Breaks rules mid inner after.workspace ∧
      after = run.advance after.workspace (traces.flatMap (Trace.events (rules.map Rule.name)) ++
        inner.events (rules.map Rule.name)) := by
  induction children generalizing run with
  | nil => exact (pure_ne_error h).elim
  | cons child rest ih =>
      rcases bind_error_iff.mp h with hhere | ⟨here, mid, hhere, h⟩
      · obtain ⟨inner, rfl, rfl, hbreaks, hafter⟩ := herror hhere
        exact ⟨[], run.workspace, inner, rest, rfl, rfl, .nil _, hbreaks, hafter⟩
      · rcases bind_error_iff.mp h with hrest | ⟨_, _, _, h⟩
        · obtain ⟨trace, rfl, rfl, hfollows, hmid⟩ := hok hhere
          obtain ⟨traces, before, inner, others, rfl, rfl, hthread, hbreaks, hafter⟩ := ih hrest
          refine ⟨trace :: traces, before, inner, others, rfl, rfl, .cons hfollows hthread, hbreaks,
            ?_⟩
          rw [hafter, hmid]
          simp
        · exact (pure_ne_error h).elim

theorem rebuild_error {node : N} {run after : Run σ} {halt : Halt ε}
    (h : (rebuild dispatch node).run run = (.error halt, after)) :
    ∃ traces mid inner rest,
      Host.children node = traces.map Trace.node ++ Breakdown.node inner :: rest ∧
      inner.halt = halt ∧ Thread (Follows rules) run.workspace traces mid ∧
      Breaks rules mid inner after.workspace ∧
      after = run.advance after.workspace (traces.flatMap (Trace.events (rules.map Rule.name)) ++
        inner.events (rules.map Rule.name)) := by
  rcases bind_error_iff.mp h with heach | ⟨⟨nodes, untouched⟩, mid, _, h⟩
  · exact dispatchEach_error hok herror heach
  · cases untouched with
    | true => exact (pure_ne_error h).elim
    | false =>
        rcases bind_error_iff.mp h with hfresh | ⟨_, _, _, h⟩
        · cases hfresh
        · exact (pure_ne_error h).elim

theorem rebuildEach_error {nodes : List N} {run after : Run σ} {halt : Halt ε}
    (h : (rebuildEach dispatch nodes).run run = (.error halt, after)) :
    ∃ survivals survivor rest mid traces before inner others,
      nodes = survivals.map Survival.node ++ survivor :: rest ∧
      Host.children survivor = traces.map Trace.node ++ Breakdown.node inner :: others ∧
      inner.halt = halt ∧ Thread (Rebuilds rules) run.workspace survivals mid ∧
      Thread (Follows rules) mid traces before ∧ Breaks rules before inner after.workspace ∧
      after = run.advance after.workspace
        ((survivals.flatMap fun survival =>
            survival.children.flatMap (Trace.events (rules.map Rule.name))) ++
          traces.flatMap (Trace.events (rules.map Rule.name)) ++
          inner.events (rules.map Rule.name)) := by
  induction nodes generalizing run with
  | nil => exact (pure_ne_error h).elim
  | cons node rest ih =>
      rcases bind_error_iff.mp h with hhere | ⟨here, mid, hhere, h⟩
      · obtain ⟨traces, before, inner, others, hchildren, rfl, hthread, hbreaks, hafter⟩ :=
          rebuild_error hok herror hhere
        exact ⟨[], node, rest, run.workspace, traces, before, inner, others, rfl, hchildren, rfl,
          .nil _, hthread, hbreaks, hafter⟩
      · rcases bind_error_iff.mp h with hrest | ⟨_, _, _, h⟩
        · obtain ⟨survival, rfl, rfl, hrebuilds, hmid⟩ := rebuild_ok hok hhere
          obtain ⟨survivals, survivor, others, between, traces, before, inner, siblings, rfl,
            hchildren, rfl, hsurvivals, hthread, hbreaks, hafter⟩ := ih hrest
          refine ⟨survival :: survivals, survivor, others, between, traces, before, inner, siblings,
            rfl, hchildren, rfl, .cons hrebuilds hsurvivals, hthread, hbreaks, ?_⟩
          rw [hafter, hmid]
          simp
        · exact (pure_ne_error h).elim

end Children

/-- **Runs that halt leave breakdowns.** The breakdown tells why the run halted, the way of the
workspace and all that was recorded. -/
theorem dispatch_error {rules : List (Rule σ ε N)} {depth : Nat} {node : N} {halt : Halt ε}
    {run after : Run σ} (h : (dispatch rules depth node).run run = (.error halt, after)) :
    ∃ inner : Breakdown ε N, inner.node = node ∧ inner.halt = halt ∧
      Breaks rules run.workspace inner after.workspace ∧
      after = run.advance after.workspace (inner.events (rules.map Rule.name)) := by
  induction depth generalizing node run halt after with
  | zero =>
      cases h
      exact ⟨.tooDeep node, rfl, rfl, .tooDeep _ _, rfl⟩
  | succ depth ih =>
      rcases bind_error_iff.mp h with hrecord | ⟨_, start, hrecord, h⟩
      · cases hrecord
      have hstart : start = run.advance run.workspace [.dispatched] := by cases hrecord; rfl
      subst hstart
      -- A visit failed before the working list had passed all rules, or something below did.
      rcases bind_error_iff.mp h with hsurvivors | ⟨passed, mid, hsurvivors, h⟩
      · obtain ⟨earlier, rule, later, rounds, offers, last, rest, error, before, point, rfl, rfl,
          hrelay, hrounds, hoffers, hlast, hafter⟩ := survivors_error hsurvivors
        refine ⟨.visit node rounds offers last error, rfl, rfl,
          .visit rfl hrelay hrounds hoffers hlast, ?_⟩
        rw [hafter, Run.advance_advance, Run.workspace_advance, Breakdown.events]
        simp [hrounds.length_eq]
      · obtain ⟨rounds, hrelay, hrounds, hmid⟩ := survivors_ok hsurvivors
        obtain ⟨survivals, survivor, rest, between, traces, before, inner, others, rfl, hchildren,
          rfl, hsurvivals, htraces, hbreaks, hafter⟩ := rebuildEach_error dispatch_ok ih h
        refine ⟨.child node rounds survivals survivor traces inner, rfl, rfl,
          .child hrelay hrounds hsurvivals hchildren htraces hbreaks, ?_⟩
        rw [hafter, hmid, Run.advance_advance, Run.advance_advance, Run.workspace_advance,
          Breakdown.events]
        simp

end TreeRules.Dispatch
