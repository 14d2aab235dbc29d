import TreeRules.Proofs.Run

/-!
# Traces

The trace of a dispatch holds all that happened in it: the rounds of offers, one for every rule, and
what became of every survivor, with the traces of the dispatches of its children. `Follows` says
that a trace is the one that the rules leave behind on the way from one workspace to another. It is
about dispatches that end without an error; `Breakdown` is about the others.
-/

namespace TreeRules

/-- Steps one after the other, from one state to another. -/
inductive Thread {S α : Type} (step : S → α → S → Prop) : S → List α → S → Prop where
  | nil (state : S) : Thread step state [] state
  | cons {start next finish : S} {item : α} {items : List α} :
      step start item next → Thread step next items finish →
        Thread step start (item :: items) finish

namespace Thread

variable {S α γ : Type} {step : S → α → S → Prop} {start finish : S} {items : List α}

theorem exists_step_of_mem (h : Thread step start items finish) {item : α} (hmem : item ∈ items) :
    ∃ v w, step v item w := by
  induction h with
  | nil => cases hmem
  | cons hstep _ ih =>
      rcases List.mem_cons.mp hmem with rfl | hmem
      · exact ⟨_, _, hstep⟩
      · exact ih hmem

theorem exists_take (h : Thread step start items finish) (count : Nat) :
    ∃ mid, Thread step start (items.take count) mid := by
  induction h generalizing count with
  | nil state => exact ⟨state, by rw [List.take_nil]; exact .nil state⟩
  | @cons start _ _ _ _ hstep _ ih =>
      cases count with
      | zero => exact ⟨start, .nil start⟩
      | succ count =>
          obtain ⟨mid, hmid⟩ := ih count
          exact ⟨mid, .cons hstep hmid⟩

/-- What every step appends to a list, the whole thread appends in order. -/
theorem eq_append_flatMap (list : S → List γ) (added : α → List γ)
    (hstep : ∀ {v item w}, step v item w → list w = list v ++ added item)
    (h : Thread step start items finish) : list finish = list start ++ items.flatMap added := by
  induction h with
  | nil => simp
  | cons h _ ih => simp [ih, hstep h]

end Thread

namespace Dispatch

variable {σ ε N γ : Type}

/-- The events of rounds of offers, one round for each of the names. -/
def roundEvents (names : List String) (rounds : List (List (Offer N))) : List Event :=
  (names.zip rounds).flatMap fun round => round.2.flatMap (Offer.events round.1)

@[simp]
theorem roundEvents_nil (names : List String) :
    roundEvents names ([] : List (List (Offer N))) = [] := by
  simp [roundEvents]

@[simp]
theorem roundEvents_cons (name : String) (names : List String) (offers : List (Offer N))
    (rounds : List (List (Offer N))) :
    roundEvents (name :: names) (offers :: rounds) =
      offers.flatMap (Offer.events name) ++ roundEvents names rounds := rfl

mutual

/-- What happened while a node was dispatched: the offers of every rule in turn, and then, for every
node that was left, its survival. -/
inductive Trace (N : Type) where
  | dispatch (node : N) (rounds : List (List (Offer N))) (survivals : List (Survival N))

/-- What became of a survivor: the dispatches of its children, and the copy of it that was made
around their results, if one was made. -/
inductive Survival (N : Type) where
  | survival (node : N) (children : List (Trace N)) (copy : Option N)

end

namespace Survival

def node : Survival N → N
  | survival node _ _ => node

def children : Survival N → List (Trace N)
  | survival _ children _ => children

def copy : Survival N → Option N
  | survival _ _ copy => copy

/-- The node that the survivor leaves in the result. -/
def output (survival : Survival N) : N := survival.copy.getD survival.node

@[simp]
theorem children_survival (node : N) (children : List (Trace N)) (copy : Option N) :
    (survival node children copy).children = children := rfl

@[simp]
theorem copy_survival (node : N) (children : List (Trace N)) (copy : Option N) :
    (survival node children copy).copy = copy := rfl

end Survival

namespace Trace

def node : Trace N → N
  | dispatch node _ _ => node

def rounds : Trace N → List (List (Offer N))
  | dispatch _ rounds _ => rounds

def survivals : Trace N → List (Survival N)
  | dispatch _ _ survivals => survivals

@[simp]
theorem node_dispatch (node : N) (rounds : List (List (Offer N))) (survivals : List (Survival N)) :
    (dispatch node rounds survivals).node = node := rfl

@[simp]
theorem survivals_dispatch (node : N) (rounds : List (List (Offer N)))
    (survivals : List (Survival N)) : (dispatch node rounds survivals).survivals = survivals := rfl

/-- The working list once all rules ran. -/
def survivors (trace : Trace N) : List N := trace.survivals.map Survival.node

def outputs (trace : Trace N) : List N := trace.survivals.map Survival.output

theorem inductionOn {motive : Trace N → Prop} (trace : Trace N)
    (dispatch : ∀ node rounds survivals,
      (∀ survival ∈ survivals, ∀ child ∈ survival.children, motive child) →
        motive (dispatch node rounds survivals)) : motive trace := by
  refine @Trace.rec N motive (fun survival => ∀ child ∈ survival.children, motive child)
    (fun survivals => ∀ survival ∈ survivals, ∀ child ∈ survival.children, motive child)
    (fun traces => ∀ trace ∈ traces, motive trace) dispatch ?_ ?_ ?_ ?_ ?_ trace
  · exact fun _ _ _ hchildren => hchildren
  · simp
  · exact fun _ _ hhead htail => List.forall_mem_cons.mpr ⟨hhead, htail⟩
  · simp
  · exact fun _ _ hhead htail => List.forall_mem_cons.mpr ⟨hhead, htail⟩

mutual

/-- All dispatches of a trace in the order in which they began, each with what happened in it. -/
def dispatches : Trace N → List (Trace N)
  | dispatch node rounds survivals =>
    dispatch node rounds survivals :: dispatchesOfSurvivals survivals

def dispatchesOfSurvivals : List (Survival N) → List (Trace N)
  | [] => []
  | .survival _ children _ :: rest => dispatchesOfAll children ++ dispatchesOfSurvivals rest

def dispatchesOfAll : List (Trace N) → List (Trace N)
  | [] => []
  | trace :: rest => dispatches trace ++ dispatchesOfAll rest

end

theorem dispatchesOfAll_eq_flatMap (traces : List (Trace N)) :
    dispatchesOfAll traces = traces.flatMap dispatches := by
  induction traces with
  | nil => rfl
  | cons trace rest ih => simp [dispatchesOfAll, ih]

theorem dispatchesOfSurvivals_eq_flatMap (survivals : List (Survival N)) :
    dispatchesOfSurvivals survivals =
      survivals.flatMap fun survival => survival.children.flatMap dispatches := by
  induction survivals with
  | nil => rfl
  | cons survival rest ih =>
      obtain ⟨node, children, copy⟩ := survival
      simp [dispatchesOfSurvivals, dispatchesOfAll_eq_flatMap, ih]

theorem dispatches_eq (trace : Trace N) :
    trace.dispatches =
      trace :: trace.survivals.flatMap fun survival => survival.children.flatMap dispatches := by
  obtain ⟨node, rounds, survivals⟩ := trace
  rw [dispatches, dispatchesOfSurvivals_eq_flatMap, survivals_dispatch]

theorem mem_dispatches_self (trace : Trace N) : trace ∈ trace.dispatches := by
  rw [dispatches_eq]
  exact List.mem_cons_self

theorem mem_dispatches_of_below {trace inner child : Trace N} {survival : Survival N}
    (hsurvival : survival ∈ trace.survivals) (hchild : child ∈ survival.children)
    (hinner : inner ∈ child.dispatches) : inner ∈ trace.dispatches := by
  rw [dispatches_eq]
  exact List.mem_cons_of_mem _ (List.mem_flatMap.mpr ⟨survival, hsurvival,
    List.mem_flatMap.mpr ⟨child, hchild, hinner⟩⟩)

theorem forall_mem_dispatches_iff {p : Trace N → Prop} {trace : Trace N} :
    (∀ inner ∈ trace.dispatches, p inner) ↔
      p trace ∧ ∀ survival ∈ trace.survivals, ∀ child ∈ survival.children,
        ∀ inner ∈ child.dispatches, p inner := by
  rw [dispatches_eq, List.forall_mem_cons]
  refine and_congr_right fun _ => ?_
  simp only [List.mem_flatMap, forall_exists_index, and_imp]
  exact ⟨fun h s hs b hb i hi => h i s hs b hb hi, fun h i s hs b hb hi => h s hs b hb i hi⟩

theorem mem_dispatches_trans {trace inner deeper : Trace N} (hinner : inner ∈ trace.dispatches)
    (hdeeper : deeper ∈ inner.dispatches) : deeper ∈ trace.dispatches := by
  induction trace using inductionOn with
  | dispatch node rounds survivals ih =>
      rw [dispatches_eq] at hinner
      rcases List.mem_cons.mp hinner with rfl | hbelow
      · exact hdeeper
      · obtain ⟨survival, hsurvival, hbelow⟩ := List.mem_flatMap.mp hbelow
        obtain ⟨child, hchild, hinner⟩ := List.mem_flatMap.mp hbelow
        exact mem_dispatches_of_below hsurvival hchild (ih survival hsurvival child hchild hinner)

/-- What is read off the dispatches one by one is read off a trace recursively. -/
theorem flatMap_dispatches (f : Trace N → List γ) (trace : Trace N) :
    trace.dispatches.flatMap f = f trace ++ trace.survivals.flatMap fun survival =>
      survival.children.flatMap fun child => child.dispatches.flatMap f := by
  rw [dispatches_eq, List.flatMap_cons]
  simp only [List.flatMap_assoc]

/-- The events of one dispatch, without those of the dispatches below it. -/
def levelEvents (names : List String) (trace : Trace N) : List Event :=
  .dispatched :: roundEvents names trace.rounds

/-- All events of a trace in order, for rules of the given names. -/
def events (names : List String) (trace : Trace N) : List Event :=
  trace.dispatches.flatMap (levelEvents names)

end Trace

/-- The working list on its way through the rules: each round offers what the round before left. -/
inductive Relay : List N → List (List (Offer N)) → List N → Prop where
  | nil (nodes : List N) : Relay nodes [] nodes
  | cons {offers : List (Offer N)} {rounds : List (List (Offer N))} {survivors : List N} :
      Relay (offers.flatMap Offer.nodes) rounds survivors →
        Relay (offers.map Offer.node) (offers :: rounds) survivors

/-- The rule answers an offer, from one workspace to another. -/
def Answers (rule : Rule σ ε N) (before : Workspace σ) (offer : Offer N) (after : Workspace σ) :
    Prop :=
  (rule.ask offer.node).run before = (.ok offer.replacement, after)

/-- The rules answer one round of offers each. -/
inductive Rounds :
    List (Rule σ ε N) → Workspace σ → List (List (Offer N)) → Workspace σ → Prop where
  | nil (workspace : Workspace σ) : Rounds [] workspace [] workspace
  | cons {rule : Rule σ ε N} {rules : List (Rule σ ε N)} {start next finish : Workspace σ}
      {offers : List (Offer N)} {rounds : List (List (Offer N))} :
      Thread (Answers rule) start offers next → Rounds rules next rounds finish →
        Rounds (rule :: rules) start (offers :: rounds) finish

theorem Rounds.length_eq {rules : List (Rule σ ε N)} {start finish : Workspace σ}
    {rounds : List (List (Offer N))} (h : Rounds rules start rounds finish) :
    rounds.length = rules.length := by
  induction h with
  | nil => rfl
  | cons _ _ ih => simp [ih]

variable [Host N]

/-- Whether the dispatch gave nothing but the very object that was dispatched. -/
def Trace.IsUntouched (trace : Trace N) : Prop := isUntouched trace.node trace.outputs = true

mutual

/-- The trace is what the rules leave behind on the way from one workspace to the other. -/
inductive Follows (rules : List (Rule σ ε N)) : Workspace σ → Trace N → Workspace σ → Prop where
  | dispatch {start next finish : Workspace σ} {node : N} {rounds : List (List (Offer N))}
      {survivals : List (Survival N)} :
      Relay [node] rounds (survivals.map Survival.node) → Rounds rules start rounds next →
        Thread (Rebuilds rules) next survivals finish →
          Follows rules start (.dispatch node rounds survivals) finish

/-- Only a copy takes an identity, and only if a child was touched. -/
inductive Rebuilds (rules : List (Rule σ ε N)) : Workspace σ → Survival N → Workspace σ → Prop where
  | kept {start finish : Workspace σ} {node : N} {children : List (Trace N)} :
      children.map Trace.node = Host.children node → Thread (Follows rules) start children finish →
        (∀ trace ∈ children, trace.IsUntouched) →
          Rebuilds rules start (.survival node children none) finish
  | copied {start finish : Workspace σ} {node : N} {children : List (Trace N)} :
      children.map Trace.node = Host.children node → Thread (Follows rules) start children finish →
        (¬ ∀ trace ∈ children, trace.IsUntouched) →
          Rebuilds rules start
            (.survival node children
              (some (Host.withChildren finish.supply.next (children.flatMap Trace.outputs) node)))
            { finish with supply := ⟨finish.supply.next + 1⟩ }

end

/-- To prove something of all traces that the rules leave behind, prove it of a dispatch whose
survivals have their part of it, and of a survival whose dispatches have theirs. -/
theorem Follows.induction {rules : List (Rule σ ε N)}
    {P : Workspace σ → Trace N → Workspace σ → Prop}
    {Q : Workspace σ → Survival N → Workspace σ → Prop}
    (dispatch : ∀ {start next finish : Workspace σ} {node : N} {rounds : List (List (Offer N))}
      {survivals : List (Survival N)}, Relay [node] rounds (survivals.map Survival.node) →
        Rounds rules start rounds next →
          Thread (fun v survival w => Rebuilds rules v survival w ∧ Q v survival w)
            next survivals finish → P start (.dispatch node rounds survivals) finish)
    (kept : ∀ {start finish : Workspace σ} {node : N} {children : List (Trace N)},
      children.map Trace.node = Host.children node →
        Thread (fun v trace w => Follows rules v trace w ∧ P v trace w) start children finish →
          (∀ trace ∈ children, trace.IsUntouched) → Q start (.survival node children none) finish)
    (copied : ∀ {start finish : Workspace σ} {node : N} {children : List (Trace N)},
      children.map Trace.node = Host.children node →
        Thread (fun v trace w => Follows rules v trace w ∧ P v trace w) start children finish →
          (¬ ∀ trace ∈ children, trace.IsUntouched) →
            Q start (.survival node children
              (some (Host.withChildren finish.supply.next (children.flatMap Trace.outputs) node)))
              { finish with supply := ⟨finish.supply.next + 1⟩ })
    {start finish : Workspace σ} {trace : Trace N} (h : Follows rules start trace finish) :
    P start trace finish := by
  refine @Follows.rec σ ε N _ rules (fun v trace w _ => P v trace w)
    (fun v survival w _ => Q v survival w)
    (fun v survivals w _ =>
      Thread (fun v survival w => Rebuilds rules v survival w ∧ Q v survival w) v survivals w)
    (fun v traces w _ =>
      Thread (fun v trace w => Follows rules v trace w ∧ P v trace w) v traces w)
    ?_ ?_ ?_ ?_ ?_ ?_ ?_ _ _ _ h
  · exact fun hrelay hrounds _ hsurvivals => dispatch hrelay hrounds hsurvivals
  · exact fun hnodes _ huntouched hchildren => kept hnodes hchildren huntouched
  · exact fun hnodes _ htouched hchildren => copied hnodes hchildren htouched
  · exact .nil
  · exact fun hstep _ hhead htail => .cons ⟨hstep, hhead⟩ htail
  · exact .nil
  · exact fun hstep _ hhead htail => .cons ⟨hstep, hhead⟩ htail

theorem Follows.exists_of_mem_dispatches {rules : List (Rule σ ε N)} {start finish : Workspace σ}
    {trace : Trace N} (h : Follows rules start trace finish) :
    ∀ inner ∈ trace.dispatches, ∃ v w, Follows rules v inner w := by
  refine Follows.induction (P := fun v trace w => Follows rules v trace w →
      ∀ inner ∈ trace.dispatches, ∃ v w, Follows rules v inner w)
    (Q := fun _ survival _ => ∀ child ∈ survival.children, ∀ inner ∈ child.dispatches,
      ∃ v w, Follows rules v inner w) ?_ ?_ ?_ h h
  · intro start next finish node rounds survivals _ _ hsurvivals hself
    rw [Trace.forall_mem_dispatches_iff]
    refine ⟨⟨start, finish, hself⟩, fun survival hmem => ?_⟩
    obtain ⟨_, _, _, hsurvival⟩ := hsurvivals.exists_step_of_mem hmem
    exact hsurvival
  · intro _ _ _ _ _ hchildren _ child hmem
    obtain ⟨_, _, hfollows, hchild⟩ := hchildren.exists_step_of_mem hmem
    exact hchild hfollows
  · intro _ _ _ _ _ hchildren _ child hmem
    obtain ⟨_, _, hfollows, hchild⟩ := hchildren.exists_step_of_mem hmem
    exact hchild hfollows

/-- How one dispatch with `count` rules goes, whatever the rules are: the working list passes all
rounds, all children of every survivor are dispatched, and a survivor is copied around their results
unless each child came back untouched. -/
structure Trace.Orderly (count : Nat) (trace : Trace N) : Prop where
  relay : Relay [trace.node] trace.rounds trace.survivors
  length_rounds : trace.rounds.length = count
  children_eq : ∀ survival ∈ trace.survivals,
    survival.children.map Trace.node = Host.children survival.node
  copy_eq_none_iff : ∀ survival ∈ trace.survivals,
    survival.copy = none ↔ ∀ child ∈ survival.children, child.IsUntouched
  eq_of_copy : ∀ survival ∈ trace.survivals, ∀ copy ∈ survival.copy,
    copy = Host.withChildren (Host.identity copy) (survival.children.flatMap Trace.outputs)
      survival.node

section Orderly

variable {rules : List (Rule σ ε N)} {start finish : Workspace σ}

theorem Rebuilds.children_eq {survival : Survival N} (h : Rebuilds rules start survival finish) :
    survival.children.map Trace.node = Host.children survival.node := by
  cases h with
  | kept hnodes _ _ => exact hnodes
  | copied hnodes _ _ => exact hnodes

/-- The identity of a copy is taken after everything else, from the supply alone. -/
theorem Rebuilds.exists_thread {survival : Survival N} (h : Rebuilds rules start survival finish) :
    ∃ last, Thread (Follows rules) start survival.children last ∧ last.shared = finish.shared := by
  cases h with
  | kept _ hchildren _ => exact ⟨_, hchildren, rfl⟩
  | copied _ hchildren _ => exact ⟨_, hchildren, rfl⟩

theorem Rebuilds.copy_eq_none_iff {survival : Survival N}
    (h : Rebuilds rules start survival finish) :
    survival.copy = none ↔ ∀ child ∈ survival.children, child.IsUntouched := by
  cases h with
  | kept _ _ huntouched => exact ⟨fun _ => huntouched, fun _ => rfl⟩
  | copied _ _ htouched => exact ⟨nofun, fun huntouched => absurd huntouched htouched⟩

theorem Rebuilds.eq_of_copy {survival : Survival N} (h : Rebuilds rules start survival finish) :
    ∀ copy ∈ survival.copy, copy = Host.withChildren (Host.identity copy)
      (survival.children.flatMap Trace.outputs) survival.node := by
  rintro copy hcopy
  cases h with
  | kept _ _ _ => cases hcopy
  | copied _ _ _ =>
      obtain rfl := Option.some.inj hcopy
      rw [Host.identity_withChildren]
      rfl

theorem Follows.orderly_self {trace : Trace N} (h : Follows rules start trace finish) :
    trace.Orderly rules.length := by
  cases h with
  | dispatch hrelay hrounds hsurvivals =>
      have hstep : ∀ survival ∈ _, ∃ v w, Rebuilds rules v survival w :=
        fun survival hmem => hsurvivals.exists_step_of_mem hmem
      refine ⟨hrelay, hrounds.length_eq, fun survival hmem => ?_, fun survival hmem => ?_,
        fun survival hmem => ?_⟩ <;> obtain ⟨_, _, hrebuilds⟩ := hstep survival hmem
      · exact hrebuilds.children_eq
      · exact hrebuilds.copy_eq_none_iff
      · exact hrebuilds.eq_of_copy

theorem Follows.orderly {trace : Trace N} (h : Follows rules start trace finish) :
    ∀ inner ∈ trace.dispatches, inner.Orderly rules.length := by
  intro inner hinner
  obtain ⟨_, _, hfollows⟩ := h.exists_of_mem_dispatches inner hinner
  exact hfollows.orderly_self

end Orderly

end Dispatch

end TreeRules
