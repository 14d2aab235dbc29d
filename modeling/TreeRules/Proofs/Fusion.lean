import TreeRules.Proofs.CatalogueUniformity
import TreeRules.Proofs.Exchange

/-!
# Rules that are fused

A segment of a pipeline can be replaced by one rule that passes each node through the segment on its
own. The segment takes the whole working list through its first rule, and then through the next one;
the fused rule takes one node through all rules, and then the next node. Both make the same trees,
though in another order: stateless rules on different nodes do not meet, and may change places.
-/

namespace TreeRules

open Dispatch DispatchM

variable {σ ε α β γ N : Type}

/-! ### Passing a list through rules -/

/-- What takes the node's place when it is offered to the rule. -/
def Rule.replace (rule : Rule σ ε N) (node : N) : RuleM σ ε (List N) := do
  return Offer.nodes ⟨node, ← rule.ask node⟩

/-- Passes a list through all rules, one rule after the other. -/
def passList (rules : List (Rule σ ε N)) (nodes : List N) : RuleM σ ε (List N) :=
  rules.foldlM (fun nodes rule => nodes.flatMapM rule.replace) nodes

/-- A rule that wants every node, and passes it through all the rules. -/
def Rule.fused (name : String) (rules : List (Rule σ ε N)) : Rule σ ε N where
  name := name
  wants _ := pure true
  visit node := passList rules [node]

theorem passList_cons (rule : Rule σ ε N) (rules : List (Rule σ ε N)) (nodes : List N) :
    passList (rule :: rules) nodes =
      (do let passed ← nodes.flatMapM rule.replace; passList rules passed) :=
  List.foldlM_cons

theorem passList_nil (rules : List (Rule σ ε N)) : passList rules [] = pure [] := by
  induction rules with
  | nil => rfl
  | cons rule rules ih => rw [passList_cons, List.flatMapM_nil, pure_bind, ih]

theorem ask_fused (name : String) (rules : List (Rule σ ε N)) (node : N) :
    (Rule.fused name rules).ask node = some <$> passList rules [node] := by
  funext workspace
  change ((Rule.fused name rules).ask node).run workspace =
    ExceptT.run (some <$> passList rules [node]) workspace
  have hwants : ((Rule.fused name rules).wants node).run workspace.shared =
      (true, workspace.shared) := rfl
  rw [Rule.run_ask_of_wanted hwants, ExceptT.run_map]
  rfl

theorem replace_fused (name : String) (rules : List (Rule σ ε N)) (node : N) :
    (Rule.fused name rules).replace node = passList rules [node] := by
  rw [Rule.replace, ask_fused, bind_map_left]
  exact bind_pure _

/-- Where the action succeeds, the dispatcher does the same, and the nodes that it gives are counted
as taking the place of `count` nodes. -/
def Performs (count : Nat) (action : RuleM σ ε (List N)) (performed : DispatchM σ ε (List N)) :
    Prop :=
  ∀ run nodes workspace, action.run run.workspace = (.ok nodes, workspace) →
    ∃ after, performed.run run = (.ok nodes, after) ∧ after.workspace = workspace ∧
      after.statistics.dispatched = run.statistics.dispatched ∧
      after.statistics.balance + count = run.statistics.balance + nodes.length

theorem offer_performs (rule : Rule σ ε N) (node : N) :
    Performs 1 (rule.replace node) (offer rule node) := by
  intro run nodes workspace hrun
  obtain ⟨replacement, mid, hask, hpure⟩ := bind_ok_iff.mp hrun
  cases hpure
  refine ⟨_, offer_ok_iff.mpr ⟨replacement, workspace, hask, rfl, rfl⟩, rfl, ?_⟩
  cases replacement with
  | none => exact ⟨rfl, rfl⟩
  | some nodes =>
      refine ⟨rfl, ?_⟩
      simp only [Run.statistics_advance, Offer.events, Offer.nodes, List.foldl_cons,
        List.foldl_nil, Event.record, Statistics.recordOffer, Statistics.recordVisit,
        Statistics.balance, Option.getD_some, Nat.cast_add, Nat.cast_one]
      split_ifs <;> omega

theorem Performs.flatMapM {action : N → RuleM σ ε (List N)}
    {performed : N → DispatchM σ ε (List N)} (h : ∀ node, Performs 1 (action node) (performed node))
    (nodes : List N) :
    Performs nodes.length (nodes.flatMapM action) (nodes.flatMapM performed) := by
  induction nodes with
  | nil =>
      intro run nodes workspace hrun
      cases hrun
      exact ⟨run, rfl, rfl, rfl, rfl⟩
  | cons node rest ih =>
      intro run nodes workspace hrun
      rw [List.flatMapM_cons] at hrun ⊢
      obtain ⟨here, mid, hhere, hrun⟩ := bind_ok_iff.mp hrun
      obtain ⟨others, last, hothers, hpure⟩ := bind_ok_iff.mp hrun
      cases hpure
      obtain ⟨run', hrun', rfl, hdispatched, hbalance⟩ := h node run here mid hhere
      obtain ⟨after, hafter, hworkspace, hdispatched', hbalance'⟩ := ih run' others _ hothers
      refine ⟨after, bind_ok_iff.mpr ⟨here, run', hrun', ?_⟩, hworkspace,
        hdispatched'.trans hdispatched, ?_⟩
      · exact bind_ok_iff.mpr ⟨others, after, hafter, rfl⟩
      · rw [List.length_cons, List.length_append, Nat.cast_add, Nat.cast_add]
        omega

theorem survivors_performs (rules : List (Rule σ ε N)) (nodes : List N) :
    Performs nodes.length (passList rules nodes) (survivors rules nodes) := by
  induction rules generalizing nodes with
  | nil =>
      intro run nodes workspace hrun
      cases hrun
      exact ⟨run, rfl, rfl, rfl, rfl⟩
  | cons rule rules ih =>
      intro run survivors workspace hrun
      rw [passList_cons] at hrun
      obtain ⟨passed, mid, hpassed, hrun⟩ := bind_ok_iff.mp hrun
      obtain ⟨run', hrun', rfl, hdispatched, hbalance⟩ :=
        Performs.flatMapM (offer_performs rule) nodes run passed mid hpassed
      obtain ⟨after, hafter, hworkspace, hdispatched', hbalance'⟩ :=
        ih passed run' survivors workspace hrun
      rw [← offerEach_eq_flatMapM] at hrun'
      refine ⟨after, bind_ok_iff.mpr ⟨passed, run', hrun', hafter⟩, hworkspace,
        hdispatched'.trans hdispatched, ?_⟩
      omega

/-! ### Stateless rules -/

/-- The action only makes new objects: it reads and changes no state, and does not fail. -/
def RuleM.Stateless (action : RuleM σ ε β) : Prop :=
  ∃ make : StateM Supply β, action = RuleM.create make

namespace RuleM.Stateless

theorem pure (value : β) : Stateless (pure value : RuleM σ ε β) := ⟨Pure.pure value, rfl⟩

theorem bind {action : RuleM σ ε β} {next : β → RuleM σ ε γ} (h : action.Stateless)
    (hnext : ∀ value, (next value).Stateless) : (action >>= next).Stateless := by
  obtain ⟨make, rfl⟩ := h
  choose more hmore using hnext
  obtain rfl : next = fun value => RuleM.create (more value) := funext hmore
  exact ⟨make >>= more, rfl⟩

theorem flatMapM {action : N → RuleM σ ε (List β)} (h : ∀ node, (action node).Stateless)
    (nodes : List N) : (nodes.flatMapM action).Stateless := by
  induction nodes with
  | nil => exact pure []
  | cons node rest ih =>
      rw [List.flatMapM_cons]
      exact (h node).bind fun _ => ih.bind fun _ => pure _

theorem exists_run {action : RuleM σ ε β} (h : action.Stateless) (workspace : Workspace σ) :
    ∃ value supply, action.run workspace = (.ok value, { workspace with supply }) := by
  obtain ⟨make, rfl⟩ := h
  exact ⟨_, _, rfl⟩

end RuleM.Stateless

/-- The rule looks at nothing but the node, never fails, and changes no state. -/
structure Rule.Stateless (rule : Rule σ ε N) : Prop where
  wants : ∀ node, ∃ answer, rule.wants node = pure answer
  visit : ∀ node, (rule.visit node).Stateless

theorem Rule.Stateless.replace {rule : Rule σ ε N} (h : rule.Stateless) (node : N) :
    (rule.replace node).Stateless := by
  obtain ⟨answer, hwants⟩ := h.wants node
  have hasked (shared : σ) : (rule.wants node).run shared = (answer, shared) := by
    rw [hwants]
    rfl
  have hask : (rule.ask node).Stateless := by
    cases answer with
    | false =>
        refine ⟨pure none, funext fun workspace => ?_⟩
        exact Rule.run_ask_of_unwanted (hasked workspace.shared)
    | true =>
        obtain ⟨make, hvisit⟩ := h.visit node
        refine ⟨some <$> make, funext fun workspace => ?_⟩
        have hrun := Rule.run_ask_of_wanted (hasked workspace.shared)
        rw [hvisit] at hrun
        exact hrun
  exact hask.bind fun _ => .pure _

theorem Rule.Stateless.on {τ : Type} {rule : Rule τ ε N} (h : rule.Stateless) {part : Part σ τ}
    (hset : ∀ whole, part.set (part.get whole) whole = whole) : (rule.on part).Stateless where
  wants node := by
    obtain ⟨answer, hwants⟩ := h.wants node
    refine ⟨answer, funext fun whole => ?_⟩
    change part.zoom (rule.wants node) whole = (answer, whole)
    rw [hwants]
    exact congrArg (Prod.mk answer) (hset whole)
  visit node := by
    obtain ⟨make, hvisit⟩ := h.visit node
    refine ⟨make, funext fun workspace => ?_⟩
    change part.zoomRule (rule.visit node) workspace = _
    rw [hvisit]
    exact congrArg (fun shared => (_, Workspace.mk shared _)) (hset workspace.shared)

/-- An instance of a stateless rule is stateless. -/
theorem RuleType.forall₂_stateless (types : List (RuleType γ ε N)) :
    List.Forall₂ (fun type rule => type.rule.Stateless → rule.Stateless) types
      (instances types) := by
  induction types with
  | nil => exact .nil
  | cons type types ih =>
      refine .cons (fun h => h.on fun _ => rfl) (List.forall₂_map_right_iff.mpr ?_)
      exact ih.imp fun _ _ hrest h => (hrest h).on fun _ => rfl

theorem passList_stateless {rules : List (Rule σ ε N)} (h : ∀ rule ∈ rules, rule.Stateless)
    (nodes : List N) : (passList rules nodes).Stateless := by
  induction rules generalizing nodes with
  | nil => exact .pure nodes
  | cons rule rules ih =>
      obtain ⟨hrule, hrules⟩ := List.forall_mem_cons.mp h
      rw [passList_cons]
      exact (RuleM.Stateless.flatMapM hrule.replace nodes).bind (ih hrules)

/-! ### Actions that make matched trees -/

/-- States are the same whatever they are. -/
def AnyState (_ : Matching) (_ _ : σ) : Prop := True

/-- Both actions give matched trees, whatever the states are. -/
abbrev Parallel (m : Matching) (left right : RuleM σ ε (List (Tree α))) : Prop :=
  Paired (Workspace.Alike AnyState) AllMatched m left right

/-- A stateless rule that is uniform in some states is so in all. -/
theorem Rule.Uniform.anyState {same : Matching → σ → σ → Prop} {rule : Rule σ ε (Tree α)}
    (h : rule.Uniform same) (hstateless : rule.Stateless) {state : σ}
    (hstate : ∀ m, same m state state) : rule.Uniform AnyState where
  wants := by
    intro m shared shared' node node' _ hnode
    obtain ⟨answer, hwants⟩ := hstateless.wants node
    obtain ⟨answer', hwants'⟩ := hstateless.wants node'
    have hanswers := (h.wants (hstate m) hnode).1
    rw [hwants, hwants'] at hanswers ⊢
    exact ⟨hanswers, trivial⟩
  visit := by
    intro m node node' hnode workspace workspace' halike
    obtain ⟨make, hvisit⟩ := hstateless.visit node
    obtain ⟨make', hvisit'⟩ := hstateless.visit node'
    obtain ⟨later, hlater, halike', hresult⟩ :=
      h.visit hnode ⟨state, m.left⟩ ⟨state, m.right⟩ ⟨rfl, rfl, hstate m⟩
    obtain ⟨shared, supply⟩ := workspace
    obtain ⟨shared', supply'⟩ := workspace'
    obtain rfl : supply = m.left := halike.left
    obtain rfl : supply' = m.right := halike.right
    rw [hvisit, hvisit'] at halike' hresult ⊢
    exact ⟨later, hlater, ⟨halike'.left, halike'.right, trivial⟩, hresult⟩

namespace Parallel

variable {m : Matching} {left middle right : RuleM σ ε (List (Tree α))}

theorem trans (h : Parallel m left middle) (h' : Parallel (.identical m.right) middle right) :
    Parallel m left right := by
  intro workspace workspace' halike
  obtain ⟨later, hle, halikeLater, hresult⟩ := h workspace workspace' halike
  obtain ⟨later', hle', halikeLater', hresult'⟩ :=
    h' workspace' workspace' ⟨halike.right, halike.right, trivial⟩
  refine ⟨later.comp later', Matching.le_comp hle hle',
    ⟨halikeLater.left, halikeLater'.right, trivial⟩, ?_⟩
  generalize (left.run workspace).1 = result at hresult ⊢
  generalize (middle.run workspace').1 = common at hresult hresult'
  generalize (right.run workspace').1 = result' at hresult' ⊢
  cases hresult with
  | ok hnodes =>
      cases hresult' with
      | ok hnodes' =>
          exact .ok (forall₂_of_comp hnodes hnodes' fun _ _ _ => Tree.Matched.comp)
  | error error =>
      cases hresult' with
      | error => exact .error error

/-- Two stateless actions change places: the objects that the one makes are not those that the other
one makes. -/
theorem swap {first first' second second' : RuleM σ ε (List (Tree α))}
    {next next' : List (Tree α) → List (Tree α) → RuleM σ ε (List (Tree α))}
    (hstateless : first.Stateless ∧ first'.Stateless)
    (hstateless' : second.Stateless ∧ second'.Stateless)
    (hfirst : ∀ later, m ≤ later → Parallel later first first')
    (hsecond : ∀ later, m ≤ later → Parallel later second second')
    (hnext : ∀ later, m ≤ later → ∀ a a' b b', AllMatched later a a' → AllMatched later b b' →
      Parallel later (next a b) (next' a' b')) :
    Parallel m (do let a ← first; let b ← second; next a b)
      (do let b ← second'; let a ← first'; next' a b) := by
  intro workspace workspace' halike
  obtain ⟨a, leftFirst, hrunFirst⟩ := hstateless.1.exists_run workspace
  obtain ⟨b, leftSecond, hrunSecond⟩ :=
    hstateless'.1.exists_run { workspace with supply := leftFirst }
  obtain ⟨b', rightSecond, hrunSecond'⟩ := hstateless'.2.exists_run workspace'
  obtain ⟨a', rightFirst, hrunFirst'⟩ :=
    hstateless.2.exists_run { workspace' with supply := rightSecond }
  have hright : m.right.next ≤ rightSecond.next := by
    obtain ⟨later, hle, halikeLater, _⟩ := hsecond m le_rfl workspace workspace' halike
    rw [hrunSecond'] at halikeLater
    exact hle.right.trans_eq (congrArg Supply.next halikeLater.right).symm
  -- The first action runs before the second one on the left, and after it on the right.
  obtain ⟨madeFirst, hleFirst, halikeFirst, hresult⟩ :=
    hfirst (m.grow m.left rightSecond le_rfl hright) (m.le_grow le_rfl hright) workspace
      { workspace' with supply := rightSecond } ⟨halike.left, rfl, trivial⟩
  rw [hrunFirst, hrunFirst'] at halikeFirst hresult
  obtain rfl : leftFirst = madeFirst.left := halikeFirst.left
  have hleft : m.left.next ≤ madeFirst.left.next := hleFirst.left
  obtain ⟨madeSecond, hleSecond, halikeSecond, hresult'⟩ :=
    hsecond (m.grow madeFirst.left m.right hleft le_rfl) (m.le_grow hleft le_rfl)
      { workspace with supply := madeFirst.left } workspace' ⟨rfl, halike.right, trivial⟩
  rw [hrunSecond, hrunSecond'] at halikeSecond hresult'
  obtain rfl : rightSecond = madeSecond.right := halikeSecond.right
  cases hresult with
  | ok ha =>
      cases hresult' with
      | ok hb =>
          let merged := Matching.merge hleft hright hleFirst hleSecond
          have hle : m ≤ merged := Matching.le_merge hleft hright hleFirst hleSecond
          have ha' : AllMatched merged a a' := ha.imp fun _ _ => Tree.Matched.mono .inl
          have hb' : AllMatched merged b b' := hb.imp fun _ _ => Tree.Matched.mono .inr
          obtain ⟨later, hlater, halikeLater, hagree⟩ := hnext merged hle a a' b b' ha' hb'
            { workspace with supply := leftSecond } { workspace' with supply := rightFirst }
            ⟨halikeSecond.left, halikeFirst.right, trivial⟩
          refine ⟨later, hle.trans hlater, ?_⟩
          rw [run_bind, hrunFirst, run_bind, hrunSecond']
          simp only [run_bind, hrunSecond, hrunFirst']
          exact ⟨halikeLater, hagree⟩

end Parallel

/-! ### One node after the other -/

section PassList

variable {m : Matching} {rules : List (Rule σ ε (Tree α))}
  (hstateless : ∀ rule ∈ rules, rule.Stateless) (huniform : ∀ rule ∈ rules, rule.Uniform AnyState)

theorem replace_parallel {rule : Rule σ ε (Tree α)} (h : rule.Uniform AnyState)
    {node node' : Tree α} (hnode : Tree.Matched m.pairs node node') :
    Parallel m (rule.replace node) (rule.replace node') :=
  (h.ask hnode).bind fun _ _ _ _ hask => .pure hask.1

theorem flatMapM_replace_parallel {rule : Rule σ ε (Tree α)} (h : rule.Uniform AnyState)
    {nodes nodes' : List (Tree α)} (hnodes : AllMatched m nodes nodes') :
    Parallel m (nodes.flatMapM rule.replace) (nodes'.flatMapM rule.replace) :=
  Paired.flatMapM matched_mono matched_mono (fun _ _ _ _ => replace_parallel h) hnodes

include huniform in
theorem passList_parallel {nodes nodes' : List (Tree α)} (hnodes : AllMatched m nodes nodes') :
    Parallel m (passList rules nodes) (passList rules nodes') :=
  Paired.foldlM (fun rule hrule _ _ _ _ hmatched =>
    flatMapM_replace_parallel (huniform rule hrule) hmatched) hnodes

include hstateless huniform

/-- Two parts of a list can be passed through the rules one after the other. -/
theorem passList_append {front front' back back' : List (Tree α)}
    (hfront : AllMatched m front front') (hback : AllMatched m back back') :
    Parallel m (passList rules (front ++ back))
      (do
        let front ← passList rules front'
        let back ← passList rules back'
        return front ++ back) := by
  induction rules generalizing m front front' back back' with
  | nil => exact .pure (List.rel_append hfront hback)
  | cons rule rules ih =>
      obtain ⟨hrule, hrules⟩ := List.forall_mem_cons.mp hstateless
      obtain ⟨hrule', hrules'⟩ := List.forall_mem_cons.mp huniform
      have hthrough : Parallel m (passList (rule :: rules) (front ++ back))
          (do
            let front ← front'.flatMapM rule.replace
            let back ← back'.flatMapM rule.replace
            let front ← passList rules front
            let back ← passList rules back
            return front ++ back) := by
        rw [passList_cons, flatMapM_append]
        simp only [bind_assoc, pure_bind]
        refine (flatMapM_replace_parallel hrule' hfront).bind fun mid hmid _ _ hfront => ?_
        refine (flatMapM_replace_parallel hrule' (AllMatched.mono hmid _ _ hback)).bind
          fun later hlater _ _ hback => ?_
        exact ih hrules hrules' (AllMatched.mono hlater _ _ hfront) hback
      refine hthrough.trans ?_
      rw [passList_cons, passList_cons]
      simp only [bind_assoc]
      refine (flatMapM_replace_parallel hrule' hfront.right_identical).bind
        fun mid hmid passed passed' hpassed => ?_
      -- The other rules take the front before the first rule takes the back.
      refine Parallel.swap ⟨.flatMapM hrule.replace back', .flatMapM hrule.replace back'⟩
        ⟨passList_stateless hrules passed, passList_stateless hrules passed'⟩
        (fun later hlater => ?_) (fun later hlater => ?_)
        fun later _ lefts rights others others' => ?_
      · have hback' := AllMatched.mono (hmid.trans hlater) _ _ hback.right_identical
        exact flatMapM_replace_parallel hrule' hback'
      · exact passList_parallel hrules' (AllMatched.mono hlater _ _ hpassed)
      · intro hlefts hothers
        refine (passList_parallel hrules' hlefts).bind fun last hlast _ _ hrest => .pure ?_
        exact List.rel_append (AllMatched.mono hlast _ _ hothers) hrest

/-- **A list can be passed through the rules one node after the other.** -/
theorem passList_nodewise {nodes nodes' : List (Tree α)} (h : AllMatched m nodes nodes') :
    Parallel m (passList rules nodes) (nodes'.flatMapM fun node => passList rules [node]) := by
  induction nodes' generalizing m nodes with
  | nil =>
      cases h
      rw [passList_nil]
      exact .pure .nil
  | cons node' nodes' ih =>
      obtain ⟨node, nodes, hhead, htail, rfl⟩ := List.forall₂_cons_right_iff.mp h
      have happend := passList_append hstateless huniform (.cons hhead .nil) htail
      refine happend.trans ?_
      rw [List.flatMapM_cons]
      have hhead' : AllMatched (.identical m.right) [node'] [node'] :=
        .cons hhead.right_identical .nil
      refine (passList_parallel huniform hhead').bind fun mid hmid _ _ hfront => ?_
      have htail' := AllMatched.mono hmid _ _ (AllMatched.right_identical htail)
      refine (ih htail').bind fun last hlast _ _ hback => .pure ?_
      exact List.rel_append (AllMatched.mono hlast _ _ hfront) hback

end PassList

/-! ### The fused pipeline -/

namespace Dispatch

theorem survivors_append (rules more : List (Rule σ ε N)) (nodes : List N) :
    survivors (rules ++ more) nodes =
      (do let passed ← survivors rules nodes; survivors more passed) := by
  simp only [survivors_eq_foldlM, List.foldlM_append]

variable {same : Matching → σ → σ → Prop} {m : Matching} {segment : List (Rule σ ε (Tree α))}
  {name : String} (hmono : Monotone same) (hstateless : ∀ rule ∈ segment, rule.Stateless)
  (huniform : ∀ rule ∈ segment, rule.Uniform AnyState)

include hmono hstateless huniform

/-- A round of the fused rule does what the rounds of the segment do. -/
theorem survivors_fused {nodes nodes' : List (Tree α)} (hnodes : AllMatched m nodes nodes') :
    Paired (Run.Alike same) AllMatched m (survivors segment nodes)
      (survivors [Rule.fused name segment] nodes') := by
  intro run run' halike
  obtain ⟨hleft, hright, hsame⟩ := halike.workspace
  obtain ⟨passed, supply, hpassed⟩ :=
    (passList_stateless hstateless nodes).exists_run run.workspace
  obtain ⟨passed', supply', hpassed'⟩ := (RuleM.Stateless.flatMapM
    (fun node => passList_stateless hstateless [node]) nodes').exists_run run'.workspace
  obtain ⟨later, hlater, halikeLater, hresult⟩ := passList_nodewise hstateless huniform hnodes
    run.workspace run'.workspace ⟨hleft, hright, trivial⟩
  rw [hpassed, hpassed'] at halikeLater hresult
  have hperforms (node : Tree α) :
      Performs 1 (passList segment [node]) (offer (Rule.fused name segment) node) := by
    rw [← replace_fused name]
    exact offer_performs _ node
  obtain ⟨after, hrun, hworkspace, hdispatched, hbalance⟩ :=
    survivors_performs segment nodes run passed _ hpassed
  obtain ⟨after', hrun', hworkspace', hdispatched', hbalance'⟩ :=
    Performs.flatMapM hperforms nodes' run' passed' _ hpassed'
  have hfused : survivors [Rule.fused name segment] nodes' =
      nodes'.flatMapM (offer (Rule.fused name segment)) := by
    rw [survivors_eq_foldlM, List.foldlM_cons]
    exact bind_pure _
  rw [hrun, hfused, hrun']
  cases hresult with
  | ok hmatched =>
      have hlength := List.Forall₂.length_eq hnodes
      have hlength' := List.Forall₂.length_eq hmatched
      refine ⟨later, hlater, ⟨?_, ⟨?_, ?_⟩⟩, .ok hmatched⟩
      · rw [hworkspace, hworkspace']
        exact ⟨halikeLater.left, halikeLater.right, hmono hlater _ _ hsame⟩
      · rw [hdispatched, hdispatched', halike.statistics.dispatched_eq]
      · have hstart := halike.statistics.balance_eq
        change after.statistics.balance = after'.statistics.balance
        omega

variable {earlier later : List (Rule σ ε (Tree α))}
  (hothers : ∀ rule ∈ earlier ++ later, rule.Uniform same)

include hothers

/-- **A segment of stateless rules can be fused.** Replace it by one rule that passes every node
through the segment, among rules that cannot read identities off. With every bound on the nesting the
two runs reach the bound both, or fail both with the same error, or give trees that coincide; and
they leave the same state, and count as many dispatches and as many nodes more. -/
theorem dispatch_fused [Relabel α] {root : Tree α} {run : Run σ}
    (hroot : ∀ node ∈ root.preorder, node.id < run.workspace.supply.next)
    (hstart : same (.identical run.workspace.supply) run.workspace.shared run.workspace.shared)
    (depth : Nat) :
    let original := (dispatch (earlier ++ segment ++ later) depth root).run run
    let fused := (dispatch (earlier ++ [Rule.fused name segment] ++ later) depth root).run run
    Agree (Tree.Coincide root) original.1 fused.1 ∧
      (∃ m, .identical run.workspace.supply ≤ m ∧
        same m original.2.workspace.shared fused.2.workspace.shared) ∧
      original.2.statistics.dispatched = fused.2.statistics.dispatched ∧
      (original.2.statistics.inserted : Int) - original.2.statistics.deleted =
        fused.2.statistics.inserted - fused.2.statistics.deleted := by
  have hsurvivors (m : Matching) (node node' : Tree α) (hnode : Tree.Matched m.pairs node node') :
      Paired (Run.Alike same) AllMatched m (survivors (earlier ++ segment ++ later) [node])
        (survivors (earlier ++ [Rule.fused name segment] ++ later) [node']) := by
    obtain ⟨hearlier, hlater⟩ := List.forall_mem_append.mp hothers
    rw [survivors_append, survivors_append, survivors_append, survivors_append]
    refine ((survivors_uniform hearlier (.cons hnode .nil)).bind fun _ _ _ _ hpassed => ?_).bind
      fun _ _ _ _ hpassed => survivors_uniform hlater hpassed
    exact survivors_fused hmono hstateless huniform hpassed
  have halike : Run.Alike same (.identical run.workspace.supply) run run :=
    ⟨⟨rfl, rfl, hstart⟩, ⟨rfl, rfl⟩⟩
  obtain ⟨m, hle, hafter, hagree⟩ := dispatch_matched (fun _ => recordDispatch_alike)
    (fresh_alike hmono) hsurvivors depth (Tree.matched_identical hroot) run run halike
  exact ⟨hagree.imp fun _ _ => Tree.coincide_of_matched hroot hle,
    ⟨m, hle, hafter.workspace.same⟩, hafter.statistics.dispatched_eq,
    hafter.statistics.balance_eq⟩

end Dispatch

namespace Catalogue

/-- The rules that need nothing but the node. -/
def statelessEntries : List Entry :=
  [.transferValue, .deleteExport, .addExport, .deleteIdentifier, .uppercaseIdentifier,
    .duplicateStatement, .triplicateNumber, .deleteString]

theorem Entry.stateless (scope : String) {entry : Entry} (h : entry ∈ statelessEntries) :
    (entry.ruleType scope).rule.Stateless where
  wants node := by
    refine ⟨entry.wantedKind == some node.kind, ?_⟩
    have hobserve : entry ≠ .observe := by
      rintro rfl
      exact absurd h (by decide)
    change entry.wants node = _
    rw [Entry.wants, if_neg hobserve]
    rfl
  visit node := by
    change (entry.visit node).Stateless
    fin_cases h
    · exact .bind ⟨_, rfl⟩ fun _ => .pure _
    · exact .pure _
    · exact .bind ⟨_, rfl⟩ fun _ => .bind ⟨_, rfl⟩ fun _ => .pure _
    · exact .pure _
    · exact .bind ⟨_, rfl⟩ fun _ => .pure _
    · exact .pure _
    · exact .pure _
    · exact .pure _

theorem pipeline_uniform (scope : String) (entries : List Entry) :
    ∀ rule ∈ RuleType.instances (pipeline scope entries).rules,
      rule.Uniform fun m state state' =>
        Context.Matched m state.1 state'.1 ∧ state.2 = state'.2 := by
  refine RuleType.instances_uniform (forall_mem_rules scope entries fun entry => ?_)
  exact Entry.uniform Context.Matched.mono Context.Matched.blurs scope entry

section Sample

/-- A pipeline with three stateless rules between two stateful ones. -/
def mixed : List Entry :=
  [.observe, .transferValue, .duplicateStatement, .uppercaseIdentifier, .numberIdentifiers]

open NodeBlueprint in
def mixing : NodeBlueprint :=
  NodeBlueprint.block [expressionStatement (identifier "x"),
    variableDeclaration "y" (stringLiteral "text")]

open NodeBlueprint in
/-- The statement twice, the declaration with the one that it is given, and numbered names. -/
def mixedUp : Outline Label :=
  (NodeBlueprint.block [expressionStatement (identifier "X_0"),
    expressionStatement (identifier "X_1"), variableDeclaration "Y_2" (stringLiteral "text"),
    variableDeclaration "VALUE_3" (identifier "RESULT_4")]).outline

/-- Of two runs that agree, the second one succeeds as the first one does. -/
theorem exists_of_agree {σ ε β : Type} {related : β → β → Prop} {left right : Except ε β × Run σ}
    (h : Agree related left.1 right.1)
    (hdispatched : left.2.statistics.dispatched = right.2.statistics.dispatched) {value : β}
    {after : Run σ} (hleft : left = (.ok value, after)) :
    ∃ value' after', right = (.ok value', after') ∧ related value value' ∧
      after.statistics.dispatched = after'.statistics.dispatched := by
  subst hleft
  obtain ⟨value', hvalue, hrelated⟩ := h.exists_of_ok
  exact ⟨value', right.2, Prod.ext hvalue rfl, hrelated, hdispatched⟩

/-- The three rules in the middle, and the rule that they are fused to, do the same. -/
theorem dispatch_fused_mixed :
    let rules := RuleType.instances (pipeline "" mixed).rules
    let earlier := rules.take 1
    let segment := (rules.drop 1).take 3
    let later := rules.drop 4
    let root := (mixing.build.run {}).1
    let run := firstRun mixed (mixing.build.run {}).2.next
    ∃ nodes nodes' after after',
      (dispatch (earlier ++ segment ++ later) 6 root).run run = (.ok nodes, after) ∧
      (dispatch (earlier ++ [Rule.fused "Fused" segment] ++ later) 6 root).run run =
        (.ok nodes', after') ∧
      nodes.map Tree.outline = [mixedUp] ∧ Tree.Coincide root nodes nodes' ∧
      after.statistics.dispatched = after'.statistics.dispatched := by
  intro rules earlier segment later root run
  have hsame (m : Matching) : Context.Matched m run.workspace.shared.1 run.workspace.shared.1 ∧
      run.workspace.shared.2 = run.workspace.shared.2 := ⟨⟨rfl, rfl, rfl, .none, rfl, rfl⟩, rfl⟩
  have hmono : Monotone fun m (state state' : Context × RuleType.Memories (pipeline "" mixed).rules) =>
      Context.Matched m state.1 state'.1 ∧ state.2 = state'.2 :=
    fun _ _ hle _ _ h => ⟨Context.Matched.mono hle _ _ h.1, h.2⟩
  have huniform := pipeline_uniform "" mixed
  have hentries : ∀ type ∈ ((mixed.drop 1).take 3).map (Entry.ruleType ""), type.rule.Stateless :=
    List.forall_mem_map.mpr fun entry hentry =>
      Entry.stateless "" ((by decide : (mixed.drop 1).take 3 ⊆ statelessEntries) hentry)
  have hstateless : ∀ rule ∈ segment, rule.Stateless := by
    have hinstances := List.forall₂_take 3 (List.forall₂_drop 1
      (RuleType.forall₂_stateless (pipeline "" mixed).rules))
    have hboth := (List.forall₂_and_left _ _).mpr ⟨hentries, hinstances⟩
    exact forall_of_forall₂ (hboth.imp fun _ _ h => h.2 h.1)
  have hanyState : ∀ rule ∈ segment, rule.Uniform AnyState := by
    intro rule hrule
    have hmem : rule ∈ rules := List.mem_of_mem_drop (List.mem_of_mem_take hrule)
    exact (huniform rule hmem).anyState (hstateless rule hrule) hsame
  have hothers : ∀ rule ∈ earlier ++ later, rule.Uniform fun m state state' =>
      Context.Matched m state.1 state'.1 ∧ state.2 = state'.2 :=
    List.forall_mem_append.mpr ⟨fun rule hrule => huniform rule (List.mem_of_mem_take hrule),
      fun rule hrule => huniform rule (List.mem_of_mem_drop hrule)⟩
  have hroot : ∀ node ∈ root.preorder, node.id < run.workspace.supply.next := by decide +kernel
  obtain ⟨hagree, -, hdispatched, -⟩ := @dispatch_fused _ _ _ _ _ "Fused" hmono hstateless hanyState
    _ _ hothers _ root run hroot (hsame _) 6
  obtain ⟨nodes, after, hrun, houtlines⟩ : ∃ nodes after,
      (dispatch (earlier ++ segment ++ later) 6 root).run run = (.ok nodes, after) ∧
      nodes.map Tree.outline = [mixedUp] := exists_ok_of_outlines (by decide +kernel)
  obtain ⟨nodes', after', hrun', hcoincide, hcount⟩ := exists_of_agree hagree hdispatched hrun
  exact ⟨nodes, nodes', after, after', hrun, hrun', houtlines, hcoincide, hcount⟩

end Sample

end Catalogue

end TreeRules
