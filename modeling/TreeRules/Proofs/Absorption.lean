import TreeRules.Proofs.FanOut
import TreeRules.Proofs.MatchedRuns
import TreeRules.Proofs.Pruning

/-!
# Deleting absorbs replacing

A rule that deletes what satisfies a predicate makes it pointless to replace some of it before by
something that satisfies the predicate as well: the replacement is deleted in the same dispatch,
before any of its children is looked at. The other way around nothing is left to be replaced. So
either order cuts off what deleting alone cuts off.
-/

namespace TreeRules

open Dispatch DispatchM

variable {σ τ γ ε N : Type}

/-- A visit may take identities from the supply, but gives none back, so that no object is made that
exists already. -/
def Rule.Spends (rule : Rule σ ε N) : Prop :=
  ∀ node workspace, workspace.supply.next ≤ ((rule.visit node).run workspace).2.supply.next

namespace Rule.Spends

theorem on {rule : Rule τ ε N} (h : rule.Spends) (part : Part σ τ) : (rule.on part).Spends :=
  fun node workspace => h node ⟨part.get workspace.shared, workspace.supply⟩

variable {rule : Rule σ ε N} (h : rule.Spends)

include h

theorem le_of_answers {offer : Offer N} {before after : Workspace σ}
    (hanswers : Answers rule before offer after) : before.supply.next ≤ after.supply.next := by
  rcases hasked : (rule.wants offer.node).run before.shared with ⟨_ | _, shared⟩
  · obtain ⟨-, rfl⟩ := Prod.mk.inj ((Rule.run_ask_of_unwanted hasked).symm.trans hanswers)
    exact le_rfl
  · obtain ⟨-, rfl⟩ := Prod.mk.inj ((Rule.run_ask_of_wanted hasked).symm.trans hanswers)
    exact h offer.node { before with shared }

end Rule.Spends

/-- In whatever state, the rule wants what is `wanted`, and replaces it by one node that satisfies
the predicate. -/
structure Rule.Substitutes (rule : Rule σ ε Node) (wanted : Node → Bool) (p : Label → Bool) :
    Prop where
  wants : ∀ node shared, ((rule.wants node).run shared).1 = wanted node
  visit : ∀ node, wanted node = true → ∀ workspace, ∃ new after,
    (rule.visit node).run workspace = (.ok [new], after) ∧ p new.label = true

namespace Rule.Substitutes

variable {wanted : Node → Bool} {p : Label → Bool}

theorem on {rule : Rule τ ε Node} (h : rule.Substitutes wanted p) (part : Part σ τ) :
    (rule.on part).Substitutes wanted p where
  wants node shared := h.wants node (part.get shared)
  visit node hwanted workspace := by
    obtain ⟨new, after, hvisited, hnew⟩ :=
      h.visit node hwanted ⟨part.get workspace.shared, workspace.supply⟩
    refine ⟨new, ⟨part.set after.shared workspace.shared, after.supply⟩, ?_, hnew⟩
    change part.zoomRule (rule.visit node) workspace = _
    simp only [Part.zoomRule, hvisited]

variable {rule : Rule σ ε Node} (h : rule.Substitutes wanted p) {offer : Offer Node}
  {before after : Workspace σ}

include h

theorem neverFails : rule.NeverFails := by
  intro node shared hwants workspace
  rw [h.wants] at hwants
  obtain ⟨new, after, hvisited, -⟩ := h.visit node hwants workspace
  exact ⟨[new], after, hvisited⟩

theorem replacement_eq_none (hanswers : Answers rule before offer after)
    (hunwanted : wanted offer.node = false) : offer.replacement = none := by
  rcases hanswers.refused_or_visited with ⟨_, _, hnone⟩ | ⟨shared, _, hasked, _, _⟩
  · exact hnone
  · have hwants := h.wants offer.node before.shared
    rw [hasked, hunwanted] at hwants
    cases hwants

theorem nodes_eq_of_unwanted (hanswers : Answers rule before offer after)
    (hunwanted : wanted offer.node = false) : offer.nodes = [offer.node] := by
  rw [Offer.nodes, h.replacement_eq_none hanswers hunwanted, Option.getD_none]

theorem exists_replacement (hanswers : Answers rule before offer after)
    (hwanted : wanted offer.node = true) :
    ∃ new, offer.replacement = some [new] ∧ p new.label = true := by
  have hwants := h.wants offer.node before.shared
  rcases hanswers.refused_or_visited with ⟨_, hasked, _⟩ | ⟨shared, nodes, _, hvisit, hsome⟩
  · rw [hasked, hwanted] at hwants
    cases hwants
  · obtain ⟨new, _, hvisited, hnew⟩ := h.visit offer.node hwanted { before with shared }
    rw [hvisit] at hvisited
    exact ⟨new, hsome.trans (congrArg some (Except.ok.inj (Prod.ext_iff.mp hvisited).1)), hnew⟩

theorem isSome_replacement (hanswers : Answers rule before offer after) :
    offer.replacement.isSome = wanted offer.node := by
  cases hwanted : wanted offer.node with
  | false =>
      rw [h.replacement_eq_none hanswers hwanted]
      rfl
  | true =>
      obtain ⟨new, hsome, -⟩ := h.exists_replacement hanswers hwanted
      rw [hsome]
      rfl

/-- One node is left, which satisfies the predicate if and only if the offered one does, and is that
very node if not. -/
theorem exists_nodes_eq (hwanted : ∀ node, wanted node = true → p node.label = true)
    (hanswers : Answers rule before offer after) : ∃ passed, offer.nodes = [passed] ∧
      p passed.label = p offer.node.label ∧ (p offer.node.label = false → passed = offer.node) := by
  cases hnode : wanted offer.node with
  | false => exact ⟨offer.node, h.nodes_eq_of_unwanted hanswers hnode, rfl, fun _ => rfl⟩
  | true =>
      obtain ⟨new, hsome, hnew⟩ := h.exists_replacement hanswers hnode
      have hp := hwanted offer.node hnode
      refine ⟨new, ?_, hnew.trans hp.symm, fun hfalse => ?_⟩
      · rw [Offer.nodes, hsome, Option.getD_some]
      · rw [hp] at hfalse
        cases hfalse

end Rule.Substitutes

/-- One rule deletes what satisfies the predicate. The other one replaces some of it, always by one
node that satisfies the predicate as well. -/
structure Rule.Absorbs (deleting : Rule τ ε Node) (replacing : Rule σ ε Node)
    (wanted : Node → Bool) (p : Label → Bool) : Prop where
  name_ne : replacing.name ≠ deleting.name
  substitutes : replacing.Substitutes wanted p
  wanted_imp : ∀ node, wanted node = true → p node.label = true
  repeats : deleting.Repeats p 0
  spends : replacing.Spends
  spends_deleting : deleting.Spends

namespace Rule.Absorbs

variable {deleting : Rule τ ε Node} {replacing : Rule σ ε Node} {wanted : Node → Bool}
  {p : Label → Bool} (h : deleting.Absorbs replacing wanted p)

include h

theorem on_deleting {ρ : Type} (part : Part ρ τ) :
    (deleting.on part).Absorbs replacing wanted p :=
  { h with
    name_ne := h.name_ne
    repeats := h.repeats.on part
    spends_deleting := h.spends_deleting.on part }

theorem on_replacing {ρ : Type} (part : Part ρ σ) :
    deleting.Absorbs (replacing.on part) wanted p :=
  { h with
    name_ne := h.name_ne
    substitutes := h.substitutes.on part
    spends := h.spends.on part }

/-- The rule that replaces does not want what the other one leaves. -/
theorem unwanted_of_mem {node left : Node}
    (hleft : left ∈ List.replicate (fan p 0 node.label) node) : wanted left = false := by
  obtain ⟨hcount, rfl⟩ := List.mem_replicate.mp hleft
  by_contra hwanted
  rw [Bool.not_eq_false] at hwanted
  exact hcount (fan_of_pos 0 (h.wanted_imp left hwanted))

end Rule.Absorbs

/-- All objects of the tree were made before the run. -/
def Run.Knows {α : Type} (run : Run σ) (root : Tree α) : Prop :=
  ∀ node ∈ root.preorder, node.id < run.workspace.supply.next

namespace Dispatch

/-! ### Rules that cut off what satisfies a predicate -/

theorem Rounds.le_supply {rules : List (Rule σ ε N)} (hrules : ∀ rule ∈ rules, rule.Spends)
    {start finish : Workspace σ} {rounds : List (List (Offer N))}
    (h : Rounds rules start rounds finish) : start.supply.next ≤ finish.supply.next := by
  have hround {rule : Rule σ ε N} (hrule : rule.Spends) {start finish : Workspace σ}
      {offers : List (Offer N)} (hoffers : Thread (Answers rule) start offers finish) :
      start.supply.next ≤ finish.supply.next := by
    induction hoffers with
    | nil => exact le_rfl
    | cons hanswers _ ih => exact (hrule.le_of_answers hanswers).trans ih
  induction h with
  | nil => exact le_rfl
  | cons hoffers _ ih =>
      obtain ⟨hrule, hothers⟩ := List.forall_mem_cons.mp hrules
      exact (hround hrule hoffers).trans (ih hothers)

/-- The offer is a match of the rule of the name if and only if the node is deleted, and nothing is
inserted for it. -/
structure Offer.Deleted (name rule : String) (offer : Offer N) : Prop where
  visits_eq : ((offer.events rule).map (Event.visits name)).sum =
    ((offer.events rule).map Event.deletions).sum
  insertions_eq : ((offer.events rule).map Event.insertions).sum = 0

/-- Whatever state they start from, the rules leave nothing of a node that satisfies the predicate,
and any other node as it is. It is the rule of the name that deletes, and no rule inserts. -/
structure Cuts (rules : List (Rule σ ε Node)) (name : String) (p : Label → Bool) : Prop where
  neverFails : ∀ rule ∈ rules, rule.NeverFails
  spends : ∀ rule ∈ rules, rule.Spends
  deleted : ∀ rule ∈ rules, ∀ offer v w, Answers rule v offer w → offer.Deleted name rule.name
  survivors_eq : ∀ {start finish : Workspace σ} {rounds : List (List (Offer Node))} {node : Node}
    {survivors : List Node}, Relay [node] rounds survivors → Rounds rules start rounds finish →
      survivors = List.replicate (fan p 0 node.label) node

section Alone

variable {deleting : Rule σ ε Node} {replacing : Rule τ ε Node} {wanted : Node → Bool}
  {p : Label → Bool} (h : deleting.Absorbs replacing wanted p)

include h

theorem deleted_of_deleting {offer : Offer Node} {v w : Workspace σ}
    (hanswers : Answers deleting v offer w) : offer.Deleted deleting.name deleting.name := by
  constructor <;> rw [Offer.events, h.repeats.replacement_eq hanswers] <;>
    by_cases hp : p offer.node.label = true <;>
    simp [hp, Event.visits, Event.deletions, Event.insertions]

theorem cuts_alone : Cuts [deleting] deleting.name p where
  neverFails := List.forall_mem_singleton.mpr h.repeats.multiplies.neverFails
  spends := List.forall_mem_singleton.mpr h.spends_deleting
  deleted := List.forall_mem_singleton.mpr fun _ _ _ => deleted_of_deleting h
  survivors_eq hrelay hrounds := by
    have hsurvivors := hrounds.survivors_eq_replicate (.cons h.repeats.multiplies .nil) hrelay
      List.replicate_one.symm
    simpa using hsurvivors

end Alone

section Both

variable {deleting replacing : Rule σ ε Node} {wanted : Node → Bool} {p : Label → Bool}
  (h : deleting.Absorbs replacing wanted p)

include h

theorem deleted_of_replacing {offer : Offer Node} {v w : Workspace σ}
    (hanswers : Answers replacing v offer w) : offer.Deleted deleting.name replacing.name := by
  obtain ⟨passed, hpassed, -⟩ := h.substitutes.exists_nodes_eq h.wanted_imp hanswers
  obtain ⟨hdeletions, hinsertions⟩ :=
    Offer.sum_deletions_insertions (congrArg List.length hpassed) replacing.name
  exact ⟨(Offer.sum_visits_of_ne h.name_ne offer).trans hdeletions.symm, hinsertions⟩

/-- What the one rule puts in the place of a node, the other one deletes. -/
theorem cuts_of_replacing_first : Cuts [replacing, deleting] deleting.name p where
  neverFails := List.forall_mem_cons.mpr ⟨h.substitutes.neverFails, (cuts_alone h).neverFails⟩
  spends := List.forall_mem_cons.mpr ⟨h.spends, (cuts_alone h).spends⟩
  deleted := List.forall_mem_cons.mpr
    ⟨fun _ _ _ => deleted_of_replacing h, (cuts_alone h).deleted⟩
  survivors_eq {start finish rounds node survivors} hrelay hrounds := by
    cases hrounds with
    | cons hoffers hrounds =>
        obtain ⟨hnodes, hlater⟩ := Relay.cons_iff.mp hrelay
        obtain ⟨offer, rfl, rfl⟩ := List.map_eq_singleton_iff.mp hnodes
        obtain ⟨_, _, hanswers⟩ := hoffers.exists_step_of_mem (List.mem_singleton_self offer)
        obtain ⟨passed, hpassed, hlabel, hspared⟩ :=
          h.substitutes.exists_nodes_eq h.wanted_imp hanswers
        rw [List.flatMap_singleton, hpassed] at hlater
        rw [(cuts_alone h).survivors_eq hlater hrounds]
        cases hp : p offer.node.label with
        | true =>
            rw [fan_of_pos 0 hp, fan_of_pos 0 (hlabel.trans hp)]
            rfl
        | false => rw [hspared hp]

/-- Where the one rule has deleted, nothing is left for the other one to replace. -/
theorem cuts_of_deleting_first : Cuts [deleting, replacing] deleting.name p where
  neverFails := List.forall_mem_cons.mpr ⟨h.repeats.multiplies.neverFails,
    List.forall_mem_singleton.mpr h.substitutes.neverFails⟩
  spends := List.forall_mem_cons.mpr ⟨h.spends_deleting, List.forall_mem_singleton.mpr h.spends⟩
  deleted := List.forall_mem_cons.mpr ⟨fun _ _ _ => deleted_of_deleting h,
    List.forall_mem_singleton.mpr fun _ _ _ => deleted_of_replacing h⟩
  survivors_eq {start finish rounds node survivors} hrelay hrounds := by
    cases hrounds with
    | cons hoffers hrounds =>
        obtain ⟨hnodes, hlater⟩ := Relay.cons_iff.mp hrelay
        obtain ⟨offer, rfl, rfl⟩ := List.map_eq_singleton_iff.mp hnodes
        obtain ⟨_, _, hanswers⟩ := hoffers.exists_step_of_mem (List.mem_singleton_self offer)
        rw [List.flatMap_singleton, h.repeats.multiplies.nodes_eq hanswers] at hlater
        cases hrounds with
        | @cons _ _ _ _ _ others _ hothers hrounds =>
            cases hrounds
            obtain ⟨hleft, hlast⟩ := Relay.cons_iff.mp hlater
            have hpassed : others.flatMap Offer.nodes = others.map Offer.node := by
              rw [← List.flatMap_pure_eq_map]
              refine List.flatMap_congr fun other hother => ?_
              obtain ⟨_, _, hanswers⟩ := hothers.exists_step_of_mem hother
              have hmem : other.node ∈ others.map Offer.node := List.mem_map_of_mem hother
              rw [hleft] at hmem
              exact h.substitutes.nodes_eq_of_unwanted hanswers (h.unwanted_of_mem hmem)
            rw [hlast.eq_of_nil, hpassed, hleft]

end Both

namespace Cuts

variable {p : Label → Bool} {name : String} {rules : List (Rule σ ε Node)}

theorem multiplies (h : Cuts rules name p) {start finish : Workspace σ} {trace : Trace Node}
    (hfollows : Follows rules start trace finish) : trace.Multiplies (fan p 0) := by
  intro inner hinner
  obtain ⟨_, _, hinner⟩ := hfollows.exists_of_mem_dispatches inner hinner
  cases hinner with
  | dispatch hrelay hrounds _ => exact h.survivors_eq hrelay hrounds

theorem exists_survivors (h : Cuts rules name p) (node : Node) (run : Run σ) :
    ∃ after, (survivors rules [node]).run run =
        (.ok (List.replicate (fan p 0 node.label) node), after) ∧
      run.workspace.supply.next ≤ after.workspace.supply.next := by
  rcases hrun : (survivors rules [node]).run run with ⟨halt | passed, after⟩
  · obtain ⟨earlier, rule, later, _, _, last, _, _, _, mid, hrules, _, _, _, _, hfailed, _⟩ :=
      survivors_error hrun
    have hmem : rule ∈ rules := by
      rw [hrules]
      exact List.mem_append_right _ List.mem_cons_self
    obtain ⟨_, _, hasked⟩ := (h.neverFails rule hmem).exists_ask last mid
    rw [hasked] at hfailed
    cases hfailed
  · obtain ⟨rounds, hrelay, hrounds, -⟩ := survivors_ok hrun
    rw [h.survivors_eq hrelay hrounds]
    exact ⟨after, rfl, hrounds.le_supply h.spends⟩

end Cuts

namespace Cuts

variable {p : Label → Bool} {name name' : String} {rules : List (Rule σ ε Node)}
  {rules' : List (Rule τ ε Node)}

theorem survivors_supplied (h : Cuts rules name p) (h' : Cuts rules' name' p) {m : Matching}
    {node node' : Node} (hnode : Tree.Matched m.pairs node node') :
    Paired Supplied AllMatched m (survivors rules [node]) (survivors rules' [node']) := by
  rintro run run' ⟨hleft, hright⟩
  obtain ⟨after, hrun, hle⟩ := h.exists_survivors node run
  obtain ⟨after', hrun', hle'⟩ := h'.exists_survivors node' run'
  rw [hleft] at hle
  rw [hright] at hle'
  rw [hrun, hrun', hnode.label_eq]
  refine ⟨m.grow after.workspace.supply after'.workspace.supply hle hle', m.le_grow hle hle',
    ⟨rfl, rfl⟩, .ok ?_⟩
  cases hp : p node'.label with
  | true =>
      rw [fan_of_pos 0 hp]
      exact .nil
  | false =>
      rw [fan_of_neg 0 hp]
      exact .cons hnode .nil

/-- Rule lists that cut off the same make trees that coincide. -/
theorem agree (h : Cuts rules name p) (h' : Cuts rules' name' p) {root : Node} {run : Run σ}
    {run' : Run τ} (hknown : run.Knows root) (hknown' : run'.Knows root) (depth : Nat) :
    Agree (Tree.Coincide root) ((dispatch rules depth root).run run).1
      ((dispatch rules' depth root).run run').1 := by
  let old : Supply := ⟨min run.workspace.supply.next run'.workspace.supply.next⟩
  have hold : ∀ node ∈ root.preorder, node.id < old.next := fun node hnode =>
    lt_min (hknown node hnode) (hknown' node hnode)
  let start : Matching := (Matching.identical old).grow run.workspace.supply run'.workspace.supply
    (min_le_left _ _) (min_le_right _ _)
  have hstart : .identical old ≤ start := Matching.le_grow _ _ _
  have hroot : Tree.Matched start.pairs root root := Tree.matched_identical hold
  have hrecord (m : Matching) : Paired Supplied (fun _ _ _ => True) m
      (record Statistics.recordDispatch : DispatchM σ ε Unit)
      (record Statistics.recordDispatch : DispatchM τ ε Unit) :=
    fun _ _ hsupplied => ⟨m, le_rfl, ⟨hsupplied.left, hsupplied.right⟩, .ok trivial⟩
  obtain ⟨m, hle, -, hagree⟩ := dispatch_matched hrecord (fresh_matched id Supplied.spend)
    (fun m _ _ => h.survivors_supplied h') depth hroot run run' ⟨rfl, rfl⟩
  exact hagree.imp fun _ _ => Tree.coincide_of_matched hold (hstart.trans hle)

/-- All that is cut off is counted for the rule that deletes. -/
theorem matched_eq_deleted (h : Cuts rules name p) {run after : Run σ} {trace : Trace Node}
    (hleaves : Leaves rules run trace after) {count : Nat}
    (hdeleted : after.statistics.deleted = run.statistics.deleted + count) :
    (after.statistics.counts name).matched = (run.statistics.counts name).matched + count := by
  have hvisits : ((trace.events (rules.map Rule.name)).map (Event.visits name)).sum =
      ((trace.events (rules.map Rule.name)).map Event.deletions).sum :=
    hleaves.follows.sum_map_events_congr rfl fun rule hrule offer v w hanswers =>
      (h.deleted rule hrule offer v w hanswers).visits_eq
  have hdeletions := hleaves.tallied.deleted
  rw [hleaves.tallied.matched, hvisits]
  omega

theorem advances (h : Cuts rules name p) {run after : Run σ} {trace : Trace Node}
    (hleaves : Leaves rules run trace after) :
    run.statistics.Advances after.statistics
      (trace.node.appearances.countP (Appearance.topmost p) +
        (trace.node.appearances.filter (Appearance.spared p)).length)
      (trace.node.appearances.countP (Appearance.topmost p)) 0 := by
  refine (h.multiplies hleaves.follows).advances hleaves ?_
  calc ((trace.events (rules.map Rule.name)).map Event.insertions).sum
      = ((trace.events (rules.map Rule.name)).map fun _ => 0).sum := by
        refine hleaves.follows.sum_map_events_congr rfl fun rule hrule offer v w hanswers => ?_
        rw [(h.deleted rule hrule offer v w hanswers).insertions_eq]
        simp
    _ = 0 := by simp

end Cuts

theorem Leaves.matched_eq {rules : List (Rule σ ε Node)} {run after : Run σ} {trace : Trace Node}
    (h : Leaves rules run trace after) (hnodup : (rules.map Rule.name).Nodup) {place : Nat}
    {rule : Rule σ ε Node} (hrule : rules[place]? = some rule) :
    (after.statistics.counts rule.name).matched = (run.statistics.counts rule.name).matched +
      (trace.offersOf place).countP fun offer => offer.replacement.isSome := by
  have hname : (rules.map Rule.name)[place]? = some rule.name := by
    rw [List.getElem?_map, hrule]
    rfl
  rw [h.tallied.matched, Trace.sum_map_events_eq h.follows.orderly rfl
    (fun _ hother offer => offer.sum_visits_of_ne hother) hnodup (List.length_map _) hname,
    Offer.sum_visits, List.countP_eq_length_filter]

section Counts

variable {deleting replacing : Rule σ ε Node} {wanted : Node → Bool} {p : Label → Bool}
  (h : deleting.Absorbs replacing wanted p) {run after : Run σ} {trace : Trace Node}

include h

theorem countP_wanted (xs : List (Appearance Label)) :
    (xs.flatMap fun x => List.replicate (x.reach (fan p 0)) x.node).countP wanted =
      xs.countP fun x => x.topmost p && wanted x.node := by
  induction xs with
  | nil => rfl
  | cons x xs ih =>
      rw [List.flatMap_cons, List.countP_append, ih, List.countP_cons, List.countP_replicate,
        Appearance.reach_fan_zero, Nat.add_comm]
      congr 1
      cases hwanted : wanted x.node with
      | false => simp
      | true =>
          have hp := h.wanted_imp x.node hwanted
          have hspared : x.spared p = false := by
            simp [Appearance.spared, Appearance.labels, Appearance.path, hp]
          simp [hspared]

/-- The rule that replaces comes first, and is matched for those of the tops that it wants. -/
theorem matched_of_replacing_first (hleaves : Leaves [replacing, deleting] run trace after) :
    (after.statistics.counts replacing.name).matched =
      (run.statistics.counts replacing.name).matched +
        trace.node.appearances.countP fun x => x.topmost p && wanted x.node := by
  have horderly := hleaves.follows.orderly
  have hmultiplies := (cuts_of_replacing_first h).multiplies hleaves.follows
  have hmatched : ∀ offer ∈ trace.offersOf 0,
      (offer.replacement.isSome = true ↔ wanted offer.node = true) := by
    intro offer hoffer
    obtain ⟨_, _, hanswers⟩ := hleaves.follows.exists_answers rfl offer hoffer
    rw [h.substitutes.isSome_replacement hanswers]
  have hnodup : ([replacing, deleting].map Rule.name).Nodup := by simp [h.name_ne]
  have hplace : [replacing, deleting][0]? = some replacing := rfl
  rw [hleaves.matched_eq hnodup hplace, List.countP_congr hmatched]
  calc _ = (run.statistics.counts replacing.name).matched +
          ((trace.offersOf 0).map Offer.node).countP wanted := by rw [List.countP_map]; rfl
    _ = _ := by
      rw [Trace.map_node_offersOf_zero horderly Nat.two_pos,
        (hmultiplies.map_node_dispatches_perm horderly).countP_eq, countP_wanted h]

/-- The rule that replaces comes last, and is not matched. -/
theorem matched_of_deleting_first (hleaves : Leaves [deleting, replacing] run trace after) :
    (after.statistics.counts replacing.name).matched =
      (run.statistics.counts replacing.name).matched := by
  have horderly := hleaves.follows.orderly
  have hnodup : ([deleting, replacing].map Rule.name).Nodup := by simp [h.name_ne.symm]
  have hplace : [deleting, replacing][1]? = some replacing := rfl
  have hunmatched : (trace.offersOf 1).countP (fun offer => offer.replacement.isSome) = 0 := by
    rw [List.countP_eq_zero]
    intro offer hoffer
    have hmem : offer.node ∈ (trace.offersOf 1).map Offer.node := List.mem_map_of_mem hoffer
    rw [Trace.map_node_offersOf_succ horderly Nat.one_lt_two, List.mem_flatMap] at hmem
    obtain ⟨before, hbefore, hleft⟩ := hmem
    obtain ⟨_, _, hdeleted⟩ := hleaves.follows.exists_answers rfl before hbefore
    obtain ⟨_, _, hanswers⟩ := hleaves.follows.exists_answers rfl offer hoffer
    rw [h.repeats.multiplies.nodes_eq hdeleted] at hleft
    rw [h.substitutes.isSome_replacement hanswers, h.unwanted_of_mem hleft]
    decide
  rw [hleaves.matched_eq hnodup hplace, hunmatched, Nat.add_zero]

end Counts

end Dispatch

namespace Catalogue

/-- Deleting identifiers absorbs putting them into upper case. -/
theorem deleteIdentifier_absorbs (scope : String) :
    (Entry.deleteIdentifier.ruleType scope).rule.Absorbs
      (Entry.uppercaseIdentifier.ruleType scope).rule
      (fun node => some Kind.identifier == some node.kind)
      (fun label => some Kind.identifier == some label.kind) where
  name_ne hname := by
    have hnames := String.append_right_inj (scope ++ "::") |>.mp hname
    exact absurd hnames (by decide)
  substitutes :=
    { wants := Entry.uppercaseIdentifier.run_wants_fst
      visit := fun _ hwanted _ => ⟨_, _, rfl, hwanted⟩ }
  wanted_imp _ hwanted := hwanted
  repeats := Entry.repeats scope fun _ => rfl
  spends _ _ := Nat.le_succ _
  spends_deleting _ _ := le_rfl

end Catalogue

namespace Dispatch

/-- A run that cuts off what satisfies the predicate. It is counted for the rule of the name, once
for each node that satisfies it while no node above does. -/
structure CutsOff (rules : List (Rule σ ε Node)) (name : String) (p : Label → Bool) (depth : Nat)
    (root : Node) (run : Run σ) (nodes : List Node) (after : Run σ) : Prop where
  run_eq : (dispatch rules depth root).run run = (.ok nodes, after)
  advances : run.statistics.Advances after.statistics
    (root.appearances.countP (Appearance.topmost p) +
      (root.appearances.filter (Appearance.spared p)).length)
    (root.appearances.countP (Appearance.topmost p)) 0
  matched_eq : (after.statistics.counts name).matched =
    (run.statistics.counts name).matched + root.appearances.countP (Appearance.topmost p)

theorem Cuts.exists_cutsOff {rules : List (Rule σ ε Node)} {name : String} {p : Label → Bool}
    (h : Cuts rules name p) {depth : Nat} {root : Node} {run after : Run σ} {nodes : List Node}
    (hrun : (dispatch rules depth root).run run = (.ok nodes, after)) :
    CutsOff rules name p depth root run nodes after ∧
      ∃ trace, trace.node = root ∧ Leaves rules run trace after := by
  obtain ⟨trace, rfl, rfl, hleaves⟩ := dispatch_ok hrun
  have hadvances := h.advances hleaves
  exact ⟨⟨hrun, hadvances, h.matched_eq_deleted hleaves hadvances.deleted_eq⟩, trace, rfl, hleaves⟩

open RuleType in
/-- **Deleting absorbs replacing.** With the rule that replaces before or after it, deleting makes
the trees that it makes alone, and as much is dispatched and deleted. Where the rule that replaces
comes first, it is matched for those tops that it wants, and what it puts there is deleted all the
same; where it comes last, it is never matched. In particular, deleting identifiers absorbs putting
them into upper case. -/
theorem dispatch_absorbs {deleting replacing : RuleType γ ε Node} {wanted : Node → Bool}
    {p : Label → Bool} (h : deleting.rule.Absorbs replacing.rule wanted p) {root : Node}
    {depth : Nat} (hdepth : Host.subtreeDepth root ≤ depth) {alone : Run (γ × Memories [deleting])}
    {first : Run (γ × Memories [replacing, deleting])}
    {last : Run (γ × Memories [deleting, replacing])}
    (halone : alone.Knows root) (hfirst : first.Knows root) (hlast : last.Knows root) :
    (∃ nodes after nodesFirst afterFirst nodesLast afterLast,
      CutsOff (instances [deleting]) deleting.name p depth root alone nodes after ∧
      CutsOff (instances [replacing, deleting]) deleting.name p depth root first nodesFirst
        afterFirst ∧
      CutsOff (instances [deleting, replacing]) deleting.name p depth root last nodesLast
        afterLast ∧
      Tree.Coincide root nodes nodesFirst ∧ Tree.Coincide root nodes nodesLast ∧
      (afterFirst.statistics.counts replacing.name).matched =
        (first.statistics.counts replacing.name).matched +
          root.appearances.countP (fun x => x.topmost p && wanted x.node) ∧
      (afterLast.statistics.counts replacing.name).matched =
        (last.statistics.counts replacing.name).matched) ∧
    ∀ scope : String, (Catalogue.Entry.deleteIdentifier.ruleType scope).rule.Absorbs
      (Catalogue.Entry.uppercaseIdentifier.ruleType scope).rule
      (fun node => some Kind.identifier == some node.kind)
      (fun label => some Kind.identifier == some label.kind) := by
  refine ⟨?_, Catalogue.deleteIdentifier_absorbs⟩
  have hinFirst := ((h.on_replacing (ρ := γ × Memories [replacing, deleting]) headPart).on_deleting
    headPart).on_deleting (ρ := γ × Memories [replacing, deleting]) tailPart
  have hinLast := ((h.on_deleting (ρ := γ × Memories [deleting, replacing]) headPart).on_replacing
    headPart).on_replacing (ρ := γ × Memories [deleting, replacing]) tailPart
  have hcuts : Cuts (instances [deleting]) deleting.name p := cuts_alone (h.on_deleting headPart)
  have hcutsFirst : Cuts (instances [replacing, deleting]) deleting.name p :=
    cuts_of_replacing_first hinFirst
  have hcutsLast : Cuts (instances [deleting, replacing]) deleting.name p :=
    cuts_of_deleting_first hinLast
  obtain ⟨nodes, after, hrun⟩ : ∃ nodes after,
      (dispatch (instances [deleting]) depth root).run alone = (.ok nodes, after) :=
    exists_ok_of_multiplies (.cons (h.repeats.on headPart).multiplies .nil) hdepth alone
  have hagreeFirst := hcuts.agree hcutsFirst halone hfirst depth
  have hagreeLast := hcuts.agree hcutsLast halone hlast depth
  rw [hrun] at hagreeFirst hagreeLast
  obtain ⟨nodesFirst, hresultFirst, hcoincideFirst⟩ := hagreeFirst.exists_of_ok
  obtain ⟨nodesLast, hresultLast, hcoincideLast⟩ := hagreeLast.exists_of_ok
  obtain ⟨hcutsOff, -⟩ := hcuts.exists_cutsOff hrun
  obtain ⟨hcutsOffFirst, trace, rfl, hleaves⟩ :=
    hcutsFirst.exists_cutsOff (Prod.ext hresultFirst rfl)
  obtain ⟨hcutsOffLast, trace', hnode, hleaves'⟩ :=
    hcutsLast.exists_cutsOff (Prod.ext hresultLast rfl)
  exact ⟨nodes, after, nodesFirst, _, nodesLast, _, hcutsOff, hcutsOffFirst, hcutsOffLast,
    hcoincideFirst, hcoincideLast, matched_of_replacing_first hinFirst hleaves,
    matched_of_deleting_first hinLast hleaves'⟩

end Dispatch

namespace Catalogue

open Dispatch

section Sample

open NodeBlueprint in
/-- A block with an identifier that holds two others, and one more beside it. -/
def nestedNames : NodeBlueprint :=
  NodeBlueprint.block [branch .identifier [identifier "first", identifier "second"],
    expressionStatement (identifier "third")]

/-- The two inner identifiers go with the outer one, and count for nobody. -/
theorem dispatch_absorbs_nested :
    let root := (nestedNames.build.run {}).1
    let next := (nestedNames.build.run {}).2.next
    let depth := Host.subtreeDepth root
    ∃ nodes after nodesFirst afterFirst nodesLast afterLast,
      (dispatch (RuleType.instances (pipeline "" [.deleteIdentifier]).rules) depth root).run
        (firstRun _ next) = (.ok nodes, after) ∧
      (dispatch (RuleType.instances (pipeline "" [.uppercaseIdentifier, .deleteIdentifier]).rules)
        depth root).run (firstRun _ next) = (.ok nodesFirst, afterFirst) ∧
      (dispatch (RuleType.instances (pipeline "" [.deleteIdentifier, .uppercaseIdentifier]).rules)
        depth root).run (firstRun _ next) = (.ok nodesLast, afterLast) ∧
      Tree.Coincide root nodes nodesFirst ∧ Tree.Coincide root nodes nodesLast ∧
      afterFirst.statistics.dispatched = 4 ∧ afterFirst.statistics.deleted = 2 ∧
      (afterFirst.statistics.counts "::DeleteIdentifier").matched = 2 ∧
      (afterFirst.statistics.counts "::RenameIdentifier").matched = 2 ∧
      (afterLast.statistics.counts "::RenameIdentifier").matched = 0 := by
  intro root next depth
  have hbuilt : ∀ node ∈ root.preorder, node.id < next := by decide +kernel
  obtain ⟨⟨nodes, after, nodesFirst, afterFirst, nodesLast, afterLast, halone, hfirst, hlast,
    hcoincideFirst, hcoincideLast, hmatchedFirst, hmatchedLast⟩, -⟩ :=
    @dispatch_absorbs _ _ _ _ _ _ (deleteIdentifier_absorbs "") root depth le_rfl
      (firstRun [.deleteIdentifier] next) (firstRun [.uppercaseIdentifier, .deleteIdentifier] next)
      (firstRun [.deleteIdentifier, .uppercaseIdentifier] next) hbuilt hbuilt hbuilt
  refine ⟨nodes, after, nodesFirst, afterFirst, nodesLast, afterLast, halone.run_eq, hfirst.run_eq,
    hlast.run_eq, hcoincideFirst, hcoincideLast, ?_, ?_, ?_, ?_, ?_⟩
  · exact hfirst.advances.dispatched_eq.trans (by decide +kernel)
  · exact hfirst.advances.deleted_eq.trans (by decide +kernel)
  · exact hfirst.matched_eq.trans (by decide +kernel)
  · exact hmatchedFirst.trans (by decide +kernel)
  · exact hmatchedLast.trans (by decide +kernel)

end Sample

end Catalogue

end TreeRules
