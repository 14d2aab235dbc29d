import Mathlib
import TreeRules.Proofs.Execution

/-!
# Bookkeeping

What the counters say of a trace. Every event adds its part to each of them. The offers of one rule
are read off the dispatches in order, and what they leave is what the next rule is offered; when no
other rule has its name, the rule's counts are those of its offers.
-/

namespace TreeRules

theorem total_eq_sum (values : List Nat) : total values = values.sum := by
  induction values with
  | nil => rfl
  | cons value values ih => rw [total_cons, ih, List.sum_cons]

theorem sum_map_flatMap {α β : Type} (items : List α) (f : α → List β) (g : β → Nat) :
    ((items.flatMap f).map g).sum = (items.map fun item => ((f item).map g).sum).sum := by
  induction items with
  | nil => rfl
  | cons item items ih => simp [ih]

theorem sum_map_flatMap_eq_zero {α β : Type} {items : List α} {f : α → List β} {g : β → Nat}
    (h : ∀ item ∈ items, ((f item).map g).sum = 0) : ((items.flatMap f).map g).sum = 0 := by
  rw [sum_map_flatMap]
  refine List.sum_eq_zero fun value hvalue => ?_
  obtain ⟨item, hitem, rfl⟩ := List.mem_map.mp hvalue
  exact h item hitem

theorem sum_map_add_eq {α : Type} {items : List α} {f g f' g' : α → Nat}
    (h : ∀ item ∈ items, f item + g item = f' item + g' item) :
    (items.map f).sum + (items.map g).sum = (items.map f').sum + (items.map g').sum := by
  rw [← List.sum_map_add, ← List.sum_map_add, List.map_congr_left h]

/-- A sum over the table moves as the counts that are changed. -/
theorem CountTable.total_bump {part : RuleCounts → Nat} {change : RuleCounts → RuleCounts}
    {moved : Nat} (hzero : part {} = 0) (h : ∀ counts, part (change counts) = part counts + moved)
    (table : CountTable) (name : String) :
    total ((table.bump name change).entries.map fun entry => part entry.2) =
      total (table.entries.map fun entry => part entry.2) + moved := by
  obtain ⟨entries, sorted⟩ := table
  change total ((bumpEntries name change entries).map fun entry => part entry.2) =
    total (entries.map fun entry => part entry.2) + moved
  clear sorted
  have hnew : part (change {}) = moved := by rw [h, hzero, Nat.zero_add]
  induction entries with
  | nil =>
      rw [bumpEntries, List.map_singleton, total_cons, hnew]
      exact Nat.add_comm _ _
  | cons entry rest ih =>
      obtain ⟨key, counts⟩ := entry
      rw [bumpEntries]
      split
      · rw [List.map_cons, total_cons, hnew]
        exact Nat.add_comm _ _
      · split
        · rw [List.map_cons, List.map_cons, total_cons, total_cons, h]
          exact Nat.add_right_comm _ _ _
        · rw [List.map_cons, List.map_cons, total_cons, total_cons, ih, Nat.add_assoc]

namespace Statistics

/-- The counts of the rule `name`; they are zero if it was never recorded. -/
def counts (statistics : Statistics) (name : String) : RuleCounts :=
  (statistics.rule? name).getD {}

theorem totalMatches_recordOffer (statistics : Statistics) (name : String) :
    (statistics.recordOffer name).totalMatches = statistics.totalMatches := by
  have hmatched : ∀ counts : RuleCounts, counts.addOffer.matched = counts.matched + 0 :=
    fun _ => rfl
  exact CountTable.total_bump rfl hmatched statistics.rules name

theorem counts_recordOffer (statistics : Statistics) (rule name : String) :
    (statistics.recordOffer rule).counts name =
      if name = rule then (statistics.counts name).addOffer else statistics.counts name := by
  rw [counts, rule?, recordOffer, CountTable.get?_bump]
  by_cases hname : name = rule
  · rw [if_pos hname, if_pos hname, hname]
    rfl
  · rw [if_neg hname, if_neg hname]
    rfl

theorem counts_recordVisit (statistics : Statistics) (rule name : String) (emitted : Nat) :
    (statistics.recordVisit rule emitted).counts name =
      if name = rule then (statistics.counts name).addVisit emitted
        else statistics.counts name := by
  rw [counts, rule?, recordVisit, CountTable.get?_bump]
  by_cases hname : name = rule
  · rw [if_pos hname, if_pos hname, hname]
    rfl
  · rw [if_neg hname, if_neg hname]
    rfl

end Statistics

namespace Dispatch

variable {σ ε N : Type}

namespace Event

def dispatches : Event → Nat
  | dispatched => 1
  | _ => 0

def deletions : Event → Nat
  | replaced _ emitted => if emitted = 0 then 1 else 0
  | _ => 0

def insertions : Event → Nat
  | replaced _ emitted => emitted - 1
  | _ => 0

def offers (name : String) : Event → Nat
  | offered rule => if name = rule then 1 else 0
  | _ => 0

def visits (name : String) : Event → Nat
  | replaced rule _ => if name = rule then 1 else 0
  | _ => 0

def emissions (name : String) : Event → Nat
  | replaced rule emitted => if name = rule then emitted else 0
  | _ => 0

theorem foldl_record_eq (counter : Statistics → Nat) (part : Event → Nat)
    (hrecord : ∀ statistics event,
      counter (record statistics event) = counter statistics + part event)
    (events : List Event) (statistics : Statistics) :
    counter (events.foldl record statistics) = counter statistics + (events.map part).sum := by
  induction events generalizing statistics with
  | nil => rfl
  | cons event events ih =>
      rw [List.foldl_cons, ih, hrecord, List.map_cons, List.sum_cons, Nat.add_assoc]

theorem counts_record (statistics : Statistics) (event : Event) (name : String) :
    (record statistics event).counts name =
      { offered := (statistics.counts name).offered + event.offers name
        matched := (statistics.counts name).matched + event.visits name
        emitted := (statistics.counts name).emitted + event.emissions name } := by
  cases event with
  | dispatched => rfl
  | offered rule =>
      rw [record, Statistics.counts_recordOffer, offers]
      split <;> rfl
  | replaced rule emitted =>
      rw [record, Statistics.counts_recordVisit, visits, emissions]
      split <;> rfl

end Event

/-- What was recorded, seen from the events. -/
structure Tallied (before : Statistics) (events : List Event) (after : Statistics) : Prop where
  dispatched : after.dispatched = before.dispatched + (events.map Event.dispatches).sum
  deleted : after.deleted = before.deleted + (events.map Event.deletions).sum
  inserted : after.inserted = before.inserted + (events.map Event.insertions).sum
  offered : ∀ name, (after.counts name).offered =
    (before.counts name).offered + (events.map (Event.offers name)).sum
  matched : ∀ name, (after.counts name).matched =
    (before.counts name).matched + (events.map (Event.visits name)).sum
  emitted : ∀ name, (after.counts name).emitted =
    (before.counts name).emitted + (events.map (Event.emissions name)).sum

theorem tallied_foldl (statistics : Statistics) (events : List Event) :
    Tallied statistics events (events.foldl Event.record statistics) where
  dispatched := Event.foldl_record_eq Statistics.dispatched Event.dispatches
    (by rintro _ (_ | _ | _) <;> rfl) events statistics
  deleted := Event.foldl_record_eq Statistics.deleted Event.deletions
    (by rintro _ (_ | _ | _) <;> rfl) events statistics
  inserted := Event.foldl_record_eq Statistics.inserted Event.insertions
    (by rintro _ (_ | _ | _) <;> rfl) events statistics
  offered name := Event.foldl_record_eq (fun statistics => (statistics.counts name).offered)
    (Event.offers name) (fun _ _ => congrArg RuleCounts.offered (Event.counts_record _ _ _)) events
    statistics
  matched name := Event.foldl_record_eq (fun statistics => (statistics.counts name).matched)
    (Event.visits name) (fun _ _ => congrArg RuleCounts.matched (Event.counts_record _ _ _)) events
    statistics
  emitted name := Event.foldl_record_eq (fun statistics => (statistics.counts name).emitted)
    (Event.emissions name) (fun _ _ => congrArg RuleCounts.emitted (Event.counts_record _ _ _))
    events statistics

namespace Offer

/-- An offer leaves the node, unless it was deleted, and the nodes that were inserted. -/
theorem length_nodes_add_deletions (offer : Offer N) (rule : String) :
    offer.nodes.length + ((offer.events rule).map Event.deletions).sum =
      1 + ((offer.events rule).map Event.insertions).sum := by
  obtain ⟨node, _ | emitted⟩ := offer
  · rfl
  · have hlength : emitted.length + (if emitted.length = 0 then 1 else 0) =
        1 + (emitted.length - 1) := by split <;> omega
    simpa only [nodes, events, Option.getD_some, List.map_cons, List.map_nil, List.sum_cons,
      List.sum_nil, Event.deletions, Event.insertions, Nat.zero_add, Nat.add_zero] using hlength

/-- An offer leaves the node, unless the rule took it, and what the rule emitted. -/
theorem length_nodes_add_visits (offer : Offer N) (rule : String) :
    offer.nodes.length + ((offer.events rule).map (Event.visits rule)).sum =
      1 + ((offer.events rule).map (Event.emissions rule)).sum := by
  obtain ⟨node, _ | emitted⟩ := offer
  · rfl
  · simp only [nodes, events, Option.getD_some, List.map_cons, List.map_nil, List.sum_cons,
      List.sum_nil, Event.visits, Event.emissions, if_pos]
    omega

/-- One node for another is neither a deletion nor an insertion. -/
theorem sum_deletions_insertions {offer : Offer N} (hlength : offer.nodes.length = 1)
    (rule : String) : ((offer.events rule).map Event.deletions).sum = 0 ∧
      ((offer.events rule).map Event.insertions).sum = 0 := by
  obtain ⟨node, _ | emitted⟩ := offer
  · exact ⟨rfl, rfl⟩
  · have hlength : emitted.length = 1 := hlength
    simp [events, Event.deletions, Event.insertions, hlength]

theorem sum_offers (offer : Offer N) (rule : String) :
    ((offer.events rule).map (Event.offers rule)).sum = 1 := by
  obtain ⟨node, _ | emitted⟩ := offer <;>
    simp only [events, List.map_cons, List.map_nil, List.sum_cons, List.sum_nil, Event.offers,
      if_pos, Nat.add_zero]

theorem length_flatMap_nodes_add {rule : String} {less more : Event → Nat}
    (h : ∀ offer : Offer N, offer.nodes.length + ((offer.events rule).map less).sum =
      1 + ((offer.events rule).map more).sum) (offers : List (Offer N)) :
    (offers.flatMap nodes).length + ((offers.flatMap (events rule)).map less).sum =
      offers.length + ((offers.flatMap (events rule)).map more).sum := by
  have hsum := sum_map_add_eq fun offer (_ : offer ∈ offers) => h offer
  rw [List.length_flatMap, sum_map_flatMap, sum_map_flatMap, hsum]
  simp

end Offer

namespace Relay

variable {nodes survivors : List N} {rounds : List (List (Offer N))}

theorem eq_of_nil (h : Relay nodes [] survivors) : survivors = nodes := by
  cases h
  rfl

theorem cons_iff {offers : List (Offer N)} : Relay nodes (offers :: rounds) survivors ↔
    offers.map Offer.node = nodes ∧ Relay (offers.flatMap Offer.nodes) rounds survivors := by
  constructor
  · intro h
    cases h with
    | cons hrelay => exact ⟨rfl, hrelay⟩
  · rintro ⟨rfl, hrelay⟩
    exact .cons hrelay

theorem map_node_head (h : Relay nodes rounds survivors) {offers : List (Offer N)}
    (hoffers : rounds[0]? = some offers) : offers.map Offer.node = nodes := by
  cases h with
  | nil => cases hoffers
  | cons _ =>
      obtain rfl := Option.some.inj hoffers
      rfl

theorem map_node_succ (h : Relay nodes rounds survivors) {place : Nat}
    {offers next : List (Offer N)} (hoffers : rounds[place]? = some offers)
    (hnext : rounds[place + 1]? = some next) :
    next.map Offer.node = offers.flatMap Offer.nodes := by
  induction h generalizing place with
  | nil => cases hoffers
  | cons hrelay ih =>
      cases place with
      | zero =>
          obtain rfl := Option.some.inj hoffers
          exact hrelay.map_node_head hnext
      | succ place => exact ih hoffers hnext

theorem survivors_eq (h : Relay nodes rounds survivors) {place : Nat} {offers : List (Offer N)}
    (hoffers : rounds[place]? = some offers) (hlast : place + 1 = rounds.length) :
    survivors = offers.flatMap Offer.nodes := by
  induction h generalizing place with
  | nil => cases hoffers
  | cons hrelay ih =>
      cases place with
      | zero =>
          obtain rfl := Option.some.inj hoffers
          obtain rfl := List.length_eq_zero_iff.mp (Nat.succ.inj hlast).symm
          exact hrelay.eq_of_nil
      | succ place => exact ih hoffers (Nat.succ.inj hlast)

/-- Along the working list, what the offers leave balances what they were made of. -/
theorem length_survivors_add (h : Relay nodes rounds survivors) {names : List String}
    (hnames : names.length = rounds.length) :
    survivors.length + ((roundEvents names rounds).map Event.deletions).sum =
      nodes.length + ((roundEvents names rounds).map Event.insertions).sum := by
  induction h generalizing names with
  | nil => simp
  | @cons offers rounds survivors _ ih =>
      obtain _ | ⟨name, names⟩ := names
      · cases hnames
      have hrest := ih (Nat.succ.inj hnames)
      have hround := Offer.length_flatMap_nodes_add (Offer.length_nodes_add_deletions · name) offers
      simp only [roundEvents_cons, List.map_append, List.sum_append, List.length_map]
      omega

end Relay

section RoundEvents

variable {part : Event → Nat}

theorem sum_map_roundEvents_eq_zero {names : List String} (rounds : List (List (Offer N)))
    (h : ∀ name ∈ names, ∀ offer : Offer N, ((offer.events name).map part).sum = 0) :
    ((roundEvents names rounds).map part).sum = 0 := by
  refine sum_map_flatMap_eq_zero fun round hround => ?_
  refine sum_map_flatMap_eq_zero fun offer _ => ?_
  exact h round.1 (List.of_mem_zip hround).1 offer

/-- A part that only the events of one name have comes from the round of the rule with that name. -/
theorem sum_map_roundEvents {name : String}
    (hpart : ∀ other ≠ name, ∀ offer : Offer N, ((offer.events other).map part).sum = 0)
    {names : List String} (hnodup : names.Nodup) {place : Nat} (hname : names[place]? = some name)
    {rounds : List (List (Offer N))} {offers : List (Offer N)}
    (hoffers : rounds[place]? = some offers) :
    ((roundEvents names rounds).map part).sum =
      ((offers.flatMap (Offer.events name)).map part).sum := by
  induction names generalizing place rounds with
  | nil => cases hname
  | cons first names ih =>
      obtain ⟨hfirst, hnames⟩ := List.nodup_cons.mp hnodup
      obtain _ | ⟨round, rounds⟩ := rounds
      · cases hoffers
      rw [roundEvents_cons, List.map_append, List.sum_append]
      cases place with
      | zero =>
          obtain rfl := Option.some.inj hname
          obtain rfl := Option.some.inj hoffers
          have hothers : ∀ other ∈ names, other ≠ first := fun other hother =>
            ne_of_mem_of_not_mem hother hfirst
          have hrest := sum_map_roundEvents_eq_zero rounds fun other hother =>
            hpart other (hothers other hother)
          rw [hrest, Nat.add_zero]
      | succ place =>
          have hname : names[place]? = some name := hname
          have hmem : name ∈ names := List.mem_of_getElem? hname
          have hother : first ≠ name := (ne_of_mem_of_not_mem hmem hfirst).symm
          rw [sum_map_flatMap_eq_zero fun offer _ => hpart first hother offer, Nat.zero_add]
          exact ih hnames hname hoffers

end RoundEvents

namespace Offer

variable {name other : String}

theorem sum_dispatches (offer : Offer N) :
    ((offer.events name).map Event.dispatches).sum = 0 := by
  obtain ⟨node, _ | emitted⟩ := offer <;> rfl

theorem sum_offers_of_ne (hother : other ≠ name) (offer : Offer N) :
    ((offer.events other).map (Event.offers name)).sum = 0 := by
  obtain ⟨node, _ | emitted⟩ := offer <;> simp [events, Event.offers, hother.symm]

theorem sum_visits_of_ne (hother : other ≠ name) (offer : Offer N) :
    ((offer.events other).map (Event.visits name)).sum = 0 := by
  obtain ⟨node, _ | emitted⟩ := offer <;> simp [events, Event.visits, hother.symm]

theorem sum_emissions_of_ne (hother : other ≠ name) (offer : Offer N) :
    ((offer.events other).map (Event.emissions name)).sum = 0 := by
  obtain ⟨node, _ | emitted⟩ := offer <;> simp [events, Event.emissions, hother.symm]

end Offer

namespace Trace

/-- The offers that were made to the rule at one place of the list, in the order in which they were
made. -/
def offersOf (place : Nat) (trace : Trace N) : List (Offer N) :=
  trace.dispatches.flatMap fun inner => inner.rounds[place]?.getD []

theorem sum_map_events {part : Event → Nat} (names : List String) (trace : Trace N) :
    ((trace.events names).map part).sum = (trace.dispatches.map fun inner =>
      part .dispatched + ((roundEvents names inner.rounds).map part).sum).sum := by
  rw [events, sum_map_flatMap]
  rfl

/-- A node is dispatched as often as a dispatch is recorded. -/
theorem sum_dispatches (names : List String) (trace : Trace N) :
    ((trace.events names).map Event.dispatches).sum = trace.dispatches.length := by
  rw [sum_map_events]
  simp [Event.dispatches, sum_map_roundEvents_eq_zero _ fun _ _ offer => offer.sum_dispatches]

variable [Host N] {trace : Trace N} {count : Nat}
  (h : ∀ inner ∈ trace.dispatches, inner.Orderly count)

include h

theorem getElem?_rounds {place : Nat} (hplace : place < count) {inner : Trace N}
    (hinner : inner ∈ trace.dispatches) :
    inner.rounds[place]? = some (inner.rounds[place]?.getD []) := by
  have hlength : place < inner.rounds.length := by rw [(h inner hinner).length_rounds]; exact hplace
  rw [List.getElem?_eq_getElem hlength]
  rfl

theorem map_node_offersOf_zero (hcount : 0 < count) :
    (trace.offersOf 0).map Offer.node = trace.dispatches.map Trace.node := by
  rw [offersOf, List.map_flatMap, ← List.flatMap_pure_eq_map]
  refine List.flatMap_congr fun inner hinner => ?_
  exact (h inner hinner).relay.map_node_head (getElem?_rounds h hcount hinner)

/-- Every other rule is offered what the rule before it left. -/
theorem map_node_offersOf_succ {place : Nat} (hplace : place + 1 < count) :
    (trace.offersOf (place + 1)).map Offer.node = (trace.offersOf place).flatMap Offer.nodes := by
  rw [offersOf, offersOf, List.map_flatMap, List.flatMap_assoc]
  refine List.flatMap_congr fun inner hinner => ?_
  exact (h inner hinner).relay.map_node_succ (getElem?_rounds h (Nat.lt_of_succ_lt hplace) hinner)
    (getElem?_rounds h hplace hinner)

theorem flatMap_nodes_offersOf_last {place : Nat} (hplace : place + 1 = count) :
    (trace.offersOf place).flatMap Offer.nodes = trace.dispatches.flatMap Trace.survivors := by
  rw [offersOf, List.flatMap_assoc]
  refine List.flatMap_congr fun inner hinner => ?_
  have hlast : place + 1 = inner.rounds.length := hplace.trans (h inner hinner).length_rounds.symm
  exact ((h inner hinner).relay.survivors_eq
    (getElem?_rounds h (hplace ▸ Nat.lt_succ_self place) hinner) hlast).symm

/-- The survivors of a whole run are the nodes that were dispatched, less the deleted and with the
inserted ones. -/
theorem length_survivors_add {names : List String} (hnames : names.length = count) :
    (trace.dispatches.flatMap Trace.survivors).length +
        ((trace.events names).map Event.deletions).sum =
      trace.dispatches.length + ((trace.events names).map Event.insertions).sum := by
  have hbalance := sum_map_add_eq fun inner hinner =>
    (h inner hinner).relay.length_survivors_add (hnames.trans (h inner hinner).length_rounds.symm)
  rw [List.length_flatMap, sum_map_events, sum_map_events]
  simpa [Event.deletions, Event.insertions] using hbalance

theorem sum_map_events_eq {part : Event → Nat} {name : String} (hdispatched : part .dispatched = 0)
    (hpart : ∀ other ≠ name, ∀ offer : Offer N, ((offer.events other).map part).sum = 0)
    {names : List String} (hnodup : names.Nodup) (hnames : names.length = count) {place : Nat}
    (hname : names[place]? = some name) :
    ((trace.events names).map part).sum =
      (((trace.offersOf place).flatMap (Offer.events name)).map part).sum := by
  have hplace : place < count := hnames ▸ (List.getElem?_eq_some_iff.mp hname).1
  rw [sum_map_events, offersOf, List.flatMap_assoc, sum_map_flatMap]
  congr 1
  refine List.map_congr_left fun inner hinner => ?_
  rw [hdispatched, Nat.zero_add]
  exact sum_map_roundEvents hpart hnodup hname (getElem?_rounds h hplace hinner)

end Trace

namespace Leaves

variable [Host N] {rules : List (Rule σ ε N)} {run after : Run σ} {trace : Trace N}

theorem tallied (h : Leaves rules run trace after) :
    Tallied run.statistics (trace.events (rules.map Rule.name)) after.statistics := by
  rw [h.recorded]
  exact tallied_foldl _ _

theorem dispatched_eq (h : Leaves rules run trace after) :
    after.statistics.dispatched = run.statistics.dispatched + trace.dispatches.length := by
  rw [h.tallied.dispatched, Trace.sum_dispatches]

end Leaves

end Dispatch

end TreeRules
