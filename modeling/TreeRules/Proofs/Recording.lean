import TreeRules.Proofs.Reporting

/-!
# Recording

A name gets its entry in the table of counts when it first comes up, and a visit moves up to three
counters. Still nothing of the order is left in the end. The entries stand by their names, so tables
with the same look-ups are the same table, and every counter is a tally of the events. Events leave
the same statistics exactly when they agree in every tally.
-/

namespace TreeRules

open Dispatch

namespace CountTable

theorem findEntry_eq_some_iff {name : String} {counts : RuleCounts} {entries : Entries}
    (sorted : (entries.map Prod.fst).Pairwise (· < ·)) :
    findEntry name entries = some counts ↔ (name, counts) ∈ entries := by
  induction entries with
  | nil => simp [findEntry]
  | cons entry rest ih =>
      obtain ⟨key, first⟩ := entry
      rw [List.map_cons, List.pairwise_cons] at sorted
      by_cases hname : name = key
      -- The keys increase, so the rest has no second entry for the name.
      · have habsent : (name, counts) ∉ rest := fun hmem =>
          String.lt_irrefl key (sorted.1 key (hname ▸ List.mem_map_of_mem hmem))
        simp [findEntry, hname, hname ▸ habsent, eq_comm]
      · simp [findEntry, hname, ih sorted.2]

/-- Tables that give the same counts under every name are the same. -/
theorem eq_of_get?_eq {left right : CountTable} (h : ∀ name, left.get? name = right.get? name) :
    left = right := by
  have hleft := List.pairwise_map.mp left.sorted
  have hright := List.pairwise_map.mp right.sorted
  have hmem : ∀ entry, entry ∈ left.entries ↔ entry ∈ right.entries := by
    rintro ⟨name, counts⟩
    rw [← findEntry_eq_some_iff left.sorted, ← findEntry_eq_some_iff right.sorted]
    exact iff_of_eq (congrArg (· = some counts) (h name))
  have hperm : left.entries.Perm right.entries :=
    (List.perm_ext_iff_of_nodup left.sorted.nodup.of_map right.sorted.nodup.of_map).mpr hmem
  have hentries : left.entries = right.entries :=
    hperm.eq_of_pairwise (fun _ _ _ _ hbefore hafter =>
      absurd (String.lt_trans hbefore hafter) (String.lt_irrefl _)) hleft hright
  obtain ⟨entries, sorted⟩ := left
  obtain rfl : entries = right.entries := hentries
  rfl

end CountTable

theorem RuleCounts.eq_iff {counts counts' : RuleCounts} :
    counts = counts' ↔ counts.offered = counts'.offered ∧ counts.matched = counts'.matched ∧
      counts.emitted = counts'.emitted := by
  cases counts
  cases counts'
  exact iff_of_eq (RuleCounts.mk.injEq ..)

/-- The name under which the event is counted, if it is counted for a rule. -/
def Dispatch.Event.rule? : Event → Option String
  | dispatched => none
  | offered rule | replaced rule _ => some rule

namespace Statistics

/-- Statistics are the same if their counters and all their look-ups are. -/
theorem eq_iff {statistics statistics' : Statistics} :
    statistics = statistics' ↔
      statistics.dispatched = statistics'.dispatched ∧ statistics.deleted = statistics'.deleted ∧
        statistics.inserted = statistics'.inserted ∧
          ∀ name, statistics.rule? name = statistics'.rule? name := by
  constructor
  · rintro rfl
    exact ⟨rfl, rfl, rfl, fun _ => rfl⟩
  · rintro ⟨hdispatched, hdeleted, hinserted, hrules⟩
    obtain ⟨dispatched, deleted, inserted, rules⟩ := statistics
    obtain rfl : dispatched = statistics'.dispatched := hdispatched
    obtain rfl : deleted = statistics'.deleted := hdeleted
    obtain rfl : inserted = statistics'.inserted := hinserted
    obtain rfl : rules = statistics'.rules := CountTable.eq_of_get?_eq hrules
    rfl

/-- A look-up tells whether there is an entry, and the counts. -/
theorem rule?_eq_rule?_iff {statistics statistics' : Statistics} {name : String} :
    statistics.rule? name = statistics'.rule? name ↔
      ((statistics.rule? name).isSome ↔ (statistics'.rule? name).isSome) ∧
        statistics.counts name = statistics'.counts name := by
  unfold counts
  rcases statistics.rule? name with _ | counts <;> rcases statistics'.rule? name with _ | counts' <;>
    simp

/-- The number of returned nodes, over all rules. -/
def totalEmitted (statistics : Statistics) : Nat :=
  total (statistics.rules.entries.map fun entry => entry.2.emitted)

section Record

variable (statistics : Statistics) (rule : String) (emitted : Nat)

theorem totalEmitted_recordOffer :
    (statistics.recordOffer rule).totalEmitted = statistics.totalEmitted := by
  have hemitted : ∀ counts : RuleCounts, counts.addOffer.emitted = counts.emitted + 0 :=
    fun _ => rfl
  exact CountTable.total_bump rfl hemitted statistics.rules rule

theorem totalEmitted_recordVisit :
    (statistics.recordVisit rule emitted).totalEmitted = statistics.totalEmitted + emitted := by
  have hemitted : ∀ counts : RuleCounts,
      (counts.addVisit emitted).emitted = counts.emitted + emitted := fun _ => rfl
  exact CountTable.total_bump rfl hemitted statistics.rules rule

theorem isSome_rule?_record (event : Event) (name : String) :
    ((Event.record statistics event).rule? name).isSome ↔
      (statistics.rule? name).isSome ∨ event.rule? = some name := by
  cases event with
  | dispatched => simp [Event.record, recordDispatch, rule?, Event.rule?]
  | offered rule | replaced rule emitted =>
      simp only [Event.record, recordOffer, recordVisit, rule?, CountTable.get?_bump, Event.rule?]
      by_cases hname : name = rule
      · simp [hname]
      · simp [hname, Ne.symm hname]

end Record

theorem isSome_rule?_foldl_record (statistics : Statistics) (events : List Event) (name : String) :
    ((events.foldl Event.record statistics).rule? name).isSome ↔
      (statistics.rule? name).isSome ∨ ∃ event ∈ events, event.rule? = some name := by
  induction events generalizing statistics with
  | nil => simp
  | cons event events ih =>
      rw [List.foldl_cons, ih, isSome_rule?_record, List.exists_mem_cons_iff, or_assoc]

/-- A visit that returns no node is made up for by a deletion, and one that returns several by as
many insertions as there are nodes beyond the first. -/
def EvensOut (statistics : Statistics) : Prop :=
  statistics.totalEmitted + statistics.deleted = statistics.totalMatches + statistics.inserted

namespace EvensOut

variable {statistics : Statistics}

theorem record (h : statistics.EvensOut) (event : Event) :
    (Event.record statistics event).EvensOut := by
  unfold EvensOut at h ⊢
  cases event with
  | dispatched => exact h
  | offered rule =>
      rw [Event.record, totalEmitted_recordOffer, totalMatches_recordOffer]
      exact h
  | replaced rule emitted =>
      have hdeleted : (statistics.recordVisit rule emitted).deleted =
          statistics.deleted + (if emitted = 0 then 1 else 0) := rfl
      have hinserted : (statistics.recordVisit rule emitted).inserted =
          statistics.inserted + (emitted - 1) := rfl
      rw [Event.record, totalEmitted_recordVisit, totalMatches_recordVisit, hdeleted, hinserted]
      split <;> omega

theorem foldl_record (h : statistics.EvensOut) (events : List Event) :
    (events.foldl Event.record statistics).EvensOut := by
  induction events generalizing statistics with
  | nil => exact h
  | cons event events ih => exact ih (h.record event)

end EvensOut

/-- The statistics after the events, from the start of a run. -/
def recorded (events : List Event) : Statistics := events.foldl Event.record .empty

/-- The statistics say of the events what counting the events gives. -/
structure Tallies (statistics : Statistics) (events : List Event) : Prop
    extends statistics.SumsUp (events.filterMap Event.report?) where
  dispatched : statistics.dispatched = events.count .dispatched
  offered : ∀ name, (statistics.counts name).offered = events.count (.offered name)
  named : ∀ name, (statistics.rule? name).isSome ↔ ∃ event ∈ events, event.rule? = some name

end Statistics

namespace Dispatch.Event

theorem sum_dispatches (events : List Event) :
    (events.map dispatches).sum = events.count .dispatched := by
  have hothers : ∀ event, event ≠ .dispatched → event ∈ events → dispatches event = 0 := by
    rintro (_ | _ | _) hother -
    · exact absurd rfl hother
    · rfl
    · rfl
  rw [List.sum_map_eq_nsmul_single .dispatched dispatches hothers, dispatches, smul_eq_mul,
    Nat.mul_one]

theorem sum_offers (name : String) (events : List Event) :
    (events.map (offers name)).sum = events.count (.offered name) := by
  have hothers : ∀ event, event ≠ .offered name → event ∈ events → offers name event = 0 := by
    rintro (_ | rule | _) hother -
    · rfl
    · exact if_neg fun hname => hother (congrArg offered hname.symm)
    · rfl
  rw [List.sum_map_eq_nsmul_single (.offered name) (offers name) hothers, offers, if_pos rfl,
    smul_eq_mul, Nat.mul_one]

/-- The events agree in every tally: in the dispatches, the visits that returned nothing, the nodes
beyond the first of those that returned several, and for every name in whether it came up, the
questions, the visits and the returned nodes. -/
structure SameTallies (events events' : List Event) : Prop where
  dispatches : events.count .dispatched = events'.count .dispatched
  deletions : Report.deletions (events.filterMap report?) =
    Report.deletions (events'.filterMap report?)
  insertions : Report.insertions (events.filterMap report?) =
    Report.insertions (events'.filterMap report?)
  named : ∀ name, (∃ event ∈ events, event.rule? = some name) ↔
    ∃ event ∈ events', event.rule? = some name
  offers : ∀ name, events.count (.offered name) = events'.count (.offered name)
  visits : ∀ name, Report.visits (events.filterMap report?) name =
    Report.visits (events'.filterMap report?) name
  emissions : ∀ name, Report.emissions (events.filterMap report?) name =
    Report.emissions (events'.filterMap report?) name

theorem SameTallies.of_perm {events events' : List Event} (h : events.Perm events') :
    SameTallies events events' where
  dispatches := h.count_eq _
  deletions := (h.filterMap report?).countP_eq _
  insertions := (((h.filterMap report?).filter _).map _).sum_eq
  named name := by simp only [h.mem_iff]
  offers name := h.count_eq _
  visits name := (h.filterMap report?).countP_eq _
  emissions name := (((h.filterMap report?).filter _).map _).sum_eq

end Dispatch.Event

namespace Statistics

theorem tallies_recorded (events : List Event) : (recorded events).Tallies events where
  toSumsUp := SumsUp.empty.foldl_record events
  dispatched := by
    rw [recorded, (tallied_foldl .empty events).dispatched, Event.sum_dispatches]
    exact Nat.zero_add _
  offered name := by
    rw [recorded, (tallied_foldl .empty events).offered, Event.sum_offers]
    exact Nat.zero_add _
  named name := by
    have hempty : (empty.rule? name).isSome = false := rfl
    rw [recorded, isSome_rule?_foldl_record, hempty]
    simp

/-- Statistics that tally are the same exactly when the tallies are. -/
theorem Tallies.eq_iff {statistics statistics' : Statistics} {events events' : List Event}
    (h : statistics.Tallies events) (h' : statistics'.Tallies events') :
    statistics = statistics' ↔ Event.SameTallies events events' := by
  constructor
  · rintro rfl
    exact {
      dispatches := h.dispatched.symm.trans h'.dispatched
      deletions := h.deleted.symm.trans h'.deleted
      insertions := h.inserted.symm.trans h'.inserted
      named := fun name => (h.named name).symm.trans (h'.named name)
      offers := fun name => (h.offered name).symm.trans (h'.offered name)
      visits := fun name => (h.matched name).symm.trans (h'.matched name)
      emissions := fun name => (h.emitted name).symm.trans (h'.emitted name) }
  · intro hsame
    refine Statistics.eq_iff.mpr ⟨?_, ?_, ?_, fun name => ?_⟩
    · rw [h.dispatched, h'.dispatched, hsame.dispatches]
    · rw [h.deleted, h'.deleted, hsame.deletions]
    · rw [h.inserted, h'.inserted, hsame.insertions]
    · have hcounts : statistics.counts name = statistics'.counts name := by
        refine RuleCounts.eq_iff.mpr ⟨?_, ?_, ?_⟩
        · rw [h.offered, h'.offered, hsame.offers]
        · rw [h.matched, h'.matched, hsame.visits]
        · rw [h.emitted, h'.emitted, hsame.emissions]
      refine rule?_eq_rule?_iff.mpr ⟨?_, hcounts⟩
      rw [h.named, h'.named]
      exact hsame.named name

/-- **Statistics depend on what was recorded, and not on when.** The order of the events makes no
difference. A name has an entry if it came up, the matches are the visits, and the returned nodes
and the deletions make up for the visits and the insertions. Events leave the same statistics
exactly when they agree in every tally. -/
theorem recorded_in_any_order (events : List Event) :
    let statistics := recorded events
    (∀ shuffled, events.Perm shuffled → recorded shuffled = statistics) ∧
    (∀ name, (statistics.rule? name).isSome ↔ ∃ event ∈ events, event.rule? = some name) ∧
    statistics.totalMatches = (events.filterMap Event.report?).length ∧
    statistics.totalEmitted + statistics.deleted =
      statistics.totalMatches + statistics.inserted ∧
    ∀ events', statistics = recorded events' ↔ Event.SameTallies events events' := by
  intro statistics
  have htallies : statistics.Tallies events := tallies_recorded events
  have hiff : ∀ events', statistics = recorded events' ↔ Event.SameTallies events events' :=
    fun events' => htallies.eq_iff (tallies_recorded events')
  have hempty : empty.EvensOut := rfl
  refine ⟨fun shuffled hperm => ?_, htallies.named, htallies.totalMatches,
    hempty.foldl_record events, hiff⟩
  exact ((hiff shuffled).mpr (.of_perm hperm)).symm

def triplingAndDeleting : List Event :=
  [.dispatched, .offered "triple", .replaced "triple" 3, .dispatched, .offered "triple",
    .offered "delete", .replaced "delete" 0, .offered "delete"]

/-- Recorded backwards, the events of a rule that triples and of one that deletes leave the same
statistics. -/
theorem recorded_in_any_order_backwards :
    let statistics := recorded triplingAndDeleting
    triplingAndDeleting.Perm triplingAndDeleting.reverse ∧
    recorded triplingAndDeleting.reverse = statistics ∧
    (statistics.rule? "delete").isSome ∧ statistics.totalMatches = 2 ∧
    statistics.totalEmitted + statistics.deleted = 2 + statistics.inserted := by
  obtain ⟨hany, hnamed, hmatches, hevens, -⟩ := recorded_in_any_order triplingAndDeleting
  have hperm : triplingAndDeleting.Perm triplingAndDeleting.reverse :=
    (List.reverse_perm triplingAndDeleting).symm
  have hdelete : ∃ event ∈ triplingAndDeleting, event.rule? = some "delete" :=
    ⟨.offered "delete", by decide, rfl⟩
  rw [hmatches] at hevens
  exact ⟨hperm, hany _ hperm, (hnamed "delete").mpr hdelete, hmatches, hevens⟩

/-- The sizes of single visits are not kept. -/
example : recorded [.replaced "rule" 2, .replaced "rule" 4] =
    recorded [.replaced "rule" 3, .replaced "rule" 3] := by decide

end Statistics

end TreeRules
