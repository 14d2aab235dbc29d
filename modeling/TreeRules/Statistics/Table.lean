import TreeRules.Total

/-!
Counts per rule, kept under the rules' names. The entries stand in increasing order of the names,
so two tables are equal exactly when they hold the same counts under the same names, whatever the
order in which they were filled.
-/

namespace TreeRules

/-- How often a rule was offered a node, how often it took one, and how many nodes it returned. -/
structure RuleCounts where
  offered : Nat := 0
  matched : Nat := 0
  emitted : Nat := 0
deriving DecidableEq, Repr

namespace RuleCounts

def addOffer (counts : RuleCounts) : RuleCounts :=
  { counts with offered := counts.offered + 1 }

def addVisit (emitted : Nat) (counts : RuleCounts) : RuleCounts :=
  { counts with matched := counts.matched + 1, emitted := counts.emitted + emitted }

end RuleCounts

namespace CountTable

abbrev Entries := List (String × RuleCounts)

/-- Changes the counts under `name`, which start from zero. -/
def bumpEntries (name : String) (change : RuleCounts → RuleCounts) : Entries → Entries
  | [] => [(name, change {})]
  | (key, counts) :: rest =>
    if name < key then (name, change {}) :: (key, counts) :: rest
    else if name = key then (key, change counts) :: rest
    else (key, counts) :: bumpEntries name change rest

def findEntry (name : String) : Entries → Option RuleCounts
  | [] => none
  | (key, counts) :: rest => if name = key then some counts else findEntry name rest

theorem findEntry_eq_none {name : String} {entries : Entries}
    (absent : name ∉ entries.map Prod.fst) : findEntry name entries = none := by
  induction entries with
  | nil => rfl
  | cons entry rest ih =>
    simp only [List.map_cons, List.mem_cons, not_or] at absent
    simp [findEntry, absent.1, ih absent.2]

theorem mem_keys_bumpEntries (name : String) (change : RuleCounts → RuleCounts)
    (entries : Entries) (key : String) :
    key ∈ (bumpEntries name change entries).map Prod.fst ↔
      key = name ∨ key ∈ entries.map Prod.fst := by
  induction entries with
  | nil => simp [bumpEntries]
  | cons entry rest ih =>
    obtain ⟨first, counts⟩ := entry
    simp only [bumpEntries]
    split
    · simp
    · split
      · rename_i same
        simp [same]
      · simp only [List.map_cons, List.mem_cons, ih]
        exact or_left_comm

theorem sorted_nil : (([] : Entries).map Prod.fst).Pairwise (· < ·) := List.Pairwise.nil

theorem sorted_bumpEntries (name : String) (change : RuleCounts → RuleCounts) {entries : Entries}
    (sorted : (entries.map Prod.fst).Pairwise (· < ·)) :
    ((bumpEntries name change entries).map Prod.fst).Pairwise (· < ·) := by
  induction entries with
  | nil => simp [bumpEntries]
  | cons entry rest ih =>
    obtain ⟨first, counts⟩ := entry
    simp only [List.map_cons, List.pairwise_cons] at sorted
    simp only [bumpEntries]
    split
    · rename_i before
      simp only [List.map_cons, List.pairwise_cons, List.mem_cons]
      refine ⟨?_, sorted⟩
      rintro key (rfl | later)
      · exact before
      · exact String.lt_trans before (sorted.1 key later)
    · split
      · simpa using sorted
      · rename_i notBefore differ
        have after : first < name := by
          rcases Std.lt_trichotomy name first with before | same | after
          · exact absurd before notBefore
          · exact absurd same differ
          · exact after
        simp only [List.map_cons, List.pairwise_cons]
        refine ⟨fun key member => ?_, ih sorted.2⟩
        rcases (mem_keys_bumpEntries name change rest key).1 member with rfl | later
        · exact after
        · exact sorted.1 key later

end CountTable

/-- The counts of all rules that were recorded so far, in increasing order of the names. -/
structure CountTable where
  entries : CountTable.Entries := []
  sorted : (entries.map Prod.fst).Pairwise (· < ·) := by exact CountTable.sorted_nil
deriving DecidableEq

namespace CountTable

def bump (table : CountTable) (name : String) (change : RuleCounts → RuleCounts) : CountTable :=
  ⟨bumpEntries name change table.entries, sorted_bumpEntries name change table.sorted⟩

def get? (table : CountTable) (name : String) : Option RuleCounts :=
  findEntry name table.entries

theorem findEntry_bumpEntries (name : String) (change : RuleCounts → RuleCounts)
    {entries : Entries} (sorted : (entries.map Prod.fst).Pairwise (· < ·)) (key : String) :
    findEntry key (bumpEntries name change entries) =
      if key = name then some (change ((findEntry name entries).getD {}))
      else findEntry key entries := by
  induction entries with
  | nil => by_cases same : key = name <;> simp [bumpEntries, findEntry, same]
  | cons entry rest ih =>
    obtain ⟨first, counts⟩ := entry
    simp only [List.map_cons, List.pairwise_cons] at sorted
    simp only [bumpEntries]
    split
    · rename_i before
      have differ : name ≠ first := fun same => String.lt_irrefl _ (same ▸ before)
      have absent : findEntry name rest = none := findEntry_eq_none fun member =>
        String.lt_irrefl _ (String.lt_trans before (sorted.1 name member))
      by_cases same : key = name <;> simp [findEntry, same, differ, absent]
    · split
      · rename_i same
        subst same
        by_cases same : key = name <;> simp [findEntry, same]
      · rename_i notBefore differ
        by_cases same : key = first
        · subst same
          simp [findEntry, Ne.symm differ]
        · simp [findEntry, same, differ, ih sorted.2]

theorem get?_bump (table : CountTable) (name key : String) (change : RuleCounts → RuleCounts) :
    (table.bump name change).get? key =
      if key = name then some (change ((table.get? name).getD {})) else table.get? key :=
  findEntry_bumpEntries name change table.sorted key

def totalMatched (table : CountTable) : Nat :=
  total (table.entries.map fun entry => entry.2.matched)

end CountTable

end TreeRules
