import TreeRules.Pipeline
import TreeRules.Proofs.CallOrder
import TreeRules.Proofs.Tracking

/-!
# Deeds

A pipeline is made to write down all that it does with foreign code: when it prepares the context for
a unit, when it makes an instance of a rule, and how it calls the instances. That changes nothing
else.
-/

namespace TreeRules

variable {γ ε N S : Type}

/-- Foreign code that was run: the preparation for a unit, or the making or a call of an instance of
the rule at some place of the list. -/
inductive Deed (S ε N : Type) where
  | begun (services : S) (root : N)
  | made (place : Nat)
  | called (call : Call ε N)

/-- The same contexts, with a log of the preparations. -/
def ContextType.logged (type : ContextType γ ε N) :
    ContextType (γ × List (Deed type.Services ε N)) ε N where
  name := type.name
  Program := type.Program
  Services := type.Services
  create program configuration :=
    (type.create program configuration).map fun context => (context, [])
  beginUnit services root := fun state =>
    let begun := (type.beginUnit services root).run state.1
    (begun.1, begun.2, state.2 ++ [.begun services root])

theorem ContextType.run_beginUnit_logged (type : ContextType γ ε N) (services : type.Services)
    (root : N) (context : γ) (log : List (Deed type.Services ε N)) :
    (type.logged.beginUnit services root).run (context, log) =
      (((type.beginUnit services root).run context).1,
        ((type.beginUnit services root).run context).2, log ++ [.begun services root]) := rfl

namespace RuleType

/-- The context and the memory with an empty log of calls, which goes to the end of the log. -/
def callPart {M : Type} :
    Part ((γ × List (Deed S ε N)) × M) ((γ × M) × List (Call ε N)) where
  get whole := ((whole.1.1, whole.2), [])
  set part whole := ((part.1.1, whole.1.2 ++ part.2.map .called), part.1.2)

/-- The rule type at the given place, with a log of the making and the calls. -/
def logged (place : Nat) (type : RuleType γ ε N) : RuleType (γ × List (Deed S ε N)) ε N where
  name := type.name
  Memory := type.Memory
  fresh := fun state =>
    let made := type.fresh.run state.1
    (made.1, made.2, state.2 ++ [.made place])
  wants node := callPart.zoom ((type.rule.logged place).wants node)
  visit node := callPart.zoomRule ((type.rule.logged place).visit node)

/-- All rule types with one log, the first one at the given place. -/
def loggedAll (first : Nat) : List (RuleType γ ε N) → List (RuleType (γ × List (Deed S ε N)) ε N)
  | [] => []
  | type :: types => type.logged first :: loggedAll (first + 1) types

theorem exists_of_mem_loggedAll {first : Nat} {types : List (RuleType γ ε N)}
    {type : RuleType (γ × List (Deed S ε N)) ε N} (h : type ∈ loggedAll first types) :
    ∃ (index : Nat) (original : RuleType γ ε N), types[index]? = some original ∧
      type = original.logged (first + index) := by
  induction types generalizing first with
  | nil => cases h
  | cons head types ih =>
      rcases List.mem_cons.mp h with rfl | hmem
      · exact ⟨0, head, rfl, rfl⟩
      · obtain ⟨index, original, horiginal, rfl⟩ := ih hmem
        exact ⟨index + 1, original, horiginal, by rw [Nat.add_right_comm, Nat.add_assoc]⟩

/-- The instances remember the same, with and without the log. -/
def SameMemories : (first : Nat) → (types : List (RuleType γ ε N)) →
    Memories (loggedAll (S := S) first types) → Memories types → Prop
  | _, [], _, _ => True
  | first, _ :: types, memories, memories' =>
    memories.1 = memories'.1 ∧ SameMemories (first + 1) types memories.2 memories'.2

theorem run_freshAll_loggedAll (first : Nat) (types : List (RuleType γ ε N)) (context : γ)
    (log : List (Deed S ε N)) :
    let made := (freshAll (loggedAll first types)).run (context, log)
    let made' := (freshAll types).run context
    SameMemories first types made.1 made'.1 ∧
      made.2 = (made'.2, log ++ (List.range' first types.length).map .made) := by
  induction types generalizing first context log with
  | nil => exact ⟨trivial, Prod.ext rfl (List.append_nil log).symm⟩
  | cons type types ih =>
      obtain ⟨hmemories, hstate⟩ :=
        ih (first + 1) (type.fresh.run context).2 (log ++ [.made first])
      refine ⟨⟨rfl, hmemories⟩, hstate.trans ?_⟩
      rw [List.append_assoc]
      rfl

/-- The same state up to a log, to which only calls were added. -/
def Calls {M M' : Type} (same : M → M' → Prop) (log : List (Deed S ε N))
    (state : (γ × List (Deed S ε N)) × M) (state' : γ × M') : Prop :=
  state.1.1 = state'.1 ∧ same state.2 state'.2 ∧
    ∃ calls : List (Call ε N), state.1.2 = log ++ calls.map .called

theorem calls_append {log before : List (Deed S ε N)} {calls more : List (Call ε N)}
    (h : before = log ++ calls.map .called) :
    ∃ calls : List (Call ε N), before ++ more.map .called = log ++ calls.map .called :=
  ⟨calls ++ more, by rw [h, List.map_append, List.append_assoc]⟩

theorem logged_tracks (place : Nat) (type : RuleType γ ε N) (log : List (Deed S ε N)) :
    (type.logged place).rule.Tracks (Calls Eq log) type.rule where
  name := rfl
  wants node := by
    rintro ⟨⟨context, before⟩, memory⟩ ⟨_, _⟩ ⟨rfl, rfl, calls, hlog⟩
    exact ⟨rfl, rfl, rfl, calls_append hlog⟩
  visit node := by
    rintro ⟨⟨context, before⟩, memory⟩ ⟨_, _⟩ supply ⟨rfl, rfl, calls, hlog⟩
    exact ⟨rfl, rfl, rfl, rfl, calls_append hlog⟩

theorem instances_loggedAll_track (first : Nat) (types : List (RuleType γ ε N))
    (log : List (Deed S ε N)) :
    List.Forall₂ (Rule.Tracks (Calls (SameMemories first types) log))
      (instances (loggedAll first types)) (instances types) := by
  induction types generalizing first with
  | nil => exact .nil
  | cons type types ih =>
      refine .cons ?_ ?_
      · refine (type.logged_tracks first log).on ?_ ?_
        · rintro _ _ ⟨hcontext, hmemories, hlog⟩
          exact ⟨hcontext, hmemories.1, hlog⟩
        · rintro _ _ _ _ ⟨hcontext, hmemory, hlog⟩ ⟨_, hmemories, _⟩
          exact ⟨hcontext, ⟨hmemory, hmemories.2⟩, hlog⟩
      · refine List.forall₂_map_left_iff.mpr (List.forall₂_map_right_iff.mpr ?_)
        refine (ih (first + 1)).imp fun rule rule' h => h.on ?_ ?_
        · rintro _ _ ⟨hcontext, hmemories, hlog⟩
          exact ⟨hcontext, hmemories.2, hlog⟩
        · rintro _ _ _ _ ⟨hcontext, hmemory, hlog⟩ ⟨_, hmemories, _⟩
          exact ⟨hcontext, ⟨hmemories.1, hmemory⟩, hlog⟩

end RuleType

end TreeRules
