import TreeRules.RuleType

/-!
# Instances

All instances of a pipeline share the context, and each has a memory of its own among the memories of
all. So what holds of a rule over the context and its memory holds of the instance, whenever it does
not depend on the rest of the state.
-/

namespace TreeRules

variable {γ ε N : Type}

theorem RuleType.length_instances (types : List (RuleType γ ε N)) :
    (instances types).length = types.length := by
  have hnames := congrArg List.length (map_name_instances types)
  rwa [List.length_map, List.length_map] at hnames

/-- The whole context, with a part of what stands beside it. -/
def Part.inContext {whole part : Type} (inner : Part whole part) : Part (γ × whole) (γ × part) where
  get state := (state.1, inner.get state.2)
  set small state := (small.1, inner.set small.2 state.2)

/-- Every instance is the rule of a type over the context and one of the memories. -/
theorem RuleType.exists_memory_of_mem_instances {types : List (RuleType γ ε N)}
    {rule : Rule (γ × Memories types) ε N} (h : rule ∈ instances types) :
    ∃ type ∈ types, ∃ memory : Part (Memories types) type.Memory,
      rule = type.rule.on memory.inContext := by
  induction types with
  | nil => cases h
  | cons type types ih =>
      rcases List.mem_cons.mp h with rfl | hmem
      · let memory : Part (Memories (type :: types)) type.Memory :=
          { get := Prod.fst, set := fun own all => (own, all.2) }
        exact ⟨type, List.mem_cons_self, memory, rfl⟩
      · obtain ⟨inner, hinner, rfl⟩ := List.mem_map.mp hmem
        obtain ⟨other, hother, below, rfl⟩ := ih hinner
        let memory : Part (Memories (type :: types)) other.Memory :=
          { get := fun all => below.get all.2, set := fun own all => (all.1, below.set own all.2) }
        exact ⟨other, List.mem_cons_of_mem _ hother, memory, rfl⟩

end TreeRules
