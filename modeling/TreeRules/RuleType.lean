import TreeRules.Rule

/-!
Rule types. A rule type says how a rule is made and what it does; every instance keeps a memory of
its own, which no other rule can reach, beside the context that all rules share.
-/

namespace TreeRules

structure RuleType (γ ε N : Type) where
  name : String
  Memory : Type
  fresh : StateM γ Memory
  wants : N → StateM (γ × Memory) Bool
  visit : N → RuleM (γ × Memory) ε (List N)

namespace RuleType

variable {γ ε N : Type}

/-- The rule that one instance is, over the context and its own memory. -/
def rule (type : RuleType γ ε N) : Rule (γ × type.Memory) ε N where
  name := type.name
  wants := type.wants
  visit := type.visit

def display (type : RuleType γ ε N) : Text.Display :=
  .apply "VisitorType" [.quote type.name]

/-- The memories of one instance of every rule type, in order. -/
def Memories : List (RuleType γ ε N) → Type
  | [] => Unit
  | type :: types => type.Memory × Memories types

/-- Makes one instance of every rule type, in order. -/
def freshAll : (types : List (RuleType γ ε N)) → StateM γ (Memories types)
  | [] => return ()
  | type :: types => do
    let memory ← type.fresh
    let memories ← freshAll types
    return (memory, memories)

variable {M R : Type}

/-- The context and the first memory. -/
def headPart : Part (γ × M × R) (γ × M) where
  get whole := (whole.1, whole.2.1)
  set part whole := (part.1, part.2, whole.2.2)

/-- The context and all memories but the first. -/
def tailPart : Part (γ × M × R) (γ × R) where
  get whole := (whole.1, whole.2.2)
  set part whole := (part.1, whole.2.1, part.2)

/-- One instance of every rule type, in order, over the context and all their memories. -/
def instances : (types : List (RuleType γ ε N)) → List (Rule (γ × Memories types) ε N)
  | [] => []
  | type :: types => type.rule.on headPart :: (instances types).map (Rule.on tailPart)

theorem map_name_instances (types : List (RuleType γ ε N)) :
    (instances types).map Rule.name = types.map RuleType.name := by
  induction types with
  | nil => rfl
  | cons type types ih =>
    have below : ((instances types).map (Rule.on (tailPart (M := type.Memory)))).map Rule.name =
        (instances types).map Rule.name := by
      rw [List.map_map]
      rfl
    exact congrArg (type.name :: ·) (below.trans ih)

end RuleType

end TreeRules
