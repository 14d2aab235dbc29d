import TreeRules.Text.Display
import TreeRules.Tree.Supply

/-!
Rules. A rule is asked whether it wants a node and, if so, visits it and returns the nodes that
take its place: none deletes the node, one replaces it, several fan out in its position. Rules work
on a state they share; only a visit may fail or make new node objects.
-/

namespace TreeRules

/-- What a visit can change: the state that the rules share, and the supply of identities. -/
structure Workspace (σ : Type) where
  shared : σ
  supply : Supply

/-- The effects of a visit. A failure keeps the changes made before it. -/
abbrev RuleM (σ ε : Type) := ExceptT ε (StateM (Workspace σ))

namespace RuleM

variable {σ τ ε β : Type}

def shared : RuleM σ ε σ := fun workspace => (.ok workspace.shared, workspace)

def update (change : σ → σ) : RuleM σ ε Unit := fun workspace =>
  (.ok (), { workspace with shared := change workspace.shared })

def create (make : StateM Supply β) : RuleM σ ε β := fun workspace =>
  let (made, supply) := make.run workspace.supply
  (.ok made, { workspace with supply })

end RuleM

structure Rule (σ ε N : Type) where
  name : String
  wants : N → StateM σ Bool
  visit : N → RuleM σ ε (List N)

/-- A rule as a displayed value: only its name can be shown. -/
def Rule.display {σ ε N : Type} (rule : Rule σ ε N) : Text.Display :=
  .openRecord "NamedVisitor" [("name", .quote rule.name)]

/-- A part of a larger state. -/
structure Part (σ τ : Type) where
  get : σ → τ
  set : τ → σ → σ

namespace Part

variable {σ τ β ε : Type}

/-- Runs a state action on the part and leaves the rest alone. -/
def zoom (part : Part σ τ) (action : StateM τ β) : StateM σ β := fun whole =>
  let (result, changed) := action.run (part.get whole)
  (result, part.set changed whole)

/-- Runs the effects of a visit on the part and leaves the rest alone. -/
def zoomRule (part : Part σ τ) (action : RuleM τ ε β) : RuleM σ ε β := fun workspace =>
  let (result, changed) := action.run ⟨part.get workspace.shared, workspace.supply⟩
  (result, ⟨part.set changed.shared workspace.shared, changed.supply⟩)

end Part

/-- The same rule as one that works on a part of a larger state. -/
def Rule.on {σ τ ε N : Type} (part : Part σ τ) (rule : Rule τ ε N) : Rule σ ε N where
  name := rule.name
  wants node := part.zoom (rule.wants node)
  visit node := part.zoomRule (rule.visit node)

@[simp]
theorem Rule.name_on {σ τ ε N : Type} (part : Part σ τ) (rule : Rule τ ε N) :
    (rule.on part).name = rule.name := rfl

end TreeRules
