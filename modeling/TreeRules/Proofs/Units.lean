import TreeRules.Pipeline
import TreeRules.Proofs.Building
import TreeRules.Proofs.Run

/-!
# Units

A unit whose context was prepared is one run of a new dispatcher, with new instances of all rules.
What the call of the transformer gives, and what it leaves, is read off that run.
-/

namespace TreeRules

open Dispatch

variable {γ ε N S : Type}

/-- What a transformer is called with, and the bench as the call finds it. -/
structure Request (S N : Type) where
  services : S
  root : N
  depth : Nat
  bench : Bench

/-- What a call makes of the run of its unit. -/
def UnitTransformer.conclude {M : Type} (transformer : UnitTransformer γ)
    (unit : Except (Halt ε) (List N) × Run (γ × M)) :
    (Except (Halt ε) (UnitOutput N) × UnitTransformer γ) × Bench :=
  let bench : Bench := { supply := unit.2.workspace.supply, journal := unit.2.journal }
  let statistics := unit.2.statistics
  match unit.1 with
  | .error halt => ((.error halt, { transformer with context := unit.2.workspace.shared.1 }), bench)
  | .ok nodes =>
    ((.ok (.ofNodes nodes),
        { context := unit.2.workspace.shared.1, lastStatistics := some statistics }),
      { bench with journal := bench.journal.push (.finished statistics.dispatched
          statistics.totalMatches statistics.deleted statistics.inserted nodes.length) })

theorem UnitTransformer.context_conclude {M : Type} (transformer : UnitTransformer γ)
    (unit : Except (Halt ε) (List N) × Run (γ × M)) :
    (transformer.conclude unit).1.2.context = unit.2.workspace.shared.1 := by
  obtain ⟨_ | _, _⟩ := unit <;> rfl

namespace Pipeline

variable (pipeline : Pipeline γ ε N)

/-- A new dispatcher with new instances of all rules, over the context as it is. -/
def unitStart (request : Request pipeline.context.Services N) (context : γ) :
    Run (γ × RuleType.Memories pipeline.rules) :=
  let made := (RuleType.freshAll pipeline.rules).run context
  { workspace := { shared := (made.2, made.1), supply := request.bench.supply }
    statistics := .empty
    journal := request.bench.journal }

variable [Host N]

def unitRun (request : Request pipeline.context.Services N) (context : γ) :
    Except (Halt ε) (List N) × Run (γ × RuleType.Memories pipeline.rules) :=
  (dispatch (RuleType.instances pipeline.rules) request.depth request.root).run
    (pipeline.unitStart request context)

variable {pipeline} {transformer : UnitTransformer γ}
  {request : Request pipeline.context.Services N} {context : γ}

theorem run_transform_of_refused {error : ε}
    (h : (pipeline.context.beginUnit request.services request.root).run transformer.context =
      (.error error, context)) :
    (pipeline.transform request.depth request.services request.root transformer).run request.bench =
      ((.error (.failed error), { transformer with context }), request.bench) := by
  simp only [transform, h]
  rfl

theorem run_transform_of_begun
    (h : (pipeline.context.beginUnit request.services request.root).run transformer.context =
      (.ok (), context)) :
    (pipeline.transform request.depth request.services request.root transformer).run request.bench =
      transformer.conclude (pipeline.unitRun request context) := by
  have hran : (pipeline.runRules request.depth context request.root).run request.bench =
      let unit := pipeline.unitRun request context
      ((unit.1, unit.2.workspace.shared.1, unit.2.statistics),
        { supply := unit.2.workspace.supply, journal := unit.2.journal }) := rfl
  simp only [transform, h, run_stateM_bind]
  rw [hran, UnitTransformer.conclude]
  rcases pipeline.unitRun request context with ⟨halt | nodes, run⟩
  · rfl
  · rfl

end Pipeline

end TreeRules
