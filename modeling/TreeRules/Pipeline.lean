import TreeRules.Configuration.Decoder
import TreeRules.Dispatch
import TreeRules.RuleType
import TreeRules.UnitOutput

/-!
Pipelines. A pipeline is a list of rule types over one type of context. Instantiating it makes a
context from the user's configuration; the units of a compilation are then transformed one after the
other, each with new instances of all rules, while the context goes on.
-/

namespace TreeRules

/-- Why a context was not made. -/
inductive CreationError (ε : Type) where
  | configuration (error : Configuration.Error)
  /-- A note on what was being done, over the error that came up. -/
  | noted (note : String) (inner : CreationError ε)
  | other (error : ε)

namespace CreationError

variable {ε : Type}

/-- The configuration error at the bottom, if that is what it was. -/
def configurationError? : CreationError ε → Option Configuration.Error
  | configuration error => some error
  | noted _ inner => configurationError? inner
  | other _ => none

/-- The texts from the outermost error down. -/
def texts [ToString ε] : CreationError ε → List String
  | configuration error => [error.message, error.cause.message]
  | noted note inner => note :: texts inner
  | other error => [toString error]

end CreationError

/-- A type of contexts: how one is made for a program, and how it prepares for a unit. -/
structure ContextType (γ ε N : Type) where
  name : String
  Program : Type
  Services : Type
  create : Program → Json → Except (CreationError ε) γ
  beginUnit : Services → N → ExceptT ε (StateM γ) Unit

inductive PipelineError (ε : Type) where
  | invalidConfiguration (context : String) (cause : Configuration.Error)
  | contextConstruction (context : String) (cause : CreationError ε)

namespace PipelineError

variable {ε : Type}

/-- A configuration error counts as one wherever it is found. -/
def ofCreation (context : String) (error : CreationError ε) : PipelineError ε :=
  match error.configurationError? with
  | some cause => invalidConfiguration context cause
  | none => contextConstruction context error

def context : PipelineError ε → String
  | invalidConfiguration context _ | contextConstruction context _ => context

/-- The name of the type that the configuration was read as, if that went wrong. -/
def target? : PipelineError ε → Option String
  | invalidConfiguration _ cause => some cause.target
  | contextConstruction _ _ => none

def caseName : PipelineError ε → String
  | invalidConfiguration .. => "InvalidConfiguration"
  | contextConstruction .. => "ContextConstruction"

def message : PipelineError ε → String
  | invalidConfiguration context _ => "context " ++ context ++ " rejected its configuration"
  | contextConstruction context _ => "failed to construct context " ++ context

def causes [ToString ε] : PipelineError ε → List String
  | invalidConfiguration _ cause => [cause.message, cause.cause.message]
  | contextConstruction _ cause => cause.texts

end PipelineError

/-- What all work of a compilation has in common: the supply of identities and the journal. -/
structure Bench where
  supply : Supply := {}
  journal : Log.Journal := #[]

namespace Bench

def note (message : Log.Message) : StateM Bench Unit :=
  modify fun bench => { bench with journal := bench.journal.push message }

def create {β : Type} (make : StateM Supply β) : StateM Bench β := fun bench =>
  let (made, supply) := make.run bench.supply
  (made, { bench with supply })

end Bench

/-- A context at work on the units of a compilation, and the statistics of the latest unit that
succeeded. -/
structure UnitTransformer (γ : Type) where
  context : γ
  lastStatistics : Option Statistics := none

structure Pipeline (γ ε N : Type) where
  context : ContextType γ ε N
  rules : List (RuleType γ ε N) := []

namespace Pipeline

open Text (Display)

variable {γ ε N : Type}

def withRule (pipeline : Pipeline γ ε N) (type : RuleType γ ε N) : Pipeline γ ε N :=
  { pipeline with rules := pipeline.rules ++ [type] }

def ruleNames (pipeline : Pipeline γ ε N) : List String := pipeline.rules.map RuleType.name

def length (pipeline : Pipeline γ ε N) : Nat := pipeline.rules.length

def isEmpty (pipeline : Pipeline γ ε N) : Bool := pipeline.rules.isEmpty

def display (pipeline : Pipeline γ ε N) : Display :=
  .record "Pipeline"
    [("context", .quote pipeline.context.name),
     ("visitors", .list (pipeline.ruleNames.map .quote))]

theorem foldl_withRule (pipeline : Pipeline γ ε N) (types : List (RuleType γ ε N)) :
    types.foldl withRule pipeline = { pipeline with rules := pipeline.rules ++ types } := by
  induction types generalizing pipeline with
  | nil => simp
  | cons type types ih => simp [ih, withRule]

def instantiate (pipeline : Pipeline γ ε N) (program : pipeline.context.Program)
    (configuration : Json) : StateM Bench (Except (PipelineError ε) (UnitTransformer γ)) := do
  match pipeline.context.create program configuration with
  | .error error => return .error (.ofCreation pipeline.context.name error)
  | .ok context =>
    Bench.note (.instantiated pipeline.context.name pipeline.length)
    return .ok { context }

variable [Host N]

/-- Runs new instances of all rules over a root, with the context as it is. Gives the result, the
context afterwards, and the statistics of the run. -/
def runRules (pipeline : Pipeline γ ε N) (depth : Nat) (context : γ) (root : N) :
    StateM Bench (Except (Halt ε) (List N) × γ × Statistics) := fun bench =>
  let (memories, context) := (RuleType.freshAll pipeline.rules).run context
  let start : Run (γ × RuleType.Memories pipeline.rules) :=
    { workspace := { shared := (context, memories), supply := bench.supply }
      journal := bench.journal }
  let (result, run) := (Dispatch.dispatch (RuleType.instances pipeline.rules) depth root).run start
  ((result, run.workspace.shared.1, run.statistics),
    { supply := run.workspace.supply, journal := run.journal })

/-- Transforms one unit: prepares the context, then dispatches the root. An error leaves the
statistics of the latest successful unit, and what the context has become by then. -/
def transform (pipeline : Pipeline γ ε N) (depth : Nat) (services : pipeline.context.Services)
    (root : N) (transformer : UnitTransformer γ) :
    StateM Bench (Except (Halt ε) (UnitOutput N) × UnitTransformer γ) := do
  let (begun, context) := (pipeline.context.beginUnit services root).run transformer.context
  match begun with
  | .error error => return (.error (.failed error), { transformer with context })
  | .ok () =>
    let (result, context, statistics) ← pipeline.runRules depth context root
    match result with
    | .error halt => return (.error halt, { transformer with context })
    | .ok nodes =>
      Bench.note (.finished statistics.dispatched statistics.totalMatches statistics.deleted
        statistics.inserted nodes.length)
      return (.ok (.ofNodes nodes), { context, lastStatistics := some statistics })

end Pipeline

end TreeRules
