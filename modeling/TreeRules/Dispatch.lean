import TreeRules.Log.Message
import TreeRules.Rule
import TreeRules.Statistics.Basic
import TreeRules.Tree.Host

/-!
The dispatcher. A node goes through the whole rule list first: a working list starts with the node
alone, and every rule in turn replaces the nodes of the list that it wants. Then every child of
every survivor is dispatched in the same way, and a survivor is rebuilt around the results. When
each child came back as the very same object, the survivor itself is the result, so whatever no rule
touched stays shared with the input.

Dispatches nest as deep as the tree gets while it is being worked on, and a rule may deepen the tree
for ever. So every run has a bound on the nesting, and says when it was reached.
-/

namespace TreeRules

/-- Why a run gave no nodes. -/
inductive Halt (ε : Type) where
  | failed (error : ε)
  | tooDeep
deriving DecidableEq, Repr

/-- The state of a dispatcher. It outlives a failure: what was counted, written and changed until
then stays. -/
structure Run (σ : Type) where
  workspace : Workspace σ
  statistics : Statistics := {}
  journal : Log.Journal := #[]

abbrev DispatchM (σ ε : Type) := ExceptT (Halt ε) (StateM (Run σ))

namespace DispatchM

variable {σ ε β : Type}

def record (change : Statistics → Statistics) : DispatchM σ ε Unit := fun run =>
  (.ok (), { run with statistics := change run.statistics })

def note (message : Log.Message) : DispatchM σ ε Unit := fun run =>
  (.ok (), { run with journal := run.journal.push message })

/-- Runs an action on the shared state. -/
def onShared (action : StateM σ β) : DispatchM σ ε β := fun run =>
  let (result, shared) := action.run run.workspace.shared
  (.ok result, { run with workspace := { run.workspace with shared } })

/-- Runs the effects of a visit; its failure ends the run. -/
def onWorkspace (action : RuleM σ ε β) : DispatchM σ ε β := fun run =>
  let (result, workspace) := action.run run.workspace
  (result.mapError .failed, { run with workspace })

def fresh : DispatchM σ ε ObjectId := fun run =>
  let (id, supply) := Supply.fresh.run run.workspace.supply
  (.ok id, { run with workspace := { run.workspace with supply } })

@[simp]
theorem run_record (change : Statistics → Statistics) (run : Run σ) :
    (record change : DispatchM σ ε Unit).run run =
      (.ok (), { run with statistics := change run.statistics }) := rfl

@[simp]
theorem run_note (message : Log.Message) (run : Run σ) :
    (note message : DispatchM σ ε Unit).run run =
      (.ok (), { run with journal := run.journal.push message }) := rfl

end DispatchM

namespace Dispatch

open DispatchM

variable {σ ε N : Type}

def offer (rule : Rule σ ε N) (node : N) : DispatchM σ ε (List N) := do
  record (·.recordOffer rule.name)
  if ← onShared (rule.wants node) then
    let nodes ← onWorkspace (rule.visit node)
    note (.replaced rule.name nodes.length)
    record (·.recordVisit rule.name nodes.length)
    return nodes
  else
    return [node]

/-- Offers every node of the working list to one rule, from left to right. -/
def offerEach (rule : Rule σ ε N) : List N → DispatchM σ ε (List N)
  | [] => return []
  | node :: rest => do
    let here ← offer rule node
    let others ← offerEach rule rest
    return here ++ others

/-- Passes the working list through all rules, one rule after the other. -/
def survivors : List (Rule σ ε N) → List N → DispatchM σ ε (List N)
  | [], nodes => return nodes
  | rule :: rules, nodes => do
    let nodes ← offerEach rule nodes
    survivors rules nodes

variable [Host N]

/-- Whether dispatching `child` gave nothing but the very same object. -/
def isUntouched (child : N) : List N → Bool
  | [node] => Host.sameObject node child
  | _ => false

/-- Dispatches the children from left to right. Gives all their results in order, and whether every
child came back untouched. -/
def dispatchEach (dispatch : N → DispatchM σ ε (List N)) :
    List N → DispatchM σ ε (List N × Bool)
  | [] => return ([], true)
  | child :: rest => do
    let here ← dispatch child
    let (others, untouched) ← dispatchEach dispatch rest
    return (here ++ others, isUntouched child here && untouched)

/-- Dispatches the children of a survivor, and puts the results in their place. -/
def rebuild (dispatch : N → DispatchM σ ε (List N)) (node : N) : DispatchM σ ε N := do
  let (nodes, untouched) ← dispatchEach dispatch (Host.children node)
  if untouched then
    return node
  else
    return Host.withChildren (← fresh) nodes node

def rebuildEach (dispatch : N → DispatchM σ ε (List N)) : List N → DispatchM σ ε (List N)
  | [] => return []
  | node :: rest => do
    let here ← rebuild dispatch node
    let others ← rebuildEach dispatch rest
    return here :: others

/-- Dispatches a node, with at most `depth` dispatches nested in each other. -/
def dispatch (rules : List (Rule σ ε N)) (depth : Nat) (node : N) : DispatchM σ ε (List N) :=
  match depth with
  | 0 => throw .tooDeep
  | depth + 1 => do
    record Statistics.recordDispatch
    let nodes ← survivors rules [node]
    rebuildEach (dispatch rules depth) nodes

end Dispatch

end TreeRules
