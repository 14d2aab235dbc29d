import TreeRules.Script.Context

/-!
What scripted rules do.
-/

namespace TreeRules.Script

structure Memory where
  spec : Spec
  visits : Nat := 0
  counter : Nat := 0

abbrev State := Context × Memory

namespace Conditions

def holdsOf {β : Type} (condition : Option β) (test : β → Bool) : Bool :=
  match condition with
  | none => true
  | some value => test value

/-- Whether all conditions hold of a node, given the context's symbols and the visits so far. -/
def hold (conditions : Conditions) (symbols : List String) (visits : Nat) (node : Node) : Bool :=
  let textIn (texts : List String) := node.text.any texts.contains
  holdsOf conditions.kinds (·.contains node.kind) &&
    holdsOf conditions.texts textIn &&
    holdsOf conditions.hasText (· == node.text.isSome) &&
    holdsOf conditions.arity (fun (least, greatest) =>
      least ≤ node.children.length && node.children.length ≤ greatest) &&
    holdsOf conditions.known (· == textIn symbols) &&
    holdsOf conditions.limit (visits < ·)

end Conditions

/-- The event that a rule was asked about a node. -/
def event (name : String) (node : Node) (wanted : Bool) : String :=
  let text := match node.text with
    | none => ""
    | some text => " " ++ text
  name ++ " " ++ node.kind.name ++ text ++ " -> " ++ (if wanted then "yes" else "no")

def wants (node : Node) : StateM State Bool := do
  let (context, memory) ← get
  let wanted := memory.spec.conditions.hold context.symbols memory.visits node
  let events := context.events.push (event memory.spec.name node wanted)
  set ({ context with events }, memory)
  return wanted

namespace Action

abbrev Effect := RuleM State Error (List Node)

def single (make : StateM Supply Node) : Effect := do
  return [← RuleM.create make]

/-- The node around children that are made from blueprints and its own. -/
def around (node : Node) (first : List NodeBlueprint) (own : List Node)
    (last : List NodeBlueprint) : Effect :=
  single do
    let first ← Blueprint.buildEach first
    let last ← Blueprint.buildEach last
    node.copyWith (first ++ own ++ last)

def run (action : Action) (node : Node) : Effect := do
  let (context, memory) ← RuleM.shared
  let own := node.textOrEmpty
  match action with
  | self => return [node]
  | copy => single (node.copyWith node.children)
  | .text other => single (node.withText other)
  | append suffix => single (node.withText (own ++ suffix))
  | number stem =>
    RuleM.update fun (context, memory) =>
      (context, { memory with counter := memory.counter + 1 })
    single (node.withText (stem ++ toString memory.counter))
  | shared stem =>
    RuleM.update fun (context, memory) =>
      ({ context with counter := context.counter + 1 }, memory)
    single (node.withText (stem ++ toString context.counter))
  | wrap outer => single (Node.branch outer [node])
  | .kind other => single (Tree.create { kind := other, text := node.text } node.children)
  | unwrap => return node.children
  | withChildren children => around node children [] []
  | push added => around node [] node.children [added]
  | unshift added => around node [added] node.children []
  | reverse => single (node.copyWith node.children.reverse)
  | drop place => single (node.copyWith (node.children.eraseIdx place))
  | child place => return node.children[place]?.toList
  | tree other => single other.build
  | collect =>
    RuleM.update fun (context, memory) =>
      ({ context with symbols := context.symbols ++ [own] }, memory)
    return []

def runEach (node : Node) : List Action → Effect
  | [] => return []
  | action :: rest => do
    let here ← action.run node
    let others ← runEach node rest
    return here ++ others

end Action

/-- Counts the visit, fails if it is time to, and runs the actions. -/
def visit (node : Node) : RuleM State Error (List Node) := do
  let (_, memory) ← RuleM.shared
  let visits := memory.visits + 1
  RuleM.update fun (context, memory) => (context, { memory with visits })
  match memory.spec.failure with
  | some failure =>
    if failure.after < visits then throw (.reported failure.message)
    else Action.runEach node memory.spec.actions
  | none => Action.runEach node memory.spec.actions

/-- The type of scripted rules under a name, with a spec found in the context. -/
def ruleType (name : String) (choose : Context → Spec) : RuleType Context Error Node where
  name := name
  Memory := Memory
  fresh := return { spec := choose (← get) }
  wants := wants
  visit := visit

/-- The rule at a place of the context's program; a place without a rule is idle. -/
def slot (name : String) (index : Nat) : RuleType Context Error Node :=
  ruleType name fun context => context.rules[index]?.getD .idle

end TreeRules.Script
