import TreeRules.Catalogue.Context
import TreeRules.Node.Blueprint
import TreeRules.Text.Uppercase

/-!
The catalogue of ready-made rules for modules.
-/

namespace TreeRules.Catalogue

inductive Entry where
  /-- Appends the context's message to every string literal. -/
  | appendMessage
  /-- Adds the declaration `value = result` behind every declaration. -/
  | transferValue
  /-- Deletes every export. -/
  | deleteExport
  /-- Ends every source file with the statement `finalValue = value`. -/
  | addExport
  /-- Deletes every identifier. -/
  | deleteIdentifier
  /-- Puts every identifier into upper case. -/
  | uppercaseIdentifier
  /-- Doubles every expression statement. -/
  | duplicateStatement
  /-- Triples every numeric literal. -/
  | triplicateNumber
  /-- Deletes every string literal. -/
  | deleteString
  /-- Wants nothing, and counts in the context what it is offered. -/
  | observe
  /-- Numbers the identifiers, from zero in every unit. -/
  | numberIdentifiers
  /-- Appends the name of the unit's file to every identifier. -/
  | stampFileName
  /-- Fails at every numeric literal. -/
  | rejectNumbers
deriving DecidableEq, Repr

namespace Entry

def all : List Entry :=
  [appendMessage, transferValue, deleteExport, addExport, deleteIdentifier, uppercaseIdentifier,
    duplicateStatement, triplicateNumber, deleteString, observe, numberIdentifiers, stampFileName,
    rejectNumbers]

theorem mem_all (entry : Entry) : entry ∈ all := by cases entry <;> decide

def name : Entry → String
  | appendMessage => "HelloModifier"
  | transferValue => "TransferValue"
  | deleteExport => "DeleteExport"
  | addExport => "AddExport"
  | deleteIdentifier => "DeleteIdentifier"
  | uppercaseIdentifier => "RenameIdentifier"
  | duplicateStatement => "DuplicateStatement"
  | triplicateNumber => "TriplicateNumber"
  | deleteString => "DeleteString"
  | observe => "Observe"
  | numberIdentifiers => "NumberIdentifiers"
  | stampFileName => "StampFileName"
  | rejectNumbers => "RejectNumbers"

def ofName? (name : String) : Option Entry :=
  all.find? fun entry => entry.name == name

theorem ofName?_name (entry : Entry) : ofName? entry.name = some entry := by
  cases entry <;> decide

/-- The kind of the nodes that a rule wants, if it wants any. -/
def wantedKind : Entry → Option Kind
  | appendMessage | deleteString => some .stringLiteral
  | transferValue => some .variableDeclaration
  | deleteExport => some .exportAssignment
  | addExport => some .sourceFile
  | deleteIdentifier | uppercaseIdentifier | numberIdentifiers | stampFileName => some .identifier
  | duplicateStatement => some .expressionStatement
  | triplicateNumber | rejectNumbers => some .numericLiteral
  | observe => none

/-- What an instance remembers: how many nodes it has numbered. -/
structure Memory where
  next : Nat := 0
deriving DecidableEq, Repr

abbrev State := Context × Memory

def wants (entry : Entry) (node : Node) : StateM State Bool := do
  if entry = observe then
    modify fun (context, memory) => ({ context with offered := context.offered + 1 }, memory)
  return entry.wantedKind == some node.kind

open NodeBlueprint in
/-- The declaration `value = result`. -/
def transferred : NodeBlueprint := variableDeclaration "value" (identifier "result")

open NodeBlueprint in
/-- The statement `finalValue = value`. -/
def finalStatement : NodeBlueprint :=
  variableStatement [variableDeclaration "finalValue" (identifier "value")]

def retext (text : String) (node : Node) : RuleM State Error (List Node) := do
  return [← RuleM.create (node.withText text)]

def visit (entry : Entry) (node : Node) : RuleM State Error (List Node) := do
  let text := node.textOrEmpty
  match entry with
  | appendMessage =>
    let (context, _) ← RuleM.shared
    return [← RuleM.create (Node.leaf .stringLiteral (text ++ context.message))]
  | transferValue => return [node, ← RuleM.create transferred.build]
  | addExport =>
    let last ← RuleM.create finalStatement.build
    return [← RuleM.create (node.copyWith (node.children ++ [last]))]
  | deleteExport | deleteIdentifier | deleteString => return []
  | uppercaseIdentifier => retext (Text.uppercase text) node
  | duplicateStatement => return [node, node]
  | triplicateNumber => return [node, node, node]
  | observe => throw .observerVisited
  | numberIdentifiers =>
    let (_, memory) ← RuleM.shared
    RuleM.update fun (context, _) => (context, { next := memory.next + 1 })
    retext (text ++ "_" ++ toString memory.next) node
  | stampFileName =>
    let (context, _) ← RuleM.shared
    match context.fileName with
    | none => throw .noUnit
    | some fileName => retext (text ++ "@" ++ fileName) node
  | rejectNumbers => throw (.unsupportedNumber text)

def ruleType (scope : String) (entry : Entry) : RuleType Context Error Node where
  name := qualified scope entry.name
  Memory := Memory
  fresh := return {}
  wants := entry.wants
  visit := entry.visit

end Entry

def pipeline (scope : String) (entries : List Entry) : Pipeline Context Error Node where
  context := Context.type scope
  rules := entries.map (Entry.ruleType scope)

end TreeRules.Catalogue
