import TreeRules.Tree.Host
import TreeRules.Tree.Supply

/-!
The syntax tree of a module: statements, declarations, expressions and literals. A node has a kind
and may carry a text, as identifiers and literals do.
-/

namespace TreeRules

inductive Kind where
  | sourceFile | variableStatement | variableDeclaration | identifier | stringLiteral
  | numericLiteral | exportAssignment | block | callExpression | expressionStatement
deriving DecidableEq, Repr

namespace Kind

def name : Kind → String
  | sourceFile => "SourceFile"
  | variableStatement => "VariableStatement"
  | variableDeclaration => "VariableDeclaration"
  | identifier => "Identifier"
  | stringLiteral => "StringLiteral"
  | numericLiteral => "NumericLiteral"
  | exportAssignment => "ExportAssignment"
  | block => "Block"
  | callExpression => "CallExpression"
  | expressionStatement => "ExpressionStatement"

def all : List Kind :=
  [sourceFile, variableStatement, variableDeclaration, identifier, stringLiteral,
    numericLiteral, exportAssignment, block, callExpression, expressionStatement]

theorem mem_all (kind : Kind) : kind ∈ all := by cases kind <;> decide

def ofName? (name : String) : Option Kind :=
  all.find? fun kind => kind.name == name

theorem ofName?_name (kind : Kind) : ofName? kind.name = some kind := by
  cases kind <;> decide

end Kind

/-- What a node says of itself, apart from its children. -/
structure Label where
  kind : Kind
  text : Option String := none
deriving DecidableEq, Repr

instance : Relabel Label := ⟨fun label => label⟩

abbrev Node := Tree Label

namespace Node

def kind (node : Node) : Kind := node.label.kind

def text (node : Node) : Option String := node.label.text

def textOrEmpty (node : Node) : String := node.text.getD ""

/-- The name that a variable declaration declares: the text of its first child. -/
def declaredName (node : Node) : Option String :=
  if node.kind = .variableDeclaration then node.children.head?.bind text else none

/-- A new object with another text around the same child objects. -/
def withText (text : String) (node : Node) : StateM Supply Node :=
  node.relabel { kind := node.kind, text := some text }

/-- A new object with the same label around other children. -/
def copyWith (children : List Node) (node : Node) : StateM Supply Node :=
  Tree.create node.label children

def leaf (kind : Kind) (text : String) : StateM Supply Node :=
  Tree.create { kind, text := some text } []

def branch (kind : Kind) (children : List Node) : StateM Supply Node :=
  Tree.create { kind } children

end Node

end TreeRules
