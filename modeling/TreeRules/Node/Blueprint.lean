import TreeRules.Node.Basic
import TreeRules.Tree.Blueprint

/-!
Blueprints of the usual nodes of a module.
-/

namespace TreeRules

abbrev NodeBlueprint := Blueprint Label

namespace NodeBlueprint

open Blueprint

def leaf (kind : Kind) (text : String) : NodeBlueprint := node { kind, text := some text } []

def branch (kind : Kind) (children : List NodeBlueprint) : NodeBlueprint := node { kind } children

def sourceFile (statements : List NodeBlueprint) : NodeBlueprint := branch .sourceFile statements

def variableStatement (declarations : List NodeBlueprint) : NodeBlueprint :=
  branch .variableStatement declarations

def identifier (name : String) : NodeBlueprint := leaf .identifier name

def stringLiteral (value : String) : NodeBlueprint := leaf .stringLiteral value

def numericLiteral (value : String) : NodeBlueprint := leaf .numericLiteral value

def variableDeclaration (name : String) (initializer : NodeBlueprint) : NodeBlueprint :=
  branch .variableDeclaration [identifier name, initializer]

def exportAssignment (expression : NodeBlueprint) : NodeBlueprint :=
  branch .exportAssignment [expression]

def block (statements : List NodeBlueprint) : NodeBlueprint := branch .block statements

def callExpression (callee : NodeBlueprint) (arguments : List NodeBlueprint) : NodeBlueprint :=
  branch .callExpression (callee :: arguments)

def expressionStatement (expression : NodeBlueprint) : NodeBlueprint :=
  branch .expressionStatement [expression]

def withText (text : String) (tree : NodeBlueprint) : NodeBlueprint :=
  relabel (fun label => { label with text := some text }) tree

def make (tree : NodeBlueprint) : StateM Supply Node := build tree

end NodeBlueprint

end TreeRules
