import TreeRules.Configuration.Forms
import TreeRules.Node.Basic
import TreeRules.Pipeline

/-!
The context of the catalogue's rules. It keeps the configured message, the unit being worked on, and
how many units and how many offers there were.
-/

namespace TreeRules.Catalogue

structure Context where
  compilation : String
  message : String
  fileName : Option String := none
  root : Option Node := none
  unitsSeen : Nat := 0
  offered : Nat := 0

inductive Error where
  /-- An observer was made to visit a node. -/
  | observerVisited
  /-- A rule asked for the unit's file name before the first unit. -/
  | noUnit
  | unsupportedNumber (text : String)
deriving DecidableEq, Repr

namespace Error

def message : Error → String
  | observerVisited => "Observe never accepts a node"
  | noUnit => "no unit has been started"
  | unsupportedNumber text => "numeric literal " ++ text ++ " is not supported"

instance : ToString Error := ⟨message⟩

end Error

/-- What a program tells its contexts: its name. -/
structure Program where
  name : String := ""

/-- What a unit tells its context: the name of its file. -/
structure Services where
  fileName : String := ""

def qualified (scope name : String) : String := scope ++ "::" ++ name

namespace Context

/-- Makes a context; the configuration may give a message. -/
def create (scope : String) (program : Program) (configuration : Json) :
    Except (CreationError Error) Context :=
  let target := qualified scope "TestedConfiguration"
  match Configuration.read target (Configuration.Greeting.shape "TestedConfiguration").decode
      configuration with
  | .error error => .error (.configuration error)
  | .ok greeting => .ok { compilation := program.name, message := greeting.message }

def beginUnit (services : Services) (root : Node) (context : Context) : Context :=
  { context with
    fileName := some services.fileName
    root := some root
    unitsSeen := context.unitsSeen + 1 }

def type (scope : String) : ContextType Context Error Node where
  name := qualified scope "TestedContext"
  Program := Program
  Services := Services
  create := create scope
  beginUnit services root := modify (beginUnit services root)

end Context

end TreeRules.Catalogue
