import TreeRules.Node.SExpression
import TreeRules.Pipeline
import TreeRules.Script.Spec

/-!
The context of scripted rules: a counter and a list of symbols that all of them share, and a list of
events that says which nodes they were offered. Settings may restrict a context to one unit, reset
it for every unit, or make a unit fail.
-/

namespace TreeRules.Script

structure Settings where
  strict : Bool := false
  reset : Bool := false
  failUnit : Option Int := none
deriving DecidableEq, Repr

namespace Settings

open TreeRules.Configuration in
def shape : Shape Settings where
  name := "Settings"
  blank := {}
  fields :=
    [{ name := "strict"
       store := fun value settings => do return { settings with strict := ← Decoder.bool value }
       optionalInObject := true
       optionalInArray := true },
     { name := "reset"
       store := fun value settings => do return { settings with reset := ← Decoder.bool value }
       optionalInObject := true
       optionalInArray := true },
     { name := "fail_unit"
       store := fun value settings => do
         return { settings with
           failUnit := ← Decoder.option IntegerRange.unsigned32.decode value }
       optionalInObject := true
       optionalInArray := true }]

end Settings

inductive Error where
  /-- A failure with a text of its own. -/
  | reported (text : String)
  | noProgram
  /-- A second unit for a strict context. -/
  | singleUnit
  | unitRefused (unit : Nat)
deriving DecidableEq, Repr

namespace Error

def message : Error → String
  | reported text => text
  | noProgram => "no program"
  | singleUnit => "strict contexts accept a single unit"
  | unitRefused unit => "unit " ++ toString unit ++ " refused"

instance : ToString Error := ⟨message⟩

end Error

/-- A program of scripted rules, and what it does with an error in its settings: pass it on, put a
note over it, or hide it in a text of its own. -/
structure Program where
  name : String := ""
  rules : List Spec := []
  note : Option String := none
  hidesErrors : Bool := false

structure Services where
  fileName : String := ""

structure Context where
  rules : List Spec := []
  settings : Settings := {}
  units : Nat := 0
  file : Option String := none
  root : Option Node := none
  counter : Nat := 0
  symbols : List String := []
  events : Array String := #[]

namespace Context

def settingsError (program : Program) (error : Configuration.Error) : CreationError Error :=
  match program.note with
  | none => .configuration error
  | some note =>
    if program.hidesErrors then .other (.reported (note ++ ": " ++ error.message))
    else .noted note (.configuration error)

def create (target : String) (program : Program) (configuration : Json) :
    Except (CreationError Error) Context :=
  if program.name = "" then .error (.other .noProgram)
  else
    match Configuration.read target Settings.shape.decode configuration with
    | .error error => .error (settingsError program error)
    | .ok settings => .ok { rules := program.rules, settings }

/-- Counts a unit, and refuses it if the settings say so. A second unit for a strict context changes
nothing. -/
def beginUnit (services : Services) (root : Node) : ExceptT Error (StateM Context) Unit := do
  let context ← get
  if context.settings.strict ∧ 0 < context.units then throw .singleUnit
  let units := context.units + 1
  let begun := { context with units, file := some services.fileName, root := some root }
  set (if context.settings.reset then { begun with counter := 0, symbols := [] } else begun)
  if context.settings.failUnit = some (units : Int) then throw (.unitRefused units)

def type (name target : String) : ContextType Context Error Node where
  name := name
  Program := Program
  Services := Services
  create := create target
  beginUnit := beginUnit

end Context

end TreeRules.Script
