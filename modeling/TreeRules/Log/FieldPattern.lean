import TreeRules.Text.Number
import TreeRules.Text.Pattern.Support

/-!
Fields that directives ask for, by a name and perhaps a value. A value that is the text of a number
stands for the number; any other is a pattern for the text of the field.
-/

namespace TreeRules.Log

/-- A field that a directive asks for, perhaps with a value. -/
structure FieldPattern where
  name : String
  value : Option String := none
deriving DecidableEq

namespace FieldPattern

/-- Reads a value, which must be a number or a pattern that can be decided. -/
def readValue (text : List Char) : Except Text.Pattern.Fault String :=
  if Text.isNumber text then .ok (String.ofList text)
  else (Text.Pattern.check text).map fun _ => String.ofList text

/-- Reads a field: a name, or a name and a value with an equals sign between them. What stands
behind a second equals sign does not count. -/
def ofText (text : List Char) : Except Text.Pattern.Fault FieldPattern :=
  let name := String.ofList (text.takeWhile (· != '='))
  match text.dropWhile (· != '=') with
  | [] => .ok { name }
  | _ :: rest => do
    let value ← readValue (rest.takeWhile (· != '='))
    return { name, value := some value }

end FieldPattern

end TreeRules.Log
