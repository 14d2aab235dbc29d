import TreeRules.Decimal.Shortest
import TreeRules.Json.Basic
import TreeRules.Text.Quoted

/-!
Why a configuration value cannot be read: the value, or a part of it, has the wrong type, a value
out of range, the wrong length, or a missing, unknown or ill-used name.
-/

namespace TreeRules.Configuration

/-- What was found in place of a value of the wanted type. -/
inductive Found where
  | bool (value : Bool)
  | integer (value : Int)
  | floatingPoint (value : Decimal.Binary64)
  | string (value : String)
  | null | sequence | map | unitVariant
deriving DecidableEq, Repr

namespace Found

def ofJson : Json → Found
  | .null => null
  | .bool value => bool value
  | .int value => integer value
  | .float value => floatingPoint value
  | .str value => string value
  | .arr _ => sequence
  | .obj _ => map

def describe : Found → String
  | bool value => "boolean `" ++ toString value ++ "`"
  | integer value => "integer `" ++ toString value ++ "`"
  | floatingPoint value =>
    "floating point `" ++ Decimal.NumberLayout.standard.render value ++ "`"
  | string value => "string " ++ Text.quoted value
  | null => "null"
  | sequence => "sequence"
  | map => "map"
  | unitVariant => "unit variant"

end Found

inductive DecodeError where
  | wrongType (found : Found) (wanted : String)
  | wrongValue (found : Found) (wanted : String)
  | wrongLength (length : Nat) (wanted : String)
  | missingField (name : String)
  | unknownField (name : String) (known : List String)
  | unknownVariant (name : String) (known : List String)
deriving DecidableEq, Repr

namespace DecodeError

def ticked (name : String) : String := "`" ++ name ++ "`"

/-- The names that would have been right, in the order in which they are declared. -/
def alternatives (names : List String) : String :=
  match names with
  | [only] => ticked only
  | [first, second] => ticked first ++ " or " ++ ticked second
  | names => "one of " ++ ", ".intercalate (names.map ticked)

def message : DecodeError → String
  | wrongType found wanted => "invalid type: " ++ found.describe ++ ", expected " ++ wanted
  | wrongValue found wanted => "invalid value: " ++ found.describe ++ ", expected " ++ wanted
  | wrongLength length wanted =>
    "invalid length " ++ toString length ++ ", expected " ++ wanted
  | missingField name => "missing field " ++ ticked name
  | unknownField name [] => "unknown field " ++ ticked name ++ ", there are no fields"
  | unknownField name known =>
    "unknown field " ++ ticked name ++ ", expected " ++ alternatives known
  | unknownVariant name [] => "unknown variant " ++ ticked name ++ ", there are no variants"
  | unknownVariant name known =>
    "unknown variant " ++ ticked name ++ ", expected " ++ alternatives known

end DecodeError

/-- A configuration that does not have the shape of the type it was read as. -/
structure Error where
  target : String
  cause : DecodeError
deriving DecidableEq, Repr

namespace Error

def message (error : Error) : String :=
  "invalid configuration for " ++ error.target ++ ": " ++ error.cause.message

end Error

end TreeRules.Configuration
