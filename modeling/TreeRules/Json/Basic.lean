import TreeRules.Decimal.Binary64

/-!
Json values. Integers and floating-point numbers are kept apart: a number written without fraction
and exponent is an integer if it fits 64 bits, signed or unsigned. Objects hold their fields in
increasing order of the names.
-/

namespace TreeRules

inductive Json where
  | null
  | bool (value : Bool)
  | int (value : Int)
  | float (value : Decimal.Binary64)
  | str (value : String)
  | arr (items : List Json)
  | obj (fields : List (String × Json))
deriving Inhabited

namespace Json

abbrev Fields := List (String × Json)

/-- Sets a field in its place; a field of the same name is replaced. -/
def insertField (name : String) (value : Json) : Fields → Fields
  | [] => [(name, value)]
  | (key, held) :: rest =>
    if name < key then (name, value) :: (key, held) :: rest
    else if name = key then (key, value) :: rest
    else (key, held) :: insertField name value rest

/-- An object with the given fields, in whatever order they come; of two fields of one name the
later one holds. -/
def object (fields : Fields) : Json :=
  obj (fields.foldl (fun held field => insertField field.1 field.2 held) [])

def field? (name : String) : Json → Option Json
  | obj fields => fields.lookup name
  | _ => none

def optional {α : Type} (encode : α → Json) : Option α → Json
  | none => null
  | some value => encode value

/-- Whether a number written as an integer is kept as one. -/
def fitsInteger (value : Int) : Bool :=
  -(Decimal.twoTo 63 : Int) ≤ value && value < (Decimal.twoTo 64 : Int)

end Json

end TreeRules
