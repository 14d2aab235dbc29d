import TreeRules.Configuration.Error

/-!
Decoders: how a Json value is read as a value of some type. A record is read from an object, whose
fields are taken in the order of their names, or from an array, whose items stand for the fields in
the order of their declaration; the first thing that goes wrong is the error.
-/

namespace TreeRules.Configuration

abbrev Decoder (α : Type) := Json → Except DecodeError α

namespace Decoder

def fail {α : Type} (wanted : String) (found : Json) : Except DecodeError α :=
  .error (.wrongType (.ofJson found) wanted)

def any : Decoder Json := fun value => .ok value

def bool : Decoder Bool
  | .bool value => .ok value
  | value => fail "a boolean" value

def string : Decoder String
  | .str value => .ok value
  | value => fail "a string" value

/-- The value that stands for nothing: only null has it. -/
def unit : Decoder Unit
  | .null => .ok ()
  | value => fail "unit" value

/-- Null is no value; anything else must be one. -/
def option {α : Type} (decode : Decoder α) : Decoder (Option α)
  | .null => .ok none
  | value => (decode value).map some

def list {α : Type} (decode : Decoder α) : Decoder (List α)
  | .arr items => items.mapM decode
  | value => fail "a sequence" value

/-- The fields of an object, in the order of their names. -/
def map {α : Type} (decode : Decoder α) : Decoder (List (String × α))
  | .obj fields => fields.mapM fun field => return (field.1, ← decode field.2)
  | value => fail "a map" value

end Decoder

/-- A range of integers with its name. -/
structure IntegerRange where
  name : String
  least : Int
  greatest : Int

namespace IntegerRange

def signed (name : String) (width : Nat) : IntegerRange :=
  ⟨name, -(Decimal.twoTo (width - 1) : Int), (Decimal.twoTo (width - 1) : Int) - 1⟩

def unsigned (name : String) (width : Nat) : IntegerRange :=
  ⟨name, 0, (Decimal.twoTo width : Int) - 1⟩

def decode (range : IntegerRange) : Decoder Int
  | .int value =>
    if range.least ≤ value ∧ value ≤ range.greatest then .ok value
    else .error (.wrongValue (.integer value) range.name)
  | value => Decoder.fail range.name value

def signed64 : IntegerRange := signed "i64" 64

def unsigned8 : IntegerRange := unsigned "u8" 8

def unsigned16 : IntegerRange := unsigned "u16" 16

def unsigned32 : IntegerRange := unsigned "u32" 32

end IntegerRange

/-- A field of a record under construction: how its value is stored, and whether an object or an
array may do without it. -/
structure Field (ρ : Type) where
  name : String
  store : Json → ρ → Except DecodeError ρ
  optionalInObject : Bool := false
  optionalInArray : Bool := false

/-- The shape of a record: its name, its value before any field is read, and its fields in the order
of their declaration. A closed record accepts no other field. -/
structure Shape (ρ : Type) where
  name : String
  blank : ρ
  fields : List (Field ρ)
  closed : Bool := false

namespace Shape

variable {ρ : Type}

def fieldNames (shape : Shape ρ) : List String := shape.fields.map Field.name

/-- Takes the fields of an object one after the other. -/
def readFields (shape : Shape ρ) : Json.Fields → ρ → Except DecodeError ρ
  | [], record => .ok record
  | (name, value) :: rest, record =>
    match shape.fields.find? (·.name == name) with
    | some field => do
      let record ← field.store value record
      readFields shape rest record
    | none =>
      if shape.closed then .error (.unknownField name shape.fieldNames)
      else readFields shape rest record

/-- The first field that is needed and not among the given names. -/
def missing? (shape : Shape ρ) (given : List String) : Option String :=
  (shape.fields.find? fun field => !field.optionalInObject && !given.contains field.name).map
    Field.name

def readObject (shape : Shape ρ) (fields : Json.Fields) : Except DecodeError ρ := do
  let record ← shape.readFields fields shape.blank
  match shape.missing? (fields.map Prod.fst) with
  | some name => .error (.missingField name)
  | none => .ok record

/-- What an array was expected to be when an item is missing. -/
def wantedItems (shape : Shape ρ) : String :=
  let count := shape.fields.length
  "struct " ++ shape.name ++ " with " ++ toString count ++
    (if count = 1 then " element" else " elements")

/-- Takes the items of an array, `count` of them, for the fields from the place `index` on. -/
def readItems (shape : Shape ρ) (count : Nat) :
    Nat → List (Field ρ) → List Json → ρ → Except DecodeError ρ
  | _, [], [], record => .ok record
  | _, [], _ :: _, _ => .error (.wrongLength count "fewer elements in array")
  | index, field :: fields, [], record =>
    if field.optionalInArray then readItems shape count (index + 1) fields [] record
    else .error (.wrongLength index shape.wantedItems)
  | index, field :: fields, item :: items, record => do
    let record ← field.store item record
    readItems shape count (index + 1) fields items record

def decode (shape : Shape ρ) : Decoder ρ
  | .obj fields => shape.readObject fields
  | .arr items => shape.readItems items.length 0 shape.fields items shape.blank
  | value => Decoder.fail ("struct " ++ shape.name) value

end Shape

/-- A case of a choice: a name alone, or a name with a value. -/
inductive Variant (β : Type) where
  | alone (value : β)
  | holding (decode : Decoder β)

namespace Variant

variable {β : Type}

/-- Reads the case of the given name, with the value it was given, if any. -/
def decodeNamed (variants : List (String × Variant β)) (name : String) (held : Option Json) :
    Except DecodeError β :=
  match variants.lookup name, held with
  | none, _ => .error (.unknownVariant name (variants.map Prod.fst))
  | some (alone value), none => .ok value
  | some (alone value), some held => (Decoder.unit held).map fun _ => value
  | some (holding _), none => .error (.wrongType .unitVariant "newtype variant")
  | some (holding decode), some held => decode held

/-- Reads a choice: a string names a case, an object of one field names a case and its value. -/
def decode (variants : List (String × Variant β)) : Decoder β
  | .str name => decodeNamed variants name none
  | .obj [(name, held)] => decodeNamed variants name (some held)
  | .obj _ => .error (.wrongValue .map "map with a single key")
  | value => Decoder.fail "string or map" value

end Variant

/-- Reads a configuration. No configuration is the empty object, so a type that needs no field
accepts it. -/
def read {α : Type} (target : String) (decode : Decoder α) (value : Json) : Except Error α :=
  let value := match value with
    | .null => .obj []
    | value => value
  match decode value with
  | .ok result => .ok result
  | .error cause => .error { target, cause }

end TreeRules.Configuration
