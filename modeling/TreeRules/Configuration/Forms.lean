import TreeRules.Configuration.Decoder

/-!
Some configurations that contexts ask for: a greeting, a labelled counter, a closed record with a
record inside, and a choice of speed.
-/

namespace TreeRules.Configuration

/-- A text that may be left out. -/
structure Greeting where
  message : String := ""
deriving DecidableEq, Repr

namespace Greeting

/-- The shape of a greeting under a type name of its own. -/
def shape (name : String) : Shape Greeting where
  name := name
  blank := {}
  fields :=
    [{ name := "message"
       store := fun value greeting => do return { greeting with message := ← Decoder.string value }
       optionalInObject := true
       optionalInArray := true }]

def toJson (greeting : Greeting) : Json := .obj [("message", .str greeting.message)]

end Greeting

/-- A name and a count, which must be given, and a flag, which an object may leave out. -/
structure Counter where
  name : String := ""
  count : Int := 0
  flag : Option Bool := none
deriving DecidableEq, Repr

namespace Counter

def shape : Shape Counter where
  name := "Required"
  blank := {}
  fields :=
    [{ name := "name"
       store := fun value counter => do return { counter with name := ← Decoder.string value } },
     { name := "count"
       store := fun value counter => do
         return { counter with count := ← IntegerRange.unsigned8.decode value } },
     { name := "flag"
       store := fun value counter => do
         return { counter with flag := ← Decoder.option Decoder.bool value }
       optionalInObject := true }]

def toJson (counter : Counter) : Json :=
  .obj [("count", .int counter.count), ("flag", .optional .bool counter.flag),
    ("name", .str counter.name)]

end Counter

/-- A level and a greeting inside, both of which may be left out; nothing else may be given. -/
structure Levelled where
  level : Int := 0
  inner : Option Greeting := none
deriving DecidableEq, Repr

namespace Levelled

def shape : Shape Levelled where
  name := "Closed"
  blank := {}
  closed := true
  fields :=
    [{ name := "level"
       store := fun value levelled => do
         return { levelled with level := ← IntegerRange.signed64.decode value }
       optionalInObject := true
       optionalInArray := true },
     { name := "inner"
       store := fun value levelled => do
         return { levelled with inner := ← Decoder.option (Greeting.shape "Message").decode value }
       optionalInObject := true
       optionalInArray := true }]

def toJson (levelled : Levelled) : Json :=
  .obj [("inner", .optional Greeting.toJson levelled.inner), ("level", .int levelled.level)]

end Levelled

/-- A speed: one of two fixed ones, or a number. -/
inductive Speed where
  | fast
  | slow
  | custom (value : Int)
deriving DecidableEq, Repr

namespace Speed

def decode : Decoder Speed :=
  Variant.decode
    [("fast", .alone fast), ("slow", .alone slow),
     ("custom", .holding fun value => (IntegerRange.unsigned16.decode value).map custom)]

def toJson : Speed → Json
  | fast => .str "fast"
  | slow => .str "slow"
  | custom value => .obj [("custom", .int value)]

end Speed

end TreeRules.Configuration
