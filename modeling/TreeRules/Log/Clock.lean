/-!
What a clock shows: the seconds that have passed, for ages, and the date and time of day, for
stamps.
-/

namespace TreeRules.Log

structure Calendar where
  year : Nat := 0
  month : Nat := 0
  day : Nat := 0
  hour : Nat := 0
  minute : Nat := 0
  second : Nat := 0
  millisecond : Nat := 0
deriving DecidableEq, Repr

structure Clock where
  /-- The full seconds that have passed. -/
  seconds : Int
  /-- What has passed of the next one. -/
  fraction : Rat := 0
  calendar : Calendar

def Clock.now (clock : Clock) : Rat := clock.seconds + clock.fraction

namespace Calendar

/-- A number with zeros before it, to a width. -/
def padded (width value : Nat) : String :=
  let digits := Nat.toDigits 10 value
  String.ofList (List.replicate (width - digits.length) '0' ++ digits)

def lineStamp (moment : Calendar) : String :=
  padded 4 moment.year ++ "-" ++ padded 2 moment.month ++ "-" ++ padded 2 moment.day ++ "T" ++
    padded 2 moment.hour ++ ":" ++ padded 2 moment.minute ++ ":" ++ padded 2 moment.second ++ "." ++
    padded 3 moment.millisecond ++ "Z"

def nameStamp (moment : Calendar) : String :=
  padded 4 moment.year ++ padded 2 moment.month ++ padded 2 moment.day ++ "-" ++
    padded 2 moment.hour ++ padded 2 moment.minute ++ padded 2 moment.second

end Calendar

end TreeRules.Log
