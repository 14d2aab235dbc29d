import TreeRules.Decimal.Scaled

/-!
The shortest decimal that reads back as a given binary number, and its text. Among the decimals of
the fewest digits that lie in the interval of reals rounding to the number, the nearest one is taken.
-/

namespace TreeRules.Decimal

namespace Binary64

/-- The absolute value and the two ends of the interval that rounds to it, in units of
`2 ^ (exponent - 2)`. Below a power of two the neighbours are half as far. -/
def interval (x : Binary64) : Nat × Nat × Nat :=
  let m := x.significand
  let below := if x.fraction = 0 ∧ 1 < x.exponentField then 1 else 2
  (4 * m - below, 4 * m, 4 * m + 2)

/-- Compares `units · 2 ^ unitPower` with `digits · 10 ^ power`. -/
def compareUnits (units : Nat) (unitPower : Int) (digits : Nat) (power : Int) : Ordering :=
  let left := units * twoTo unitPower.toNat * tenTo (-power).toNat
  let right := digits * tenTo power.toNat * twoTo (-unitPower).toNat
  compare left right

/-- Whether a decimal reads back as the number. The ends of the interval belong to it exactly when
the significand is even. -/
def readsBack (x : Binary64) (decimal : Scaled) : Bool :=
  let (low, _, high) := x.interval
  let unit := x.exponent - 2
  let above := compareUnits low unit decimal.digits decimal.power
  let below := compareUnits high unit decimal.digits decimal.power
  if x.significand % 2 = 0 then above != .gt && below != .lt else above == .lt && below == .gt

/-- The absolute value in units of `10 ^ power`, rounded down, and whether the next unit is nearer;
on a tie the even one of the two counts as nearer. -/
def gridFloor (x : Binary64) (power : Int) : Nat × Bool :=
  let num := x.significand * twoTo x.exponent.toNat * tenTo (-power).toNat
  let den := tenTo power.toNat * twoTo (-x.exponent).toNat
  (num / den, Binary64.roundDiv num den != num / den)

/-- The power of ten of the leading digit of a number that is not zero. -/
def decimalOrder (x : Binary64) : Int :=
  ((Nat.toDigits 10 (x.gridFloor (-400)).1).length : Int) - 401

/-- The neighbours of the number on the grid of multiples of `10 ^ power`, the nearer one first. -/
def gridNeighbours (x : Binary64) (power : Int) : List Scaled :=
  let (floor, upper) := x.gridFloor power
  if upper then [⟨floor + 1, power⟩, ⟨floor, power⟩] else [⟨floor, power⟩, ⟨floor + 1, power⟩]

/-- The first decimal that reads back, on ever finer grids. -/
def shortestFrom (x : Binary64) (power : Int) : Nat → Scaled
  | 0 => ⟨(x.gridFloor power).1, power⟩
  | steps + 1 =>
    match (x.gridNeighbours power).find? x.readsBack with
    | some decimal => decimal
    | none => x.shortestFrom (power - 1) steps

/-- The shortest decimal of the absolute value of a number that is not zero. Seventeen digits always
read back, so eighteen steps from above the leading digit are enough. -/
def shortest (x : Binary64) : Scaled :=
  x.shortestFrom (x.decimalOrder + 1) 19

end Binary64

/-- How the text of a number is laid out: which powers of the leading digit are written without an
exponent. -/
structure NumberLayout where
  leastPositional : Int
  greatestPositional : Int

namespace NumberLayout

/-- Numbers from `0.00001` up to sixteen integral digits are written without an exponent. -/
def standard : NumberLayout where
  leastPositional := -5
  greatestPositional := 15

def zeros (count : Nat) : List Char := List.replicate count '0'

/-- Digits with a point after the leading `whole` of them, zeros filling in where there are none. -/
def positional (digits : List Char) (whole : Int) : List Char :=
  if whole ≤ 0 then '0' :: '.' :: (zeros (-whole).toNat ++ digits)
  else
    let whole := whole.toNat
    if digits.length ≤ whole then digits ++ zeros (whole - digits.length) ++ ['.', '0']
    else digits.take whole ++ '.' :: digits.drop whole

/-- Digits with a point after the leading one and an exponent, which has a sign in any case. -/
def scientific (digits : List Char) (order : Int) : List Char :=
  digits.take 1 ++ (if digits.length = 1 then [] else '.' :: digits.drop 1) ++
    ['e', if order < 0 then '-' else '+'] ++ Nat.toDigits 10 order.natAbs

def render (layout : NumberLayout) (x : Binary64) : String :=
  let sign := if x.isNegative then ['-'] else []
  if x.significand = 0 then String.ofList (sign ++ ['0', '.', '0'])
  else
    let decimal := x.shortest
    let written := Nat.toDigits 10 decimal.digits
    let order := decimal.power + written.length - 1
    let digits := (written.reverse.dropWhile (· == '0')).reverse
    let text :=
      if layout.leastPositional ≤ order ∧ order ≤ layout.greatestPositional then
        positional digits (order + 1)
      else scientific digits order
    String.ofList (sign ++ text)

end NumberLayout

end TreeRules.Decimal
