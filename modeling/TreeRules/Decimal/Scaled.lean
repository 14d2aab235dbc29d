import TreeRules.Decimal.Binary64

/-!
Decimal numbers `digits · 10 ^ power`, and the binary numbers that are read for them. Digits are read
into 64 bits; those, and the power of ten, are rounded to binary numbers, and their product or
quotient is rounded again. So what is read lies near the decimal number but need not be the number
nearest to it.
-/

namespace TreeRules.Decimal

/-- The decimal number `digits · 10 ^ power`. -/
structure Scaled where
  digits : Nat
  power : Int
deriving DecidableEq, Repr

namespace Scaled

def zero : Scaled := ⟨0, 0⟩

/-- Puts a digit behind the others, if they all fit 64 bits then. -/
def push? (number : Scaled) (digit : Nat) : Option Nat :=
  let digits := number.digits * 10 + digit
  if digits < twoTo 64 then some digits else none

/-- Reads digits before the point. From the first one on that does not fit, they count as zeros. -/
def addWhole (number : Scaled) : List Nat → Scaled
  | [] => number
  | digit :: rest =>
    match number.push? digit with
    | some digits => addWhole { number with digits } rest
    | none => { number with power := number.power + (rest.length + 1) }

/-- Reads digits behind the point. From the first one on that does not fit, they are dropped. -/
def addPart (number : Scaled) : List Nat → Scaled
  | [] => number
  | digit :: rest =>
    match number.push? digit with
    | some digits => addPart ⟨digits, number.power - 1⟩ rest
    | none => number

/-- The decimal number with some digits before the point, some behind it, and an exponent. -/
def ofDigits (whole part : List Nat) (exponent : Int) : Scaled :=
  let number := (zero.addWhole whole).addPart part
  { number with power := number.power + exponent }

/-- The largest power of ten that a binary number is multiplied with or divided by at once. -/
def stepLimit : Nat := 308

/-- A binary number times a power of ten; nothing if it is too large. Large negative powers are taken
step by step. -/
def scale? (x : Binary64) (power : Int) : Option Binary64 :=
  if power.natAbs ≤ stepLimit then do
    let ten ← Binary64.ofNat? (tenTo power.natAbs)
    if 0 ≤ power then x.times? ten else x.over? ten
  else if x.significand = 0 then some x
  else if 0 ≤ power then none
  else do
    let smaller ← x.over? (← Binary64.ofNat? (tenTo stepLimit))
    scale? smaller (power + stepLimit)
termination_by power.natAbs
decreasing_by
  simp only [stepLimit] at *
  omega

/-- The binary number that is read for a decimal number; nothing if it is too large. -/
def toBinary? (number : Scaled) : Option Binary64 := do
  scale? (← Binary64.ofNat? number.digits) number.power

end Scaled

end TreeRules.Decimal
