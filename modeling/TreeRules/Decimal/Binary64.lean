import TreeRules.Decimal.Powers

/-!
Binary floating-point numbers of 64 bits, read as `m · 2 ^ q` with natural `m`, the one nearest to a
given fraction, and rounded products and quotients.
-/

namespace TreeRules.Decimal

/-- A finite number in the 64-bit binary format, by its bits. -/
structure Binary64 where
  bits : UInt64
deriving DecidableEq, Repr

namespace Binary64

def isNegative (x : Binary64) : Bool := x.bits.toNat / twoTo 63 == 1

def exponentField (x : Binary64) : Nat := x.bits.toNat / twoTo 52 % twoTo 11

def fraction (x : Binary64) : Nat := x.bits.toNat % twoTo 52

/-- The `m` of the absolute value `m · 2 ^ q`. -/
def significand (x : Binary64) : Nat :=
  if x.exponentField = 0 then x.fraction else twoTo 52 + x.fraction

/-- The `q` of the absolute value `m · 2 ^ q`. -/
def exponent (x : Binary64) : Int :=
  if x.exponentField = 0 then -1074 else (x.exponentField : Int) - 1075

/-- The nearest natural number to `num / den`; a half goes to the even neighbour. -/
def roundDiv (num den : Nat) : Nat :=
  let quotient := num / den
  let rest := 2 * (num % den)
  if rest < den then quotient
  else if den < rest then quotient + 1
  else quotient + quotient % 2

/-- `num / den` divided by `2 ^ q`, as a fraction. -/
def scaleDown (num den : Nat) (q : Int) : Nat × Nat :=
  if 0 ≤ q then (num, den * twoTo q.toNat) else (num * twoTo (-q).toNat, den)

/-- The largest `k` with `2 ^ k ≤ num / den`, for positive `num` and `den`. -/
def binaryOrder (num den : Nat) : Int :=
  let guess : Int := (num.log2 : Int) - den.log2
  let (top, bottom) := scaleDown num den guess
  if bottom ≤ top then guess else guess - 1

/-- The number nearest to `num / den`, a tie going to the even significand; nothing if that is too
large for the format. -/
def ofFraction? (num den : Nat) : Option Binary64 :=
  if num = 0 then some ⟨0⟩
  else
    let q := max (binaryOrder num den - 52) (-1074)
    let (top, bottom) := scaleDown num den q
    let m := roundDiv top bottom
    let bits := if m < twoTo 52 then m else (q + 1075).toNat * twoTo 52 + (m - twoTo 52)
    if bits < twoTo 63 - twoTo 52 then some ⟨.ofNat bits⟩ else none

def ofNat? (n : Nat) : Option Binary64 := ofFraction? n 1

def times? (x y : Binary64) : Option Binary64 :=
  let (num, den) := scaleDown (x.significand * y.significand) 1 (-(x.exponent + y.exponent))
  ofFraction? num den

def over? (x y : Binary64) : Option Binary64 :=
  let (num, den) := scaleDown x.significand y.significand (y.exponent - x.exponent)
  ofFraction? num den

def withSign (negative : Bool) (x : Binary64) : Binary64 :=
  if negative then ⟨.ofNat (twoTo 63 + x.bits.toNat)⟩ else x

end Binary64

end TreeRules.Decimal
