/-!
Floating-point numbers of 64 bits, without their sign.

A number is a significand of 53 bits times a power of two. Arithmetic rounds the exact result to the
nearest number, and a tie goes to the even significand. Exponents have a lower limit, below which
numbers lose bits and end in zero; the upper limit is not part of the arithmetic but a property of
its result, `isFinite`.
-/

namespace Disassembly.Decimal

/-- `num / den` as a whole number: the nearest, and of two that are equally near the even one. -/
def roundDiv (num den : Nat) : Nat :=
  let quotient := num / den
  let twiceRest := 2 * (num % den)
  if den < twiceRest ∨ (twiceRest = den ∧ quotient % 2 = 1) then quotient + 1 else quotient

/-- `n` times two to the given power; negative powers leave it alone. -/
def timesTwo (n : Nat) (power : Int) : Nat :=
  n <<< power.toNat

/-- The power of two at or below `num / den`. -/
def binaryMagnitude (num den : Nat) : Int :=
  let power := (num.log2 : Int) - den.log2
  if timesTwo den power ≤ timesTwo num (-power) then power else power - 1

/-- The number `significand * 2 ^ exponent`. Significands have 53 bits, and fewer only at the least
exponent. -/
structure Binary64 where
  significand : Nat
  exponent : Int
  deriving DecidableEq, Repr

namespace Binary64

def leastExponent : Int := -1074

def greatestExponent : Int := 971

/-- The least significand of 53 bits. -/
def leastNormal : Nat := 0x10000000000000

/-- The number nearest to `num / den`. -/
def round (num den : Nat) : Binary64 :=
  if num = 0 then ⟨0, leastExponent⟩
  else
    let wanted := binaryMagnitude num den - 52
    let exponent := if wanted < leastExponent then leastExponent else wanted
    let significand := roundDiv (timesTwo num (-exponent)) (timesTwo den exponent)
    if significand = 2 * leastNormal then ⟨leastNormal, exponent + 1⟩ else ⟨significand, exponent⟩

def isFinite (x : Binary64) : Bool :=
  x.exponent ≤ greatestExponent

def ofNat (n : Nat) : Binary64 :=
  round n 1

/-! The exact value is `numerator / denominator`. -/

def numerator (x : Binary64) : Nat :=
  timesTwo x.significand x.exponent

def denominator (x : Binary64) : Nat :=
  timesTwo 1 (-x.exponent)

def mul (x y : Binary64) : Binary64 :=
  round (x.numerator * y.numerator) (x.denominator * y.denominator)

def div (x y : Binary64) : Binary64 :=
  round (x.numerator * y.denominator) (x.denominator * y.numerator)

def powerOfTen (power : Nat) : Binary64 :=
  ofNat (Nat.pow 10 power)

/-- `x * 10 ^ power`, if that is finite. One operation with a power of ten gives the result as long
as that power is finite itself; lower powers are applied in parts, and each operation rounds. -/
def scale? (x : Binary64) (power : Int) : Option Binary64 :=
  if x.significand = 0 then some x
  else if 308 < power then none
  else if 0 ≤ power then
    let scaled := x.mul (powerOfTen power.toNat)
    if scaled.isFinite then some scaled else none
  else if -308 ≤ power then some (x.div (powerOfTen (-power).toNat))
  else scale? (x.div (powerOfTen 308)) (power + 308)
  termination_by power.natAbs

end Binary64

end Disassembly.Decimal
