import Disassembly.Decimal.Binary64

/-!
The shortest decimal that reads back as a given floating-point number.

Every number stands for an interval: the reals that round to it. Of all decimals in the interval the
shortest are those on the coarsest grid of powers of ten that has one, and on a grid it is enough to
look at the two neighbours of the number: if any point of the grid lies in the interval, then so does
one of them.
-/

namespace Disassembly.Decimal

/-- `n` times ten to the given power; negative powers leave it alone. -/
def timesTen (n : Nat) (power : Int) : Nat :=
  n * Nat.pow 10 power.toNat

def digitCount (n : Nat) : Nat :=
  (Nat.toDigits 10 n).length

/-- The power of ten at or below `num / den`. -/
def decimalMagnitude (num den : Nat) : Int :=
  if den ≤ num then (digitCount (num / den) : Int) - 1 else -(digitCount ((den - 1) / num) : Int)

namespace Binary64

/-! The interval of a number in quarters of its last binary place. A number with the least
significand is closer to its lower neighbour than to its upper one. Bounds round to the even
significand. -/

def lowerBound (x : Binary64) : Nat :=
  if x.significand = leastNormal ∧ leastExponent < x.exponent then 4 * x.significand - 1
  else 4 * x.significand - 2

def upperBound (x : Binary64) : Nat :=
  4 * x.significand + 2

def includesBounds (x : Binary64) : Bool :=
  x.significand % 2 = 0

/-- How many times `10 ^ power` goes into a decimal that reads back as `x`, the nearest of those if
there are several. -/
def onGrid? (x : Binary64) (power : Int) : Option Nat :=
  -- A step of the grid and a quarter of the last binary place, in a unit common to both.
  let step := timesTwo (timesTen 1 power) (2 - x.exponent)
  let quarter := timesTwo (timesTen 1 (-power)) (x.exponent - 2)
  let value := 4 * x.significand * quarter
  let readsBack (count : Nat) : Bool :=
    if x.includesBounds then
      x.lowerBound * quarter ≤ count * step && count * step ≤ x.upperBound * quarter
    else x.lowerBound * quarter < count * step && count * step < x.upperBound * quarter
  [roundDiv value step, value / step, value / step + 1].find? readsBack

/-- Tries `limit` grids from `10 ^ power` on to finer ones; the result is the count of steps and the
power. -/
def shortestFrom (x : Binary64) : (limit : Nat) → (power : Int) → Nat × Int
  | 0, power => (roundDiv (timesTen x.numerator (-power)) (timesTen x.denominator power), power)
  | limit + 1, power =>
    match x.onGrid? power with
    | some count => (count, power)
    | none => shortestFrom x limit (power - 1)

/-- The shortest `count * 10 ^ power` that reads back as `x`, which is not zero, and the nearest of
those. Seventeen digits always suffice. -/
def shortest (x : Binary64) : Nat × Int :=
  x.shortestFrom 16 (decimalMagnitude x.numerator x.denominator)

end Binary64

end Disassembly.Decimal
