import Disassembly.Decimal.Shortest
import Disassembly.Text.Digit

/-!
Numbers where something else was wanted, as messages show them.

Whole numbers that fit 64 bits are shown as they are. All others are floating point, and are shown
by the shortest digits that read back: in positional notation near the point, with an exponent far
from it.
-/

namespace Disassembly.Json

open Decimal (Binary64)

inductive Number where
  | whole (negative : Bool) (magnitude : Nat)
  | float (negative : Bool) (magnitude : Binary64)
  deriving DecidableEq, Repr

/-- A number as it is written, digit by digit and without its sign. -/
structure Numeral where
  integer : List Nat
  fraction : List Nat := []
  /-- The exponent, for a number written with one. -/
  exponent : Option Int := none
  deriving DecidableEq, Repr

namespace Numeral

def isZero (n : Numeral) : Bool :=
  (n.integer ++ n.fraction).all (· == 0)

/-- Appends digits to a number as long as it fits 64 bits, and returns the digits that are left. -/
def append : Nat → List Nat → Nat × List Nat
  | value, [] => (value, [])
  | value, digit :: digits =>
    if 10 * value + digit < UInt64.size then append (10 * value + digit) digits
    else (value, digit :: digits)

/-- The leading digits as a number of 64 bits, and the power of ten that it is to be scaled by.
Digits that do not fit count as zeros in front of the point and not at all behind it. -/
def significand (n : Numeral) : Nat × Int :=
  let (whole, dropped) := append 0 n.integer
  let (value, ignored) := append whole n.fraction
  let places := n.fraction.length - ignored.length
  (value, (dropped.length : Int) - places + n.exponent.getD 0)

/-- Whether a number is whole in writing and fits 64 bits with its sign; `-0` has no such form. -/
def isWhole (negative : Bool) (n : Numeral) : Bool :=
  let value := Text.ofDigits 10 n.integer
  n.fraction.isEmpty && n.exponent.isNone &&
    if negative then 0 < value && value ≤ 0x8000000000000000 else value < UInt64.size

/-- What a numeral stands for, unless it is too large. -/
def value? (negative : Bool) (n : Numeral) : Option Number :=
  if n.isWhole negative then some (.whole negative (Text.ofDigits 10 n.integer))
  else
    let (value, power) := n.significand
    ((Binary64.ofNat value).scale? power).map (.float negative)

end Numeral

namespace Number

def zeros (count : Int) : List Char :=
  List.replicate count.toNat '0'

/-- Digits with the point after the first `point` of them. An exponent is written with its sign when
the point is more than sixteen digits to the right or more than four zeros to the left. -/
def layout (digits : List Char) (point : Int) : List Char :=
  let count : Int := digits.length
  if count ≤ point ∧ point ≤ 16 then digits ++ zeros (point - count) ++ ['.', '0']
  else if 0 < point ∧ point ≤ 16 then
    digits.take point.toNat ++ ['.'] ++ digits.drop point.toNat
  else if -5 < point ∧ point ≤ 0 then ['0', '.'] ++ zeros (-point) ++ digits
  else
    digits.take 1 ++ (if digits.length = 1 then [] else ['.']) ++ digits.drop 1 ++
      ['e', if point < 1 then '-' else '+'] ++ Nat.toDigits 10 (point - 1).natAbs

def floatText (x : Binary64) : List Char :=
  if x.significand = 0 then ['0', '.', '0']
  else
    let (count, power) := x.shortest
    let digits := Nat.toDigits 10 count
    layout (digits.reverse.dropWhile (· == '0')).reverse (digits.length + power)

def sign (negative : Bool) : String :=
  if negative then "-" else ""

def describe : Number → String
  | whole negative magnitude => "integer `" ++ sign negative ++ Nat.repr magnitude ++ "`"
  | float negative magnitude =>
    "floating point `" ++ sign negative ++ String.ofList (floatText magnitude) ++ "`"

end Number

end Disassembly.Json
