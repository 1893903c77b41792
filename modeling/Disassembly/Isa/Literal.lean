import Disassembly.Isa.Register

/-!
How immediates and words are written in pseudo-code.
-/

namespace Disassembly.Isa

/-- The low 32 bits of `value` as `0x` and eight digits; a negative value shows in two's
complement. -/
def hexLiteral (value : Int) : String :=
  Text.hexWord (UInt32.ofInt value)

/-- The low 16 bits as a signed number, widened to a word. -/
def signExtendHalf (immediate : Int32) : UInt32 :=
  immediate.toInt16.toInt32.toUInt32

/-- A displacement after a base register: `+8`, `-4`, or nothing. -/
def displacementText (immediate : Int32) : String :=
  if immediate = 0 then ""
  else if 0 < immediate then "+" ++ Int.repr immediate.toInt
  else Int.repr immediate.toInt

/-- The immediate of a comparison: decimal, its sign-extended word, and the character if the value
is that of one. -/
def comparandText (immediate : Int32) : String :=
  Int.repr immediate.toInt ++ " /* " ++ hexLiteral (signExtendHalf immediate).toNat ++
    (if 0x20 ≤ immediate ∧ immediate ≤ 0x7f then
      " '" ++ String.singleton (Char.ofNat immediate.toInt.toNat) ++ "'"
    else "") ++ " */"

/-- The number of a special purpose register with its five-bit group and eleven-bit index. -/
def sprNumberText (k : Int32) : String :=
  hexLiteral (k &&& 0xffff).toInt ++ " /* grp = " ++ Int.repr ((k >>> 11) &&& 0x1f).toInt ++
    ", reg = " ++ Int.repr (k &&& 0x7ff).toInt ++ " */"

/-- The special purpose register selected by `a | k`. -/
def sprText (a : Register) (k : Int32) : String :=
  if a.isZero then sprNumberText k
  else if k = 0 then a.role
  else a.role ++ " | " ++ sprNumberText k

end Disassembly.Isa
