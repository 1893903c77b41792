import Disassembly.Pseudocode.Knowledge
import Disassembly.Pseudocode.Statement

/-!
From operations to pseudo-code.

Explaining follows the values of registers through straight-line code. An operation on known values
is folded: the statement shows the result, and the result is known from then on. Multiplication,
logical right shifts and rotations are never folded.
-/

namespace Disassembly.Pseudocode

open Isa

/-- The operation on words that an immediate form carries out. -/
def aluOf : AluImmediate → Alu
  | .addi => .add
  | .andi => .and
  | .xori => .xor
  | .ori => .or
  | .slli => .sll
  | .srai => .sra
  | .srli => .srl
  | .rori => .ror

/-- The result of an operation on known values, if it is folded. Shift amounts count modulo 32. -/
def fold? (op : Alu) (x y : Int32) : Option Int32 :=
  match op with
  | .add => some (x + y)
  | .sub => some (x - y)
  | .and => some (x &&& y)
  | .xor => some (x ^^^ y)
  | .or => some (x ||| y)
  | .sll => some (x <<< y)
  | .sra => some (x >>> y)
  | .mul | .srl | .ror => none

/-- What an operation on registers computes; adding to or subtracting from `r0` is simplified. -/
def symbolic (op : Alu) (a b : Register) : Expression :=
  match op with
  | .add => if a.isZero then .copy b else .apply .add a (.register b)
  | .sub => if a.isZero then .negate b else .apply .sub a (.register b)
  | op => .apply op a (.register b)

/-- What an operation with an immediate computes. Logical operations show the immediate as the
16-bit field it comes from, extended to a word. -/
def symbolicImmediate (op : AluImmediate) (a : Register) (i : Int32) : Expression :=
  match op with
  | .addi =>
    if i < 0 then .apply .sub a (.decimal (-i.toInt))
    else if i = 0 then .copy a
    else .apply .add a (.decimal i.toInt)
  | .andi => .apply .and a (.word (i &&& 0xffff).toUInt32)
  | .xori => .apply .xor a (.word (signExtendHalf i))
  | .ori => if i = 0 then .copy a else .apply .or a (.word (i &&& 0xffff).toUInt32)
  | .slli => .apply .sll a (.decimal i.toInt)
  | .srai => .apply .sra a (.decimal i.toInt)
  | .srli => .apply .srl a (.decimal i.toInt)
  | .rori => .apply .ror a (.decimal i.toInt)

/-- The folded result of an operation on registers. -/
def folded? (k : Knowledge) (op : Alu) (a b : Register) : Option Int32 := do
  fold? op (← k.get? a) (← k.get? b)

/-- The folded result of an operation with an immediate. The immediate counts in full. -/
def foldedImmediate? (k : Knowledge) (op : AluImmediate) (a : Register) (i : Int32) :
    Option Int32 := do
  fold? (aluOf op) (← k.get? a) i

/-- Sets `d` to a result if there is one, and else to an expression of unknown value. -/
def assign (k : Knowledge) (d : Register) (result : Option Int32) (source : Expression) :
    Statement × Knowledge :=
  match result with
  | some value => (.constant d ((k.set d value).value d), k.set d value)
  | none => (.assign d source, k.forget d)

/-- A register as a source: its value if that is known. -/
def operand (k : Knowledge) (r : Register) : Operand :=
  match k.get? r with
  | some value => .known value
  | none => .register r

/-- A register as a source of which only some bits are used. -/
def maskedOperand (k : Knowledge) (r : Register) (mask : UInt32) : Operand :=
  match k.get? r with
  | some value => .known (value.toUInt32 &&& mask).toInt32
  | none => .register r

/-- The statement for an operation, and what is known after it. -/
def explain (k : Knowledge) : Operation → Statement × Knowledge
  | .alu op d a b => assign k d (folded? k op a b) (symbolic op a b)
  | .aluImmediate op d a i =>
    assign k d (foldedImmediate? k op a i) (symbolicImmediate op a i)
  | .movhi d high => (.setHigh d high, k.set d (high <<< 16))
  | .branch op target => (.branch op target, k)
  | .registerBranch op d => (.registerBranch op d, k)
  | .load op d a i => (.load op.access d a i, k.forget d)
  | .store op d a i => (.store op.access d i (maskedOperand k a op.access.mask), k)
  | .mfspr d a selector => (.sprRead d a selector, k.forget d)
  | .mtspr a b selector => (.sprWrite a selector (operand k b), k)
  | .compare relation a b => (.compare relation a b, k)
  | .compareImmediate relation a i => (.compareImmediate relation a i, k)
  | .bare op => (.verbatim op, k)

end Disassembly.Pseudocode
