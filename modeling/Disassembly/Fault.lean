import Disassembly.Isa.Operation

/-!
What can go wrong while a listing is analysed. Every fault ends the analysis. A table without an end
is no fault: the analysis goes on reading it and never returns.
-/

namespace Disassembly

inductive Fault where
  | unknownMnemonic (address : UInt32) (mnemonic : String)
  | operandCount (address : UInt32) (mnemonic : Isa.Mnemonic) (expected found : Nat)
  | malformedOperand (address : UInt32) (operand : String) (expected : Isa.OperandKind)
  /-- A table runs past the end of the image. -/
  | bounds (address : UInt32) (length : Nat)
  /-- Two control transfers follow each other, so the second is in the delay slot of the first. -/
  | doubleDelay (first second : UInt32)
  | jumpToDelaySlot (origin target : UInt32)
  deriving DecidableEq, Repr

namespace Fault

open Text in
def message : Fault → String
  | .unknownMnemonic address mnemonic =>
    hexWord address ++ ": unknown instruction `" ++ mnemonic ++ "`"
  | .operandCount address mnemonic expected found =>
    hexWord address ++ ": `" ++ mnemonic.name ++ "` takes " ++ Nat.repr expected ++
      " operand(s), found " ++ Nat.repr found
  | .malformedOperand address operand expected =>
    hexWord address ++ ": invalid operand `" ++ operand ++ "` (expected " ++
      expected.description ++ ")"
  | .bounds address length =>
    "read at " ++ hexWord address ++ " is outside the " ++ hexShort length ++ "-byte image"
  | .doubleDelay first second =>
    hexWord second ++ ": control transfer in the delay slot of " ++ hexWord first
  | .jumpToDelaySlot origin target =>
    hexWord origin ++ ": branch target " ++ hexWord target ++ " is a delay slot"

/-- The fault of an instruction at `address` whose operands could not be decoded. -/
def ofOperands (address : UInt32) (mnemonic : Isa.Mnemonic) : Isa.OperandFault → Fault
  | .count expected found => .operandCount address mnemonic expected found
  | .malformed operand expected => .malformedOperand address (String.ofList operand) expected

end Fault

/-- Why a computation that reads tables has no value. -/
inductive NoValue where
  /-- It ends with a fault. -/
  | fault (fault : Fault)
  /-- It comes to a table that has no end, and does not end itself. -/
  | endless
  deriving DecidableEq, Repr

end Disassembly
