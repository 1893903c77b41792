import Disassembly.Fault

/-!
Instructions of the program under analysis.
-/

namespace Disassembly.Listing

open Isa

structure Instruction where
  /-- Where the instruction takes effect in the reconstructed program. -/
  address : UInt32
  /-- Where the listing has it. -/
  listedAddress : UInt32
  operation : Operation
  /-- Mnemonic and operands as the listing spells them. -/
  text : String
  /-- Whether annotations of the address are written in front of this instruction. -/
  opensBlock : Bool := true
  /-- Original address of the instruction in the delay slot, once it is paired. -/
  delaySlot : Option UInt32 := none
  deriving DecidableEq, Repr

namespace Instruction

def mnemonic (i : Instruction) : Mnemonic :=
  i.operation.mnemonic

def isControl (i : Instruction) : Bool :=
  i.mnemonic.isControl

def target? (i : Instruction) : Option UInt32 :=
  i.operation.target?

/-- Decodes the instruction that the listing spells `name operands`. -/
def decode (address : UInt32) (name operands : String) : Except Fault Instruction :=
  match Mnemonic.ofName? name with
  | none => .error (.unknownMnemonic address name)
  | some m =>
    let operands := Text.trim operands.toList
    match Operation.decode m operands with
    | .error fault => .error (.ofOperands address m fault)
    | .ok operation =>
      .ok {
        address
        listedAddress := address
        operation
        text := String.ofList (Text.trimEnd (name.toList ++ ' ' :: operands)) }

/-- The instruction with its place in the listing. -/
def display (i : Instruction) : String :=
  Text.hexWord i.listedAddress ++ ": " ++ i.text

end Instruction

end Disassembly.Listing
