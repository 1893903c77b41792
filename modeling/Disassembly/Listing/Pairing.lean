import Disassembly.Listing.Instruction
import Std.Data.TreeSet

/-!
Delay slots.

The instruction after a control transfer executes before the transfer takes effect. Pairing moves it
in front of the transfer, at the transfer's address, and records that its own address is a delay
slot; a `nop` in a delay slot is dropped. Transfers that are already paired stay as they are.
-/

namespace Disassembly.Listing

/-- A program under pairing. `held` is a control transfer that waits for its delay slot. -/
structure Pairing where
  held : Option Instruction := none
  program : Array Instruction := #[]
  delaySlots : Std.TreeSet UInt32 := {}

namespace Pairing

def emit (p : Pairing) (i : Instruction) : Pairing :=
  { p with program := p.program.push i }

/-- Completes the held transfer with the instruction in its delay slot. -/
def fill (p : Pairing) (control filler : Instruction) : Pairing :=
  let slot := filler.listedAddress
  let paired := { control with delaySlot := some slot }
  let p := { p with held := none, delaySlots := p.delaySlots.insert slot }
  if filler.mnemonic.isNop then p.emit paired
  else (p.emit { filler with address := control.address }).emit { paired with opensBlock := false }

/-- Takes the next instruction of the listing. -/
def step (p : Pairing) (i : Instruction) : Except Fault Pairing :=
  match p.held with
  | none =>
    if i.delaySlot.isNone && i.isControl then .ok { p with held := some i } else .ok (p.emit i)
  | some control =>
    if i.isControl then .error (.doubleDelay control.listedAddress i.listedAddress)
    else .ok (p.fill control i)

/-- A transfer at the end of the listing is emitted without its delay slot. -/
def finish (p : Pairing) : Pairing :=
  match p.held with
  | none => p
  | some control => { p with held := none }.emit control

/-- Pairs a whole listing. -/
def ofInstructions (instructions : List Instruction) : Except Fault Pairing := do
  let p ← instructions.foldlM step {}
  return p.finish

end Pairing

end Disassembly.Listing
