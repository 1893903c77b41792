import Disassembly.Listing.Instruction
import Disassembly.Listing.Line
import Disassembly.Memory.Space
import Disassembly.Text.Lines

/-!
From the text of a listing to its instructions.
-/

namespace Disassembly.Listing

open Memory

/-- The instruction on a line, at its canonical address. Lines outside executable memory are
skipped like lines that hold no instruction. -/
def instructionOfLine? (space : AddressSpace) (line : List Char) :
    Except Fault (Option Instruction) :=
  match Line.parse? line with
  | none => .ok none
  | some parsed =>
    let address := space.canonical parsed.address
    if space.isExecutable address then
      (Instruction.decode address parsed.mnemonic parsed.operands).map some
    else .ok none

/-- The instructions of a listing in order. The first line that cannot be decoded fails it all. -/
def parse (space : AddressSpace) (text : String) : Except Fault (List Instruction) := do
  let found ← (Text.lines text.toList).mapM (instructionOfLine? space)
  return found.filterMap id

end Disassembly.Listing
