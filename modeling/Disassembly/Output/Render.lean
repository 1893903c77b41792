import Disassembly.Output.Line
import Disassembly.Output.Sink
import Disassembly.Pseudocode.Explain

/-!
Rendering a reconstructed program.

In front of an instruction that opens a block stands what is known about its address. Register values
are forgotten at block starts, because control may arrive from elsewhere, and after an unconditional
jump.
-/

namespace Disassembly.Output

open Listing Pseudocode

/-- A program with the names to render it by. -/
structure Renderer where
  program : Program
  symbols : Symbols

namespace Renderer

def opensBlockStart (r : Renderer) (i : Instruction) : Bool :=
  i.opensBlock && r.program.isBlockStart i.address

/-- What is known about the registers when an instruction is reached. -/
def entry (r : Renderer) (k : Knowledge) (i : Instruction) : Knowledge :=
  if r.opensBlockStart i then .unknown else k

/-- Notes on an address at which an instruction opens a block. -/
def notes (r : Renderer) (address : UInt32) : List Line :=
  (if r.program.isBlockStart address then [.separator] else []) ++
    (if r.symbols.isFunction address then [.banner] else []) ++
    (r.program.references[address]?.toList.map .references) ++
    (((r.program.tableEntries[address]?).getD []).map .entry)

/-- The lines in front of an instruction: its notes if it opens a block, and its configured name. -/
def heading (r : Renderer) (i : Instruction) : List Line :=
  (if i.opensBlock then r.notes i.address else []) ++
    (if r.symbols.label i.address != r.symbols.numericLabel i.address then
      [.name (r.symbols.label i.address)]
    else [])

/-- The line of an instruction that is reached with `k`. -/
def body (r : Renderer) (k : Knowledge) (i : Instruction) : Line :=
  .instruction (r.symbols.numericLabel i.address) ((explain k i.operation).1.text r.symbols) i.text

/-- What is known after an instruction that is reached with `k`, once its line is written. -/
def leave (k : Knowledge) (i : Instruction) : Knowledge :=
  if i.mnemonic = .branch .j then .unknown else (explain k i.operation).2

/-- All lines of one instruction. -/
def lines (r : Renderer) (k : Knowledge) (i : Instruction) : List Line :=
  r.heading i ++ [r.body (r.entry k i) i]

/-- What is known after an instruction. -/
def next (r : Renderer) (k : Knowledge) (i : Instruction) : Knowledge :=
  leave (r.entry k i) i

/-- All lines of a run of instructions that is reached with `k`. -/
def linesFrom (r : Renderer) (k : Knowledge) : List Instruction → List Line
  | [] => []
  | i :: rest => r.lines k i ++ r.linesFrom (r.next k i) rest

/-- What is known after a run of instructions. -/
def knowledgeAfter (r : Renderer) (k : Knowledge) (instructions : List Instruction) : Knowledge :=
  instructions.foldl r.next k

/-- Output so far, and what is known about the registers at this point. -/
structure Progress where
  sink : Sink
  knowledge : Knowledge

/-- Writes a line, piece by piece. -/
def Progress.write (p : Progress) (line : Line) : Except Progress Progress :=
  match p.sink.writeAll line.pieces with
  | .ok sink => .ok { p with sink }
  | .error sink => .error { p with sink }

/-- Renders one instruction to the sink. When the sink is full, the error holds how far it got: the
instruction takes effect after its heading is written and before its own line is. -/
def step (r : Renderer) (p : Progress) (i : Instruction) : Except Progress Progress := do
  let entered := { p with knowledge := r.entry p.knowledge i }
  let headed ← (r.heading i).foldlM Progress.write entered
  let explained := { headed with knowledge := (explain entered.knowledge i.operation).2 }
  let finished ← explained.write (r.body entered.knowledge i)
  return { finished with knowledge := leave entered.knowledge i }

/-- Renders the whole program to a sink. -/
def run (r : Renderer) (sink : Sink) : Except Progress Progress :=
  r.program.instructions.foldlM r.step { sink, knowledge := .unknown }

end Renderer

end Disassembly.Output
