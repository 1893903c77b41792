import Disassembly.Listing.Parse
import Disassembly.Output.Render

/-!
The whole way from a listing and a firmware image to the annotated listing.
-/

namespace Disassembly

open Output Listing

/-- A listing that has been analysed without fault. -/
structure Analysis where
  symbols : Symbols
  program : Program

namespace Analysis

def ofInstructions (annotations : Annotations) (firmware : Array UInt8)
    (listing : List Instruction) : Except NoValue Analysis := do
  let symbols ← Symbols.build annotations firmware (annotations.functionSet listing)
  let program ← Program.reconstruct symbols listing
  return { symbols, program }

def renderer (analysis : Analysis) : Renderer where
  program := analysis.program
  symbols := analysis.symbols

/-- What is reported about an analysis. -/
def report (analysis : Analysis) : List String :=
  let p := analysis.program
  ["Reconstructed " ++ Nat.repr p.instructions.length ++ " instructions: " ++
    Nat.repr p.blockStarts.size ++ " basic blocks, " ++
    Nat.repr analysis.symbols.functions.size ++ " functions, " ++
    Nat.repr p.delaySlots.size ++ " delay slots"] ++
  (if p.entryCount > 0 then ["Resolved " ++ Nat.repr p.entryCount ++ " jump-table entries"] else [])

end Analysis

/-- Why a listing was not processed to its end, with what the sink holds. -/
inductive ProcessFault where
  /-- The listing has no analysis. -/
  | analysis (reason : NoValue) (sink : Sink)
  /-- The sink was full. -/
  | full (sink : Sink)

def analyse (annotations : Annotations) (firmware : Array UInt8) (listing : String) :
    Except NoValue Analysis := do
  let instructions ← (Listing.parse annotations.space listing).mapError .fault
  Analysis.ofInstructions annotations firmware instructions

/-- Analyses a listing and writes it to a sink. -/
def process (annotations : Annotations) (firmware : Array UInt8) (listing : String) (sink : Sink) :
    Except ProcessFault Sink :=
  match analyse annotations firmware listing with
  | .error reason => .error (.analysis reason sink)
  | .ok analysis =>
    match analysis.renderer.run sink with
    | .ok progress => .ok progress.sink
    | .error progress => .error (.full progress.sink)

end Disassembly
