import Disassembly.Text.Blank
import Disassembly.Text.Digit
import Disassembly.Text.Lines
import Disassembly.Text.Hidden
import Disassembly.Text.Extending
import Disassembly.Text.Quoted
import Disassembly.Text.Escaped
import Disassembly.Text.Utf8
import Disassembly.Decimal.Binary64
import Disassembly.Decimal.Shortest
import Disassembly.Isa.Register
import Disassembly.Isa.Mnemonic
import Disassembly.Isa.Literal
import Disassembly.Isa.Operation
import Disassembly.Fault
import Disassembly.Memory.Space
import Disassembly.Memory.Image
import Disassembly.Listing.Instruction
import Disassembly.Listing.Line
import Disassembly.Listing.Parse
import Disassembly.Listing.Pairing
import Disassembly.Pseudocode.Knowledge
import Disassembly.Json.Fault
import Disassembly.Json.Number
import Disassembly.Json.Reader
import Disassembly.Json.Shape
import Disassembly.Files
import Disassembly.Config.Fault
import Disassembly.Config.Basic
import Disassembly.Config.Address
import Disassembly.Config.Parse
import Disassembly.Config.Load
import Disassembly.Symbols
import Disassembly.Program
import Disassembly.Pseudocode.Statement
import Disassembly.Pseudocode.Explain
import Disassembly.Output.Line
import Disassembly.Output.Sink
import Disassembly.Output.Render
import Disassembly.Process
import Disassembly.Input
import Disassembly.CommandLine
import Disassembly.Main
import Disassembly.Proofs.FailurePropagation
import Disassembly.Proofs.Pairing
import Disassembly.Proofs.Execution
import Disassembly.Proofs.Reconstruction
import Disassembly.Proofs.Rendering
import Disassembly.Proofs.Placement
import Disassembly.Proofs.Annotation
import Disassembly.Proofs.Locality
import Disassembly.Proofs.Mirror
import Disassembly.Proofs.Targets
import Disassembly.Proofs.Tables
import Disassembly.Proofs.Runs
import Disassembly.Proofs.Refusal
import Disassembly.Proofs.Numerals
import Disassembly.Proofs.Cutting
import Disassembly.Proofs.Operands
import Disassembly.Proofs.LineForm
import Disassembly.Proofs.RoundTrip
import Disassembly.Proofs.Naming
import Disassembly.Proofs.Calls
import Disassembly.Proofs.Hoisting
import Disassembly.Proofs.SlotAdjacency
import Disassembly.Proofs.OutputPrefix
import Disassembly.Proofs.Escapes
import Disassembly.Proofs.Precision
import Disassembly.Proofs.Readings
import Disassembly.Proofs.RangeCoverage
import Disassembly.Proofs.Labels
import Disassembly.Proofs.Composition
import Disassembly.Proofs.Announcing
import Disassembly.Proofs.OrderIndependence
import Disassembly.Proofs.ReadAhead
import Disassembly.Proofs.Histories
import Disassembly.Proofs.Literals
