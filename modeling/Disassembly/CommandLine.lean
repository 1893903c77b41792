import Disassembly.Config.Load
import Disassembly.Input
import Disassembly.Process

/-!
The command line: a listing, a firmware image, and a directory of annotations.
-/

namespace Disassembly.CommandLine

structure Arguments where
  listing : String
  firmware : String
  annotations : String := "annotations"
  deriving DecidableEq, Repr

/-- What is wanted when the program is not to run. -/
inductive Refusal where
  | help
  | usage
  deriving DecidableEq, Repr

/-- Arguments read so far; the latest positional one comes first. -/
structure Draft where
  positional : List String := []
  annotations : Option String := none

/-- Paths are never empty, and there are exactly two of them. -/
def Draft.addPositional (draft : Draft) (path : String) : Except Refusal Draft :=
  if path.isEmpty || 2 ≤ draft.positional.length then .error .usage
  else .ok { draft with positional := path :: draft.positional }

/-- The directory may be given once. -/
def Draft.setAnnotations (draft : Draft) (path : String) : Except Refusal Draft :=
  if path.isEmpty || draft.annotations.isSome then .error .usage
  else .ok { draft with annotations := some path }

def Draft.finish (draft : Draft) : Except Refusal Arguments :=
  match draft.positional with
  | [firmware, listing] =>
    .ok { listing, firmware, annotations := draft.annotations.getD "annotations" }
  | _ => .error .usage

/-- Whether an argument can be the value of an option. -/
def isValue (argument : String) : Bool :=
  argument == "-" || !argument.startsWith "-"

/-- What an argument in front of `--` is. -/
inductive Kind where
  | endOfOptions
  | help
  /-- The option with its value in the argument. -/
  | valued (value : String)
  /-- The option with its value in the next argument. -/
  | option
  | unknown
  | positional

def Kind.of (argument : String) : Kind :=
  match argument.toList with
  | ['-', '-'] => .endOfOptions
  | '-' :: '-' :: long =>
    let name := String.ofList (long.takeWhile (· != '='))
    let value := long.dropWhile (· != '=')
    if name == "annotations" then
      if value.isEmpty then .option else .valued (String.ofList (value.drop 1))
    else if name == "help" && value.isEmpty then .help
    else .unknown
  | ['-', 'a'] => .option
  | '-' :: 'a' :: '=' :: value => .valued (String.ofList value)
  | '-' :: 'a' :: value => .valued (String.ofList value)
  | '-' :: 'h' :: _ => .help
  | ['-'] => .positional
  | '-' :: _ => .unknown
  | _ => .positional

def Draft.addAll (draft : Draft) : List String → Except Refusal Draft
  | [] => .ok draft
  | argument :: rest =>
    match Kind.of argument with
    | .endOfOptions => rest.foldlM Draft.addPositional draft
    | .help => .error .help
    | .unknown => .error .usage
    | .valued value => do (← draft.setAnnotations value).addAll rest
    | .positional => do (← draft.addPositional argument).addAll rest
    | .option =>
      match rest with
      | value :: rest =>
        if isValue value then do (← draft.setAnnotations value).addAll rest else .error .usage
      | [] => .error .usage

def Arguments.parse (arguments : List String) : Except Refusal Arguments := do
  (← Draft.addAll {} arguments).finish

/-- How a run ends, if it does. -/
inductive Status where
  | success
  | failure
  /-- The run does not end, and nothing follows what it has put out. -/
  | endless
  deriving DecidableEq, Repr

/-- What a run leaves behind. Messages are lines. -/
structure Outcome where
  status : Status
  output : ByteArray := .empty
  messages : List String

/-- A failure with the causes below it. A single cause stands alone, several are numbered. -/
def failureReport : List String → List String
  | [] => []
  | [outermost] => ["Error: " ++ outermost]
  | [outermost, cause] => ["Error: " ++ outermost, "", "Caused by:", "    " ++ cause]
  | outermost :: causes =>
    ["Error: " ++ outermost, "", "Caused by:"] ++
      causes.zipIdx.map fun (cause, index) => "    " ++ Nat.repr index ++ ": " ++ cause

/-- A run that failed after the messages of `log`. -/
def failure (log : List String) (chain : List String) : Outcome where
  status := .failure
  messages := log ++ failureReport chain

open Text in
/-- What is reported about loaded annotations. -/
def annotationReport (annotations : Annotations) (directory : String) : List String :=
  let paths := Config.Paths.ofDirectory directory
  ["Loaded " ++ Nat.repr annotations.space.ranges.length ++ " ranges from " ++
      quoted paths.layout ++ (if annotations.space.mirror.isSome then " (with mirror)" else ""),
   "Loaded " ++ Nat.repr annotations.registers.size ++ " register names from " ++
      quoted paths.registers,
   "Loaded " ++ Nat.repr annotations.labels.size ++ " labels from " ++ quoted paths.labels,
   "Loaded " ++ Nat.repr annotations.functions.length ++ " functions from " ++
      quoted paths.functions,
   "Loaded " ++ Nat.repr annotations.tables.jumpTables.length ++ " jump tables and " ++
      Nat.repr annotations.tables.stringTables.length ++ " string tables from " ++
      quoted paths.tables]

/-- Processes a listing whose inputs have been read. -/
def runListing (log : List String) (path : String) (annotations : Annotations)
    (firmware : ByteArray) (listing : String) : Outcome :=
  let attempt := "Failed to decompile " ++ Text.quoted path
  match Listing.parse annotations.space listing with
  | .error fault => failure log [attempt, fault.message]
  | .ok instructions =>
    let log := log ++ ["Decoded " ++ Nat.repr instructions.length ++ " instructions"]
    match Analysis.ofInstructions annotations firmware.data instructions with
    | .error (.fault fault) => failure log [attempt, fault.message]
    | .error .endless => { status := .endless, messages := log }
    | .ok analysis =>
      let log := log ++ analysis.report
      match analysis.renderer.run {} with
      | .error progress =>
        { failure log [attempt, Output.Sink.fullMessage] with output := progress.sink.written }
      | .ok progress =>
        { status := .success, output := progress.sink.written, messages := log ++ ["Done!"] }

/-- Runs the program on a view of files. Inputs are read in the order annotations, firmware,
listing, and the first that fails ends the run. -/
def run (files : Files.View) (arguments : Arguments) : Outcome :=
  match Annotations.load files arguments.annotations with
  | .error fault => failure [] fault.chain
  | .ok annotations =>
    let log := annotationReport annotations arguments.annotations
    match Input.firmware files arguments.firmware with
    | .error fault => failure log fault.chain
    | .ok firmware =>
      let log := log ++ ["Loaded firmware: " ++ Nat.repr firmware.size ++ " bytes (" ++
        Text.hexShort firmware.size ++ ")"]
      match Input.listing files arguments.listing with
      | .error fault => failure log fault.chain
      | .ok listing => runListing log arguments.listing annotations firmware listing

/-- The paths a run may open. -/
def Arguments.paths (arguments : Arguments) : List String :=
  let paths := Config.Paths.ofDirectory arguments.annotations
  [paths.layout, paths.registers, paths.labels, paths.functions, paths.tables,
   arguments.firmware, arguments.listing]

end Disassembly.CommandLine
