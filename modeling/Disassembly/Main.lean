import Disassembly.CommandLine

/-!
The program: reads the files named on the command line and runs on them.
-/

namespace Disassembly.CommandLine

/-- Opens a file of the file system. A directory opens too, and is known by the code that reading it
fails with. -/
def openFile (path : String) : IO (Except Files.Fault Files.Content) := do
  try
    return .ok (.file (← IO.FS.readBinFile path))
  catch
    | .noFileOrDirectory .. => return .error .notFound
    | .inappropriateType _ code _ =>
      return if code = 21 then .ok .directory else .error .notDirectory
    | .invalidArgument _ code details =>
      return .error (if code = 36 ∨ code = -36 then .nameTooLong else .other details)
    | fault => return .error (.other (toString fault))

/-- The view of all files that a run may open. -/
def viewOf (arguments : Arguments) : IO Files.View := do
  let opened ← arguments.paths.mapM fun path => do return (path, ← openFile path)
  return fun path => (opened.lookup path).getD (.error .notFound)

def usage : String :=
  "Usage: disassembly [-a <ANNOTATIONS>] <LISTING> <FIRMWARE>"

end Disassembly.CommandLine

open Disassembly.CommandLine in
def main (arguments : List String) : IO UInt32 := do
  match Arguments.parse arguments with
  | .error .help =>
    IO.println usage
    return 0
  | .error .usage =>
    IO.eprintln usage
    return 2
  | .ok arguments =>
    let outcome := run (← viewOf arguments) arguments
    for message in outcome.messages do
      IO.eprintln message
    let stdout ← IO.getStdout
    stdout.write outcome.output
    stdout.flush
    -- A table without an end is read forever.
    while outcome.status = .endless do
      IO.sleep 1000
    return if outcome.status = .success then 0 else 1
