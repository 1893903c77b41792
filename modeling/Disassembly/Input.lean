import Disassembly.Files
import Disassembly.Text.Quoted

/-!
The two inputs that are read whole: the firmware image and the listing.
-/

namespace Disassembly.Input

/-- Why an input could not be read. -/
inductive Cause where
  | unopened (fault : Files.Fault)
  | unreadable (fault : Files.Fault)
  | notText
  deriving DecidableEq, Repr

def Cause.message : Cause → String
  | .unopened fault => fault.message
  | .unreadable fault => fault.message
  | .notText => "stream did not contain valid UTF-8"

/-- What was attempted, and why it failed. -/
structure Fault where
  attempt : String
  cause : Cause
  deriving DecidableEq, Repr

def Fault.chain (fault : Fault) : List String :=
  [fault.attempt, fault.cause.message]

def firmware (files : Files.View) (path : String) : Except Fault ByteArray :=
  match files path with
  | .error fault => .error ⟨"Failed to open firmware file " ++ Text.quoted path, .unopened fault⟩
  | .ok content =>
    match content.read with
    | .error fault => .error ⟨"Failed to read firmware file", .unreadable fault⟩
    | .ok bytes => .ok bytes

def listing (files : Files.View) (path : String) : Except Fault String :=
  let attempt := "Failed to read listing file " ++ Text.quoted path
  match files path with
  | .error fault => .error ⟨attempt, .unopened fault⟩
  | .ok content =>
    match content.read with
    | .error fault => .error ⟨attempt, .unreadable fault⟩
    | .ok bytes =>
      match String.fromUTF8? bytes with
      | some text => .ok text
      | none => .error ⟨attempt, .notText⟩

end Disassembly.Input
