import Disassembly.Files
import Disassembly.Json.Fault
import Disassembly.Memory.Space

/-!
What can go wrong while configuration is read: a cause, inside the contexts in which it arose.
-/

namespace Disassembly.Config

inductive Cause where
  | number (fault : Text.NumberFault)
  | json (fault : Json.Fault)
  /-- A file was opened, but its bytes cannot be had. -/
  | unreadable (fault : Files.Fault)
  | unopened (fault : Files.Fault)
  | unknownKind (kind label : String)
  | reversedRange (label : String) (start last : UInt32)
  | overlappingMirror (mirror : Memory.Mirror)
  deriving DecidableEq, Repr

open Text in
def Cause.message : Cause → String
  | .number fault => fault.message
  | .json fault => fault.message
  | .unreadable fault => fault.message
  | .unopened fault => fault.message
  | .unknownKind kind label =>
    "Unknown range kind " ++ quoted kind ++ " for range " ++ quoted label
  | .reversedRange label start last =>
    "Range " ++ quoted label ++ " ends (" ++ hexWord last ++ ") before it starts (" ++
      hexWord start ++ ")"
  | .overlappingMirror mirror =>
    "Mirror window " ++ hexWord mirror.start ++ "+" ++ hexShort mirror.size.toNat ++
      " overlaps its canonical window at " ++ hexWord mirror.canonical

/-- What was being done. -/
inductive Context where
  | opening (description path : String)
  | parsing (description : String)
  | reading (path : String)
  | key (description : String)
  | address (text : String)
  deriving DecidableEq, Repr

open Text in
def Context.message : Context → String
  | .opening description path => "Failed to open " ++ description ++ " file " ++ quoted path
  | .parsing description => "Failed to parse " ++ description ++ " file"
  | .reading path => "in " ++ quoted path
  | .key description => "Bad key in " ++ description ++ " file"
  | .address text => "Invalid hex address " ++ quoted text

/-- A cause with its contexts, outermost first. -/
structure Fault where
  contexts : List Context
  cause : Cause
  deriving DecidableEq, Repr

namespace Fault

def within (context : Context) (fault : Fault) : Fault :=
  { fault with contexts := context :: fault.contexts }

/-- The messages from the outermost context to the cause. -/
def chain (fault : Fault) : List String :=
  fault.contexts.map Context.message ++ [fault.cause.message]

end Fault

/-- Puts whatever goes wrong into a context. -/
def during {α : Type} (context : Context) (result : Except Fault α) : Except Fault α :=
  result.mapError (·.within context)

end Disassembly.Config
