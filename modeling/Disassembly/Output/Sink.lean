/-!
Where output goes. A sink may be limited: it keeps bytes up to its limit, and the write that passes
the limit fails, as does every later one that writes anything. It counts the writes that are
attempted.
-/

namespace Disassembly.Output

structure Sink where
  /-- How many bytes the sink takes in total; no limit if absent. -/
  limit : Option Nat := none
  written : ByteArray := .empty
  /-- How many writes were attempted, with the one that did not fit. -/
  attempts : Nat := 0

namespace Sink

/-- What is reported when a write did not fit. -/
def fullMessage : String :=
  "failed to write whole buffer"

/-- How many of `count` further bytes the sink takes. -/
def accepts (sink : Sink) (count : Nat) : Nat :=
  match sink.limit with
  | none => count
  | some limit => min count (limit - sink.written.size)

/-- Writes a text. When it does not fit, the error holds the sink with the part that did. -/
def write (sink : Sink) (text : String) : Except Sink Sink :=
  let bytes := text.toUTF8
  let count := sink.accepts bytes.size
  let sink := { sink with
    written := sink.written ++ bytes.extract 0 count
    attempts := sink.attempts + 1 }
  if count = bytes.size then .ok sink else .error sink

/-- Writes texts one after the other, up to the first that does not fit. -/
def writeAll (sink : Sink) (texts : List String) : Except Sink Sink :=
  texts.foldlM write sink

end Sink

end Disassembly.Output
