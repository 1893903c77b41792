import Disassembly.Text.Quoted

/-!
Why a text is not JSON of the wanted shape, and where that showed.
-/

namespace Disassembly.Json

inductive Cause where
  | endInList
  | endInObject
  | endInString
  | endInValue
  | expectedColon
  | expectedListSeparator
  | expectedObjectSeparator
  | expectedWord
  | expectedValue
  | keyNotString
  | trailingComma
  | trailingCharacters
  | invalidNumber
  | numberOutOfRange
  | invalidEscape
  | invalidText
  | controlCharacter
  | loneSurrogate
  | missingSurrogate
  | wrongType (found wanted : String)
  | wrongLength (found : Nat) (wanted : String)
  | missingField (name : String)
  | duplicateField (name : String)
  deriving DecidableEq, Repr

def Cause.message : Cause → String
  | .endInList => "EOF while parsing a list"
  | .endInObject => "EOF while parsing an object"
  | .endInString => "EOF while parsing a string"
  | .endInValue => "EOF while parsing a value"
  | .expectedColon => "expected `:`"
  | .expectedListSeparator => "expected `,` or `]`"
  | .expectedObjectSeparator => "expected `,` or `\x7d`"
  | .expectedWord => "expected ident"
  | .expectedValue => "expected value"
  | .keyNotString => "key must be a string"
  | .trailingComma => "trailing comma"
  | .trailingCharacters => "trailing characters"
  | .invalidNumber => "invalid number"
  | .numberOutOfRange => "number out of range"
  | .invalidEscape => "invalid escape"
  | .invalidText => "invalid unicode code point"
  | .controlCharacter => "control character (\\u0000-\\u001F) found while parsing a string"
  | .loneSurrogate => "lone leading surrogate in hex escape"
  | .missingSurrogate => "unexpected end of hex escape"
  | .wrongType found wanted => "invalid type: " ++ found ++ ", expected " ++ wanted
  | .wrongLength found wanted => "invalid length " ++ Nat.repr found ++ ", expected " ++ wanted
  | .missingField name => "missing field `" ++ name ++ "`"
  | .duplicateField name => "duplicate field `" ++ name ++ "`"

/-- A cause at a place in the text: lines count from one, and the column is the number of bytes of
the line that had been looked at. -/
structure Fault where
  cause : Cause
  line : Nat
  column : Nat
  deriving DecidableEq, Repr

namespace Fault

/-- The fault that showed once `seen` bytes of the text had been looked at. -/
def locate (text : List UInt8) (cause : Cause) (seen : Nat) : Fault where
  cause
  line := (text.take seen).count 0x0a + 1
  column := ((text.take seen).reverse.takeWhile (· != 0x0a)).length

def message (fault : Fault) : String :=
  fault.cause.message ++ " at line " ++ Nat.repr fault.line ++ " column " ++ Nat.repr fault.column

end Fault

end Disassembly.Json
