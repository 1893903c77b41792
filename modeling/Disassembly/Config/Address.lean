import Disassembly.Config.Fault
import Disassembly.Text.Blank

/-!
Addresses in configuration files.
-/

namespace Disassembly.Config

/-- Drops one `0x` or `0X` from the front. -/
def stripHexMarker : List Char → List Char
  | '0' :: 'x' :: digits => digits
  | '0' :: 'X' :: digits => digits
  | text => text

/-- A 32-bit hexadecimal number with an optional marker; blanks around it are dropped. -/
def parseAddress (text : String) : Except Fault UInt32 :=
  match Text.readWord (stripHexMarker (Text.trim text.toList)) with
  | .ok address => .ok address
  | .error fault => .error ⟨[.address text], .number fault⟩

end Disassembly.Config
