import Disassembly.Fault
import Disassembly.Memory.Space
import Disassembly.Text.Escaped

/-!
The firmware image, read through its address space.

Byte `n` of the image is the memory at canonical address `n`. Words are big-endian. A table is a run
of words that ends at the first word it does not accept; that word has to be readable too. Addresses
wrap around, so a table that accepts every word on a whole turn around the address space goes on
forever.
-/

namespace Disassembly.Memory

structure Image where
  space : AddressSpace := {}
  bytes : Array UInt8 := #[]

namespace Image

def size (image : Image) : Nat :=
  image.bytes.size

/-- The big-endian word at a byte offset, if all four bytes exist. -/
def word? (image : Image) (offset : Nat) : Option UInt32 := do
  let b0 ← image.bytes[offset]?
  let b1 ← image.bytes[offset + 1]?
  let b2 ← image.bytes[offset + 2]?
  let b3 ← image.bytes[offset + 3]?
  return (b0.toUInt32 <<< 24) ||| (b1.toUInt32 <<< 16) ||| (b2.toUInt32 <<< 8) ||| b3.toUInt32

def readWord (image : Image) (address : UInt32) : Except Fault UInt32 :=
  match image.word? (image.space.canonical address).toNat with
  | some word => .ok word
  | none => .error (.bounds address image.size)

/-- Continues `taken`, latest byte first, with the bytes from `offset` on: up to the first zero byte,
the end of the image, or `limit` bytes. -/
def cstringFrom (image : Image) (taken : List UInt8) : (limit offset : Nat) → List UInt8
  | 0, _ => taken.reverse
  | limit + 1, offset =>
    match image.bytes[offset]? with
    | none => taken.reverse
    | some byte =>
      if byte = 0 then taken.reverse else image.cstringFrom (byte :: taken) limit (offset + 1)

/-- The bytes from an address up to the first zero byte or the end of the image. -/
def cstring (image : Image) (address : UInt32) : List UInt8 :=
  image.cstringFrom [] image.size (image.space.canonical address).toNat

def cstringLiteral (image : Image) (address : UInt32) : String :=
  Text.literal (image.cstring address)

/-- Continues `taken`, latest word first, with the words from `cursor` on while they are accepted.
There is no end to it if `limit` words are accepted. -/
def runFrom (image : Image) (accepts : UInt32 → Bool) (taken : List UInt32) :
    (limit : Nat) → (cursor : UInt32) → Except NoValue (List UInt32)
  | 0, _ => .error .endless
  | limit + 1, cursor =>
    match image.readWord cursor with
    | .error fault => .error (.fault fault)
    | .ok word =>
      if accepts word then image.runFrom accepts (word :: taken) limit (cursor + 4)
      else .ok taken.reverse

/-- How many words the address space has. A run that is as long has come back to where it started and
has no end. -/
def runLimit : Nat := 0x40000000

/-- The accepted words of the table at an address. -/
def run (image : Image) (accepts : UInt32 → Bool) (address : UInt32) :
    Except NoValue (List UInt32) :=
  image.runFrom accepts [] runLimit (image.space.canonical address)

/-- The code addresses of a jump table, as they are stored. -/
def codeTable (image : Image) (address : UInt32) : Except NoValue (List UInt32) :=
  image.run image.space.isExecutable address

/-- The strings that the pointers of a string table point to; a null pointer ends the table too. -/
def stringTable (image : Image) (address : UInt32) : Except NoValue (List String) := do
  let pointers ← image.run (fun word => word != 0 && image.space.isPointerTarget word) address
  return pointers.map image.cstringLiteral

end Image

end Disassembly.Memory
