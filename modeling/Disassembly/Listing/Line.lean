import Disassembly.Text.Blank
import Disassembly.Text.Digit

/-!
Lines of a disassembly listing:

    4000:  18 60 00 01   l.movhi r3,0x1

A line holds an address, the four bytes of the instruction, a mnemonic and its operands. Lines of
any other form (headings, data, blank lines) are not instructions.
-/

namespace Disassembly.Listing

open Text

structure Line where
  address : UInt32
  bytes : List UInt8
  mnemonic : String
  operands : String
  deriving DecidableEq, Repr

namespace Line

/-- The value of two hexadecimal digits. -/
def byte? (high low : Char) : Option UInt8 := do
  let high ← hexDigit? high
  let low ← hexDigit? low
  return UInt8.ofNat (16 * high + low)

/-- Four bytes with one space between them, and the text that follows. -/
def bytes? : List Char → Option (List UInt8 × List Char)
  | h0 :: l0 :: ' ' :: h1 :: l1 :: ' ' :: h2 :: l2 :: ' ' :: h3 :: l3 :: rest => do
    return ([← byte? h0 l0, ← byte? h1 l1, ← byte? h2 l2, ← byte? h3 l3], rest)
  | _ => none

/-- Drops the blanks at the start, of which there has to be one. -/
def afterBlanks? : List Char → Option (List Char)
  | c :: rest => if isBlank c then some (trimStart rest) else none
  | [] => none

/-- Whether a word is `l.` and lower-case letters. -/
def isMnemonic : List Char → Bool
  | 'l' :: '.' :: letters => !letters.isEmpty && letters.all fun c => 'a' ≤ c && c ≤ 'z'
  | _ => false

/-- Reads one line; any line that does not have the form of an instruction is refused. -/
def parse? (line : List Char) : Option Line := do
  let line := trimStart line
  let address ← readHexWord? (line.takeWhile (· != ':'))
  let rest ← afterBlanks? ((line.dropWhile (· != ':')).drop 1)
  let (bytes, rest) ← bytes? rest
  let rest ← afterBlanks? rest
  let mnemonic := rest.takeWhile (!isBlank ·)
  if isMnemonic mnemonic then
    return {
      address, bytes
      mnemonic := String.ofList mnemonic
      operands := String.ofList (trim (rest.dropWhile (!isBlank ·))) }
  else none

end Line

end Disassembly.Listing
