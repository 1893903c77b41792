import Disassembly.Text.Digit

/-!
Byte strings of the firmware as escaped text.

Printable ASCII stands for itself, except the backslash and the double quote. Bytes with a one-letter
escape use it, all others are three octal digits, so that a digit after an escape is never taken for
a part of it.
-/

namespace Disassembly.Text

/-- The letter of a byte's short escape, if it has one. -/
def shortEscape? (byte : UInt8) : Option Char :=
  match byte.toNat with
  | 0x07 => some 'a'
  | 0x08 => some 'b'
  | 0x09 => some 't'
  | 0x0a => some 'n'
  | 0x0b => some 'v'
  | 0x0c => some 'f'
  | 0x0d => some 'r'
  | 0x22 => some '"'
  | 0x5c => some '\\'
  | _ => none

def escapedByte (byte : UInt8) : List Char :=
  match shortEscape? byte with
  | some letter => ['\\', letter]
  | none =>
    if 0x20 ≤ byte.toNat ∧ byte.toNat < 0x7f then [Char.ofNat byte.toNat]
    else '\\' :: padded 8 3 byte.toNat

def escaped (bytes : List UInt8) : String :=
  String.ofList (bytes.flatMap escapedByte)

/-- An escaped byte string between double quotes. -/
def literal (bytes : List UInt8) : String :=
  "\"" ++ escaped bytes ++ "\""

end Disassembly.Text
