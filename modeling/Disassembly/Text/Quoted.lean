import Disassembly.Text.Digit
import Disassembly.Text.Extending
import Disassembly.Text.Hidden

/-!
Quoting of names and paths in messages.

A quoted text stands between double quotes. Quotes and backslashes are escaped, the usual control
characters have their short escapes, and every other character that would not show on its own is
written by its code point.
-/

namespace Disassembly.Text

def isAmong (ranges : List (Nat × Nat)) (c : Char) : Bool :=
  ranges.any fun (low, high) => low ≤ c.toNat && c.toNat ≤ high

/-- Whether a character shows on its own. -/
def isVisible (c : Char) : Bool :=
  !isAmong hiddenRanges c && !isAmong extendingRanges c

def quotedChar (c : Char) : List Char :=
  if c = '"' then ['\\', '"']
  else if c = '\\' then ['\\', '\\']
  else if c = '\t' then ['\\', 't']
  else if c = '\n' then ['\\', 'n']
  else if c = '\r' then ['\\', 'r']
  else if c = '\x00' then ['\\', '0']
  else if isVisible c then [c]
  else ['\\', 'u', '\x7b'] ++ padded 16 1 c.toNat ++ ['\x7d']

def quoted (text : String) : String :=
  "\"" ++ String.ofList (text.toList.flatMap quotedChar) ++ "\""

end Disassembly.Text
