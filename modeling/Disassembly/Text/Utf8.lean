/-!
How far bytes are text.
-/

namespace Disassembly.Text

/-- Steps over whole characters from `start` on, `limit` of them at most. -/
def validLengthFrom (bytes : ByteArray) : (limit start : Nat) → Nat
  | 0, start => start
  | limit + 1, start =>
    match bytes.utf8DecodeChar? start with
    | some c => validLengthFrom bytes limit (start + c.utf8Size)
    | none => start

/-- The number of bytes in front of the first one that belongs to no character in UTF-8. -/
def validLength (bytes : ByteArray) : Nat :=
  validLengthFrom bytes bytes.size 0

end Disassembly.Text
