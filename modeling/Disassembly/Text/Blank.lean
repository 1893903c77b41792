/-!
White space and trimming, over texts as lists of characters.

A blank is a character with the Unicode property `White_Space`; listings and configuration files
both trim by it, so a no-break space is dropped exactly like an ordinary one.
-/

namespace Disassembly.Text

/-- The `White_Space` characters: tab to carriage return, space, next line, and the Unicode spaces
and separators. -/
def isBlank (c : Char) : Bool :=
  (0x09 ≤ c.toNat && c.toNat ≤ 0x0d) || c.toNat == 0x20 || c.toNat == 0x85 || c.toNat == 0xa0 ||
    c.toNat == 0x1680 || (0x2000 ≤ c.toNat && c.toNat ≤ 0x200a) || c.toNat == 0x2028 ||
    c.toNat == 0x2029 || c.toNat == 0x202f || c.toNat == 0x205f || c.toNat == 0x3000

def trimStart (text : List Char) : List Char :=
  text.dropWhile isBlank

def trimEnd (text : List Char) : List Char :=
  (text.reverse.dropWhile isBlank).reverse

def trim (text : List Char) : List Char :=
  trimEnd (trimStart text)

end Disassembly.Text
