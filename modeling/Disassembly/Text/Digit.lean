/-!
Numbers as digits: reading and writing hexadecimal, octal and decimal.

A reader takes the whole text or nothing, never skips a character and never stops early; bounds are
checked by the caller on the value. Addresses in configuration files are the exception: they say
why they could not be read, so `readWord` walks the digits one at a time and stops at the first
thing that is wrong.
-/

namespace Disassembly.Text

def decimalDigit? (c : Char) : Option Nat :=
  if '0' ≤ c ∧ c ≤ '9' then some (c.toNat - '0'.toNat) else none

/-- A hexadecimal digit of either case. -/
def hexDigit? (c : Char) : Option Nat :=
  if '0' ≤ c ∧ c ≤ '9' then some (c.toNat - '0'.toNat)
  else if 'a' ≤ c ∧ c ≤ 'f' then some (c.toNat - 'a'.toNat + 10)
  else if 'A' ≤ c ∧ c ≤ 'F' then some (c.toNat - 'A'.toNat + 10)
  else none

def isHexDigit (c : Char) : Bool :=
  (hexDigit? c).isSome

/-- The number that digits denote, most significant digit first. -/
def ofDigits (base : Nat) (digits : List Nat) : Nat :=
  digits.foldl (fun value digit => base * value + digit) 0

/-- A non-empty text of digits only, read in the given base. -/
def readNumber? (base : Nat) (digit? : Char → Option Nat) (text : List Char) : Option Nat :=
  if text.isEmpty then none else (text.mapM digit?).map (ofDigits base)

def readDecimal? (text : List Char) : Option Nat :=
  readNumber? 10 decimalDigit? text

def readHex? (text : List Char) : Option Nat :=
  readNumber? 16 hexDigit? text

/-- A hexadecimal number that fits a 32-bit word. -/
def readHexWord? (text : List Char) : Option UInt32 :=
  match readHex? text with
  | some value => if value < UInt32.size then some (UInt32.ofNat value) else none
  | none => none

/-- Why a text is not a 32-bit hexadecimal number. -/
inductive NumberFault where
  | empty
  | invalidDigit
  | tooLarge
  deriving DecidableEq, Repr

def NumberFault.message : NumberFault → String
  | .empty => "cannot parse integer from empty string"
  | .invalidDigit => "invalid digit found in string"
  | .tooLarge => "number too large to fit in target type"

/-- Reads digits onto `value` from left to right. At each position the digit is judged before the
size of the number. -/
def readWordDigits (value : Nat) : List Char → Except NumberFault UInt32
  | [] => .ok (UInt32.ofNat value)
  | c :: rest =>
    match hexDigit? c with
    | none => .error .invalidDigit
    | some digit =>
      if 16 * value + digit < UInt32.size then readWordDigits (16 * value + digit) rest
      else .error .tooLarge

/-- Reads a 32-bit hexadecimal number; one leading `+` is allowed in front of a digit. -/
def readWord : List Char → Except NumberFault UInt32
  | [] => .error .empty
  | '+' :: c :: rest => readWordDigits 0 (c :: rest)
  | text => readWordDigits 0 text

/-- Digits of `number` in `base`, filled up with zeros on the left to at least `width`. -/
def padded (base width number : Nat) : List Char :=
  (Nat.toDigits base number).leftpad width '0'

/-- Lower-case hexadecimal of at least `width` digits. -/
def hexPadded (width number : Nat) : String :=
  String.ofList (padded 16 width number)

/-- Lower-case hexadecimal with the `0x` marker and as few digits as possible. -/
def hexShort (number : Nat) : String :=
  "0x" ++ hexPadded 1 number

/-- A word as `0x` and eight digits. -/
def hexWord (word : UInt32) : String :=
  "0x" ++ hexPadded 8 word.toNat

end Disassembly.Text
