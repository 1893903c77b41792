import Disassembly.Json.Fault
import Disassembly.Json.Number
import Disassembly.Text.Utf8

/-!
Reading JSON from bytes.

A reader takes values of one shape from the front of a text. It works on bytes and looks one byte
ahead; how far it has looked is part of its state, because faults are reported there. Only texts that
are kept have to be valid UTF-8.
-/

namespace Disassembly.Json

/-- A place in a text. -/
structure Cursor where
  rest : List UInt8
  /-- How many bytes the whole text has. -/
  size : Nat
  /-- How many bytes have been taken. -/
  taken : Nat := 0
  /-- How many bytes have been looked at: those taken, and at most one more. -/
  seen : Nat := 0

/-- Readers either move the cursor or fail with a cause and the number of bytes seen so far. -/
abbrev Reader (α : Type) :=
  StateT Cursor (Except (Cause × Nat)) α

namespace Reader

def fail {α : Type} (cause : Cause) : Reader α :=
  fun c => .error (cause, c.seen)

/-- Fails because of something that stands `count` bytes further back. -/
def failBefore {α : Type} (count : Nat) (cause : Cause) : Reader α :=
  fun c => .error (cause, c.seen - count)

/-- The next byte, left in place. -/
def look : Reader (Option UInt8) :=
  fun c => .ok (c.rest.head?, if c.rest.isEmpty then c else { c with seen := c.taken + 1 })

/-- Takes the next byte. -/
def take : Reader (Option UInt8) :=
  fun c => .ok (c.rest.head?,
    if c.rest.isEmpty then c
    else { c with rest := c.rest.tail, taken := c.taken + 1, seen := c.taken + 1 })

/-- Takes a byte that has been looked at. -/
def skip : Reader Unit := do
  let _ ← take

/-- A bound for loops that take a byte in each round: one more than the bytes that are left. -/
def bound : Reader Nat :=
  fun c => .ok (c.size - c.taken + 1, c)

def isBlank (byte : UInt8) : Bool :=
  byte == 0x20 || byte == 0x0a || byte == 0x09 || byte == 0x0d

/-- Drops blanks and looks at the byte that follows them. -/
def lookPastBlanks : Reader (Option UInt8) := do
  modify fun c =>
    let count := (c.rest.takeWhile isBlank).length
    if count = 0 then c
    else { c with rest := c.rest.drop count, taken := c.taken + count, seen := c.taken + count }
  look

/-- A character as the byte that stands for it; only for ASCII. -/
def ascii (c : Char) : UInt8 :=
  UInt8.ofNat c.toNat

def isDigit (byte : UInt8) : Bool :=
  0x30 ≤ byte && byte ≤ 0x39

/-- The rest of a word whose first letter has been taken. -/
def word : List Char → Reader Unit
  | [] => return ()
  | c :: rest => do
    match ← take with
    | none => fail .endInValue
    | some byte => if byte = ascii c then word rest else fail .expectedWord

/-! ### Strings -/

/-- Takes a byte of a string. -/
def stringByte : Reader UInt8 := do
  match ← take with
  | none => fail .endInString
  | some byte => return byte

/-- The four hexadecimal digits of a `\u` escape. -/
def hexEscape : Reader Nat := do
  let digits := [← stringByte, ← stringByte, ← stringByte, ← stringByte]
  match Text.readHex? (digits.map fun byte => Char.ofNat byte.toNat) with
  | some unit => return unit
  | none => fail .invalidEscape

/-- Takes the byte `wanted` between the two halves of a surrogate pair. -/
def surrogateByte (wanted : Char) : Reader Unit := do
  match ← look with
  | none => fail .endInString
  | some byte =>
    skip
    if byte = ascii wanted then return () else fail .missingSurrogate

/-- The code point of a `\u` escape. A leading surrogate has to be followed by a trailing one. -/
def codePoint : Reader Nat := do
  let unit ← hexEscape
  if 0xdc00 ≤ unit ∧ unit ≤ 0xdfff then fail .loneSurrogate
  else if 0xd800 ≤ unit ∧ unit ≤ 0xdbff then
    surrogateByte '\\'
    surrogateByte 'u'
    let low ← hexEscape
    if 0xdc00 ≤ low ∧ low ≤ 0xdfff then return 0x10000 + (unit - 0xd800) * 0x400 + (low - 0xdc00)
    else fail .loneSurrogate
  else return unit

/-- The byte that a one-letter escape stands for. -/
def shortEscape? (letter : UInt8) : Option UInt8 :=
  if letter = ascii '"' then some 0x22
  else if letter = ascii '\\' then some 0x5c
  else if letter = ascii '/' then some 0x2f
  else if letter = ascii 'b' then some 0x08
  else if letter = ascii 'f' then some 0x0c
  else if letter = ascii 'n' then some 0x0a
  else if letter = ascii 'r' then some 0x0d
  else if letter = ascii 't' then some 0x09
  else none

/-- The bytes of an escape whose backslash has been taken. -/
def escape : Reader (List UInt8) := do
  let letter ← stringByte
  if letter = ascii 'u' then
    return String.utf8EncodeChar (Char.ofNat (← codePoint))
  else
    match shortEscape? letter with
    | some byte => return [byte]
    | none => fail .invalidEscape

/-- An escape in a string that is not kept: its digits are checked, its code point is not. -/
def ignoredEscape : Reader (List UInt8) := do
  let letter ← stringByte
  if letter = ascii 'u' then
    let _ ← hexEscape
    return []
  else if (shortEscape? letter).isSome then return []
  else fail .invalidEscape

/-- The bytes up to the closing quote, after `text`, which is latest byte first. -/
def stringBytes (escape : Reader (List UInt8)) : Nat → List UInt8 → Reader (List UInt8)
  | 0, _ => fail .endInString
  | limit + 1, text => do
    let byte ← stringByte
    if byte = ascii '"' then return text.reverse
    else if byte = ascii '\\' then
      stringBytes escape limit ((← escape).reverse ++ text)
    else if byte < 0x20 then fail .controlCharacter
    else stringBytes escape limit (byte :: text)

/-- The rest of a string whose opening quote has been taken. Where its bytes stop being text is
counted back from the closing quote, and an escape counts as the bytes that it stands for. -/
def stringBody : Reader String := do
  let bytes : ByteArray := ⟨(← stringBytes escape (← bound) []).toArray⟩
  match String.fromUTF8? bytes with
  | some text => return text
  | none => failBefore (bytes.size - Text.validLength bytes) .invalidText

def ignoredString : Reader Unit := do
  let _ ← stringBytes ignoredEscape (← bound) []

/-! ### Numbers -/

/-- The value of a byte that is a digit. -/
def digitOf (byte : UInt8) : Nat :=
  byte.toNat - (ascii '0').toNat

/-- Takes the digits at the front, after those in `taken`, latest first. -/
def digits : Nat → List Nat → Reader (List Nat)
  | 0, taken => return taken.reverse
  | limit + 1, taken => do
    match ← look with
    | some byte =>
      if isDigit byte then
        skip
        digits limit (digitOf byte :: taken)
      else return taken.reverse
    | none => return taken.reverse

/-- Takes a sign, and says whether it was a minus. -/
def sign : Reader Bool := do
  match ← look with
  | some byte =>
    if byte = ascii '+' ∨ byte = ascii '-' then
      skip
      return byte = ascii '-'
    else return false
  | none => return false

/-- The largest exponent that is read where exponents are bounded. -/
def greatestExponent : Nat := 0x7fffffff

/-- Takes the digits at the front onto `value`. A bounded number is refused at the digit that makes
it too large. -/
def exponentDigits (bounded : Bool) : Nat → (value : Nat) → Reader Nat
  | 0, value => return value
  | limit + 1, value => do
    match ← look with
    | some byte =>
      if isDigit byte then
        skip
        let value := 10 * value + digitOf byte
        if bounded && greatestExponent < value then fail .numberOutOfRange
        else exponentDigits bounded limit value
      else return value
    | none => return value

/-- An exponent whose `e` has been looked at. Only positive ones can be too large. -/
def exponent (endOfText : Cause) (bounded : Bool) : Reader Int := do
  skip
  let negative ← sign
  match ← take with
  | some byte =>
    if isDigit byte then
      let value ← exponentDigits (bounded && !negative) (← bound) (digitOf byte)
      return if negative then -(value : Int) else (value : Int)
    else fail .invalidNumber
  | none => fail endOfText

/-- The exponent that follows here, if one does. -/
def optionalExponent (endOfText : Cause) (bounded : Bool) : Reader (Option Int) := do
  match ← look with
  | some byte =>
    if byte = ascii 'e' ∨ byte = ascii 'E' then return some (← exponent endOfText bounded)
    else return none
  | none => return none

/-- A fraction whose point has been looked at. -/
def fraction (endOfText : Cause) : Reader (List Nat) := do
  skip
  let places ← digits (← bound) []
  if places.isEmpty then
    match ← look with
    | some _ => fail .invalidNumber
    | none => fail endOfText
  else return places

/-- The digits in front of the point; only the number zero starts with one. -/
def integerPart (endOfText : Cause) : Reader (List Nat) := do
  match ← take with
  | none => fail endOfText
  | some byte =>
    if byte = ascii '0' then
      match ← look with
      | some next => if isDigit next then fail .invalidNumber else return [0]
      | none => return [0]
    else if isDigit byte then return digitOf byte :: (← digits (← bound) [])
    else fail .invalidNumber

/-- A number without its sign. A text that ends too early is reported as `endOfText`. The exponents
of numbers that are kept are bounded, unless the number is zero. -/
def numeral (endOfText : Cause) (kept : Bool) : Reader Numeral := do
  let integer ← integerPart endOfText
  let fraction ← match ← look with
    | some byte => if byte = ascii '.' then fraction endOfText else pure []
    | none => pure []
  let mantissa : Numeral := { integer, fraction }
  return { mantissa with exponent := ← optionalExponent endOfText (kept && !mantissa.isZero) }

/-- A number whose first byte, a minus or a digit, has been looked at. -/
def number (byte : UInt8) : Reader Number := do
  let negative := byte = ascii '-'
  if negative then skip
  match (← numeral .endInValue true).value? negative with
  | some value => return value
  | none => fail .numberOutOfRange

/-! ### Values that are not kept -/

inductive Bracket where
  | list | object
  deriving DecidableEq

namespace Bracket

def closing : Bracket → Char
  | .list => ']'
  | .object => '\x7d'

def endOfText : Bracket → Cause
  | .list => .endInList
  | .object => .endInObject

def expectedSeparator : Bracket → Cause
  | .list => .expectedListSeparator
  | .object => .expectedObjectSeparator

end Bracket

/-- Where a walk over a value stands. -/
inductive Place where
  /-- A value follows. -/
  | value
  /-- A bracket has just been opened. -/
  | opened
  /-- A value has just ended. -/
  | ended

/-- A scalar whose first byte has been looked at. -/
def ignoredScalar (byte : UInt8) : Reader Unit := do
  if byte = ascii 'n' then
    skip
    word ['u', 'l', 'l']
  else if byte = ascii 't' then
    skip
    word ['r', 'u', 'e']
  else if byte = ascii 'f' then
    skip
    word ['a', 'l', 's', 'e']
  else if byte = ascii '"' then
    skip
    ignoredString
  else if byte = ascii '-' then
    skip
    let _ ← numeral .invalidNumber false
  else if isDigit byte then
    let _ ← numeral .invalidNumber false
  else fail .expectedValue

/-- What stands between a separator and the value of a member: nothing in a list, the key and a
colon in an object. -/
def ignoredKey : Bracket → Reader Unit
  | .list => return ()
  | .object => do
    match ← lookPastBlanks with
    | none => fail .endInObject
    | some byte =>
      if byte = ascii '"' then
        skip
        ignoredString
        match ← lookPastBlanks with
        | none => fail .endInObject
        | some byte => if byte = ascii ':' then skip else fail .expectedColon
      else fail .keyNotString

/-- Walks over a value inside the open brackets, innermost first. -/
def ignoredFrom : Nat → Place → List Bracket → Reader Unit
  | 0, _, _ => fail .endInValue
  | _ + 1, .ended, [] => return ()
  | _ + 1, .opened, [] => return ()
  | limit + 1, .value, brackets => do
    match ← lookPastBlanks with
    | none => fail .endInValue
    | some byte =>
      if byte = ascii '[' then
        skip
        ignoredFrom limit .opened (.list :: brackets)
      else if byte = ascii '\x7b' then
        skip
        ignoredFrom limit .opened (.object :: brackets)
      else
        ignoredScalar byte
        ignoredFrom limit .ended brackets
  | limit + 1, .opened, bracket :: brackets => do
    match ← lookPastBlanks with
    | none => fail bracket.endOfText
    | some byte =>
      if byte = ascii bracket.closing then
        skip
        ignoredFrom limit .ended brackets
      else
        ignoredKey bracket
        ignoredFrom limit .value (bracket :: brackets)
  | limit + 1, .ended, bracket :: brackets => do
    match ← lookPastBlanks with
    | none => fail bracket.endOfText
    | some byte =>
      if byte = ascii ',' then
        skip
        ignoredKey bracket
        ignoredFrom limit .value (bracket :: brackets)
      else if byte = ascii bracket.closing then
        skip
        ignoredFrom limit .ended brackets
      else fail bracket.expectedSeparator

/-- Reads any value and keeps nothing of it. -/
def ignored : Reader Unit := do
  ignoredFrom (2 * (← bound)) .value []

end Reader

end Disassembly.Json
