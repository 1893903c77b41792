import Disassembly.Json.Reader

/-!
Readers for the shapes of configuration files: strings, lists, maps and records.

A record is an object with named fields, or a list of its fields in order. Unknown keys of the object
are ignored, a known key may stand once, and fields that are not required may be left out.
-/

namespace Disassembly.Json

namespace Reader

/-- Fails because the value that follows, whose first byte has been looked at, is not the wanted
one. The value is read as far as its description needs it. -/
def refuse {α : Type} (wanted : String) (byte : UInt8) : Reader α := do
  let found ←
    if byte = ascii 'n' then do
      skip
      word ['u', 'l', 'l']
      pure "null"
    else if byte = ascii 't' then do
      skip
      word ['r', 'u', 'e']
      pure "boolean `true`"
    else if byte = ascii 'f' then do
      skip
      word ['a', 'l', 's', 'e']
      pure "boolean `false`"
    else if byte = ascii '"' then do
      skip
      pure ("string " ++ Text.quoted (← stringBody))
    else if byte = ascii '[' then pure "sequence"
    else if byte = ascii '\x7b' then pure "map"
    else if byte = ascii '-' ∨ isDigit byte then do
      pure (← number byte).describe
    else fail .expectedValue
  fail (.wrongType found wanted)

/-- The first byte of a value, past blanks. -/
def valueStart : Reader UInt8 := do
  match ← lookPastBlanks with
  | none => fail .endInValue
  | some byte => return byte

def string : Reader String := do
  let byte ← valueStart
  if byte = ascii '"' then
    skip
    stringBody
  else refuse "a string" byte

/-- `null`, or a value. -/
def optional {α : Type} (item : Reader α) : Reader (Option α) := do
  match ← lookPastBlanks with
  | some byte =>
    if byte = ascii 'n' then
      skip
      word ['u', 'l', 'l']
      return none
    else return some (← item)
  | none => return some (← item)

/-- Whether a list has another item; takes the comma in front of it. -/
def hasItem (first : Bool) : Reader Bool := do
  match ← lookPastBlanks with
  | none => fail .endInList
  | some byte =>
    if byte = ascii ']' then return false
    else if first then return true
    else if byte = ascii ',' then
      skip
      match ← lookPastBlanks with
      | none => fail .endInValue
      | some byte => if byte = ascii ']' then fail .trailingComma else return true
    else fail .expectedListSeparator

/-- Whether an object has another member; takes the comma in front of it. -/
def hasMember (first : Bool) : Reader Bool := do
  match ← lookPastBlanks with
  | none => fail .endInObject
  | some byte =>
    if byte = ascii '\x7d' then return false
    else if first then
      if byte = ascii '"' then return true else fail .keyNotString
    else if byte = ascii ',' then
      skip
      match ← lookPastBlanks with
      | none => fail .endInValue
      | some byte =>
        if byte = ascii '"' then return true
        else if byte = ascii '\x7d' then fail .trailingComma
        else fail .keyNotString
    else fail .expectedObjectSeparator

/-- The end of a list. -/
def closeList : Reader Unit := do
  match ← lookPastBlanks with
  | none => fail .endInList
  | some byte =>
    if byte = ascii ']' then skip
    else if byte = ascii ',' then
      skip
      match ← lookPastBlanks with
      | some byte => if byte = ascii ']' then fail .trailingComma else fail .trailingCharacters
      | none => fail .trailingCharacters
    else fail .trailingCharacters

/-- The end of an object. -/
def closeObject : Reader Unit := do
  match ← lookPastBlanks with
  | none => fail .endInObject
  | some byte =>
    if byte = ascii '\x7d' then skip
    else if byte = ascii ',' then fail .trailingComma
    else fail .trailingCharacters

/-- A key that has been looked at, up to its closing quote. -/
def key : Reader String := do
  skip
  stringBody

def colon : Reader Unit := do
  match ← lookPastBlanks with
  | none => fail .endInObject
  | some byte => if byte = ascii ':' then skip else fail .expectedColon

def items {α : Type} (item : Reader α) : Nat → List α → Reader (List α)
  | 0, _ => fail .endInList
  | limit + 1, taken => do
    if ← hasItem taken.isEmpty then
      items item limit ((← item) :: taken)
    else return taken.reverse

def listOf {α : Type} (item : Reader α) : Reader (List α) := do
  let byte ← valueStart
  if byte = ascii '[' then
    skip
    let found ← items item (← bound) []
    closeList
    return found
  else refuse "a sequence" byte

def members {α : Type} (item : Reader α) : Nat → List (String × α) → Reader (List (String × α))
  | 0, _ => fail .endInObject
  | limit + 1, taken => do
    if ← hasMember taken.isEmpty then
      let name ← key
      colon
      members item limit ((name, ← item) :: taken)
    else return taken.reverse

/-- The members of an object in order. -/
def mapOf {α : Type} (item : Reader α) : Reader (List (String × α)) := do
  let byte ← valueStart
  if byte = ascii '\x7b' then
    skip
    let found ← members item (← bound) []
    closeObject
    return found
  else refuse "a map" byte

end Reader

/-- A field of a record that is built up in `α`. -/
structure Field (α : Type) where
  name : String
  required : Bool
  /-- Reads the field's value and puts it into the record. -/
  read : Reader (α → α)

namespace Reader

/-- Ends a record with `close`. A complaint about the fields wins over what is wrong with the end,
but is placed where looking for the end has stopped. -/
def closing {α : Type} (close : Reader Unit) : Except Cause α → Reader α
  | .ok record => do
    close
    return record
  | .error cause => fun c =>
    match close c with
    | .ok (_, c) => .error (cause, c.seen)
    | .error (_, seen) => .error (cause, seen)

/-- Fields in order, from a list. -/
def positional {α : Type} (wanted : String) :
    (index : Nat) → List (Field α) → α → Reader (Except Cause α)
  | _, [], record => return .ok record
  | index, field :: fields, record => do
    if ← hasItem (index == 0) then
      positional wanted (index + 1) fields ((← field.read) record)
    else if field.required then return .error (.wrongLength index wanted)
    else positional wanted (index + 1) fields record

/-- Fields by name, from an object. `given` holds the names that have been read. -/
def named {α : Type} (fields : List (Field α)) :
    Nat → (first : Bool) → (given : List String) → α → Reader (Except Cause α)
  | 0, _, _, _ => fail .endInObject
  | limit + 1, first, given, record => do
    if ← hasMember first then
      let name ← key
      match fields.find? (·.name == name) with
      | none =>
        colon
        ignored
        named fields limit false given record
      | some field =>
        if given.contains name then return .error (.duplicateField name)
        else
          colon
          named fields limit false (name :: given) ((← field.read) record)
    else
      match fields.find? fun field => field.required && !given.contains field.name with
      | some field => return .error (.missingField field.name)
      | none => return .ok record

/-- Reads a record onto `blank`, which holds the values of fields that are left out. -/
def record {α : Type} (name : String) (blank : α) (fields : List (Field α)) : Reader α := do
  let byte ← valueStart
  if byte = ascii '[' then
    skip
    let wanted := "struct " ++ name ++ " with " ++ Nat.repr fields.length ++ " elements"
    closing closeList (← positional wanted 0 fields blank)
  else if byte = ascii '\x7b' then
    skip
    closing closeObject (← named fields (← bound) true [] blank)
  else refuse ("struct " ++ name) byte

end Reader

/-- Reads a text that holds one value and nothing else. -/
def parse {α : Type} (reader : Reader α) (text : List UInt8) : Except Fault α :=
  let whole : Reader α := do
    let value ← reader
    match ← Reader.lookPastBlanks with
    | none => return value
    | some _ => Reader.fail .trailingCharacters
  match whole.run { rest := text, size := text.length } with
  | .ok (value, _) => .ok value
  | .error (cause, seen) => .error (Fault.locate text cause seen)

end Disassembly.Json
