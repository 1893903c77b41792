import Disassembly.Config.Basic
import Disassembly.Isa.Literal
import Disassembly.Listing.Instruction
import Disassembly.Memory.Image
import Std.Data.TreeSet

/-!
Names for addresses and values.

A jump table is named by its address alone. Any other address has the name configured for it or for
its canonical form, and else a numeric label that says whether a function starts there.
-/

namespace Disassembly

open Memory Isa

structure Symbols where
  annotations : Annotations
  image : Image
  /-- Canonical addresses at which functions start. -/
  functions : Std.TreeSet UInt32
  /-- Canonical addresses of jump tables. -/
  jumpTables : Std.TreeSet UInt32
  /-- Contents of the string tables by canonical address. -/
  stringTables : Std.TreeMap UInt32 (List String)

/-- The configured functions and the targets of calls. -/
def Annotations.functionSet (annotations : Annotations) (program : List Listing.Instruction) :
    Std.TreeSet UInt32 :=
  let called := program.filterMap fun i => if i.mnemonic = .branch .jal then i.target? else none
  Std.TreeSet.ofList ((annotations.functions ++ called).map annotations.space.canonical)

namespace Symbols

/-- Reads the configured string tables in order; one that runs off the image fails it all. -/
def readStringTables (image : Image) (seeds : List UInt32) :
    Except NoValue (Std.TreeMap UInt32 (List String)) :=
  seeds.foldlM (fun tables seed => do
    return tables.insert (image.space.canonical seed) (← image.stringTable seed)) {}

def build (annotations : Annotations) (bytes : Array UInt8) (functions : Std.TreeSet UInt32) :
    Except NoValue Symbols := do
  let image : Image := { space := annotations.space, bytes }
  let stringTables ← readStringTables image annotations.tables.stringTables
  return {
    annotations, image, functions, stringTables
    jumpTables :=
      Std.TreeSet.ofList (annotations.tables.jumpTables.map annotations.space.canonical) }

def space (symbols : Symbols) : AddressSpace :=
  symbols.annotations.space

def canonical (symbols : Symbols) (address : UInt32) : UInt32 :=
  symbols.space.canonical address

def isFunction (symbols : Symbols) (address : UInt32) : Bool :=
  symbols.functions.contains (symbols.canonical address)

def isJumpTable (symbols : Symbols) (address : UInt32) : Bool :=
  symbols.jumpTables.contains (symbols.canonical address)

def stringTable? (symbols : Symbols) (address : UInt32) : Option (List String) :=
  symbols.stringTables[symbols.canonical address]?

/-- The name configured for an address or for its canonical form. -/
def name? (symbols : Symbols) (address : UInt32) : Option String :=
  symbols.annotations.labels[address]? <|> symbols.annotations.labels[symbols.canonical address]?

/-- A label that follows from the canonical address. -/
def numericLabel (symbols : Symbols) (address : UInt32) : String :=
  let digits := Text.hexPadded 6 (symbols.canonical address).toNat
  if symbols.isJumpTable address then "jt_" ++ digits
  else if symbols.isFunction address then "fn_" ++ digits
  else "l_" ++ digits

def label (symbols : Symbols) (address : UInt32) : String :=
  if symbols.isJumpTable address then symbols.numericLabel address
  else (symbols.name? address).getD (symbols.numericLabel address)

/-- A value that lies in a range, described by what is there. Exception vectors say nothing about a
value. -/
def describe? (symbols : Symbols) (value : UInt32) (range : Range) : Option String :=
  let hex := Text.hexWord value
  let address := symbols.canonical value
  if symbols.jumpTables.contains address then
    some (hex ++ " /* JUMP TABLE " ++ symbols.label address ++ " */")
  else
    match symbols.stringTables[address]? with
    | some strings => some ("C_STR_ARRAY [" ++ ", ".intercalate strings ++ "] /* " ++ hex ++ " */")
    | none =>
      match range.kind with
      | .string =>
        some ("C_STR " ++ symbols.image.cstringLiteral address ++ " /* " ++ hex ++ " at " ++
          Text.hexWord address ++ " */")
      | .code =>
        some (symbols.label address ++ " /* " ++ hex ++ " at " ++ Text.hexWord address ++ " */")
      | .vector => none
      | .data =>
        some (hex ++ " /* DATA " ++ range.label ++ " AT " ++ Text.hexWord address ++ " OFF +" ++
          Text.hexShort (range.offset value).toNat ++ " */")
      | .register =>
        some (hex ++ " /* REG_OF " ++ range.label ++ " AT +" ++
          Text.hexShort (range.offset value).toNat ++ " */")

/-- A value by itself: small ones in decimal too. -/
def numberText (value : Int32) : String :=
  if -128 ≤ value ∧ value ≤ 127 then
    Int.repr value.toInt ++ " /* " ++ hexLiteral value.toInt ++ " */"
  else hexLiteral value.toInt

/-- A register value in pseudo-code: the name of a hardware register, else what the value points to,
else the number. -/
def valueText (symbols : Symbols) (value : Int32) : String :=
  let word := value.toUInt32
  match symbols.annotations.registers[word]? with
  | some name => name ++ " /* " ++ Text.hexWord word ++ " */"
  | none =>
    ((symbols.space.classify word).bind (symbols.describe? word)).getD (numberText value)

end Symbols

end Disassembly
