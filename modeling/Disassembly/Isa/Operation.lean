import Disassembly.Isa.Mnemonic
import Disassembly.Isa.Register
import Disassembly.Text.Blank
import Disassembly.Text.Lines

/-!
Decoded operations and the operand grammar.

An operation holds exactly the operands of its mnemonic. Operands are separated by commas and
trimmed; each piece then has to match the whole grammar of its field.
-/

namespace Disassembly.Isa

/-- A mnemonic with its operands. By convention `d` is the destination, `a` and `b` are sources, `i`
is an immediate and `k` an immediate that is shifted or selects a special purpose register. A store
writes `a` to the memory at `d + i`. -/
inductive Operation where
  | alu (op : Alu) (d a b : Register)
  | aluImmediate (op : AluImmediate) (d a : Register) (i : Int32)
  | movhi (d : Register) (k : Int32)
  | branch (op : Branch) (target : UInt32)
  | registerBranch (op : RegisterBranch) (d : Register)
  | load (op : Load) (d a : Register) (i : Int32)
  | store (op : Store) (d a : Register) (i : Int32)
  | mfspr (d a : Register) (k : Int32)
  | mtspr (a b : Register) (k : Int32)
  | compare (relation : Comparison) (a b : Register)
  | compareImmediate (relation : Comparison) (a : Register) (i : Int32)
  | bare (op : Bare)
  deriving DecidableEq, Repr

/-- What an operand was expected to be. -/
inductive OperandKind where
  | register | target | immediate | memory
  deriving DecidableEq, Repr

def OperandKind.description : OperandKind → String
  | .register => "register"
  | .target => "hex branch target"
  | .immediate => "immediate"
  | .memory => "imm(reg)"

/-- Why operands do not fit their mnemonic. -/
inductive OperandFault where
  | count (expected found : Nat)
  | malformed (operand : List Char) (expected : OperandKind)
  deriving DecidableEq, Repr

namespace Operand

/-- A decimal number with an optional minus sign that fits a signed word. -/
def decimal? (text : List Char) : Option Int32 :=
  let value? : Option Int :=
    match text with
    | '-' :: digits => (Text.readDecimal? digits).map fun n => -(n : Int)
    | digits => (Text.readDecimal? digits).map fun n => (n : Int)
  match value? with
  | some value => if -0x80000000 ≤ value ∧ value < 0x80000000 then some (Int32.ofInt value) else none
  | none => none

/-- `0x` and hexadecimal digits, read as two's complement, or a decimal number. -/
def immediate? : List Char → Option Int32
  | '0' :: 'x' :: digits => (Text.readHexWord? digits).map UInt32.toInt32
  | text => decimal? text

/-- The hexadecimal digits at the start; a symbol may follow them and is ignored. -/
def target? (text : List Char) : Option UInt32 :=
  Text.readHexWord? (text.takeWhile Text.isHexDigit)

/-- A displacement and a base register, written `imm(reg)`. -/
def memory? (text : List Char) : Option (Int32 × Register) :=
  if text.getLast? = some ')' then
    match text.dropLast.dropWhile (· != '(') with
    | '(' :: base => do
      let offset ← decimal? (text.dropLast.takeWhile (· != '('))
      let register ← Register.parse? base
      return (offset, register)
    | _ => none
  else none

/-- Turns a reader of one field into one that reports the operand. -/
def required {α : Type} (kind : OperandKind) (read? : List Char → Option α)
    (text : List Char) : Except OperandFault α :=
  match read? text with
  | some value => .ok value
  | none => .error (.malformed text kind)

def register (text : List Char) : Except OperandFault Register :=
  required .register Register.parse? text

def target (text : List Char) : Except OperandFault UInt32 :=
  required .target target? text

def immediate (text : List Char) : Except OperandFault Int32 :=
  required .immediate immediate? text

def memory (text : List Char) : Except OperandFault (Int32 × Register) :=
  required .memory memory? text

/-- The comma-separated pieces of an operand text, trimmed. -/
def pieces (text : List Char) : List (List Char) :=
  (Text.split ',' text).map Text.trim

end Operand

namespace Operation

open Operand

def mnemonic : Operation → Mnemonic
  | .alu op .. => .alu op
  | .aluImmediate op .. => .aluImmediate op
  | .movhi .. => .movhi
  | .branch op _ => .branch op
  | .registerBranch op _ => .registerBranch op
  | .load op .. => .load op
  | .store op .. => .store op
  | .mfspr .. => .mfspr
  | .mtspr .. => .mtspr
  | .compare relation .. => .compare relation
  | .compareImmediate relation .. => .compareImmediate relation
  | .bare op => .bare op

/-- The target of a control transfer that names it. -/
def target? : Operation → Option UInt32
  | .branch _ target => some target
  | _ => none

/-- Reads the pieces of an operand text field by field. A memory operand is read before the register
beside it, wherever it stands. -/
def ofPieces : Mnemonic → List (List Char) → Except OperandFault Operation
  | .alu op, [d, a, b] => do
    return .alu op (← register d) (← register a) (← register b)
  | .aluImmediate op, [d, a, i] => do
    return .aluImmediate op (← register d) (← register a) (← immediate i)
  | .movhi, [d, k] => do
    return .movhi (← register d) (← immediate k)
  | .branch op, [n] => do
    return .branch op (← target n)
  | .registerBranch op, [d] => do
    return .registerBranch op (← register d)
  | .load op, [d, cell] => do
    let (i, a) ← memory cell
    return .load op (← register d) a i
  | .store op, [cell, a] => do
    let (i, d) ← memory cell
    return .store op d (← register a) i
  | .mfspr, [d, a, k] => do
    return .mfspr (← register d) (← register a) (← immediate k)
  | .mtspr, [a, b, k] => do
    return .mtspr (← register a) (← register b) (← immediate k)
  | .compare relation, [a, b] => do
    return .compare relation (← register a) (← register b)
  | .compareImmediate relation, [a, i] => do
    return .compareImmediate relation (← register a) (← immediate i)
  | .bare op, _ => .ok (.bare op)
  | m, found => .error (.count m.arity found.length)

/-- Decodes an operand text for a mnemonic. -/
def decode (m : Mnemonic) (text : List Char) : Except OperandFault Operation :=
  ofPieces m (pieces text)

end Operation

end Disassembly.Isa
