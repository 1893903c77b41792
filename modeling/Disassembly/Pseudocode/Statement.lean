import Disassembly.Isa.Literal
import Disassembly.Isa.Operation
import Disassembly.Symbols

/-!
Pseudo-code: one statement for each instruction.
-/

namespace Disassembly.Pseudocode

open Isa

/-- The second operand of an expression. -/
inductive Term where
  | register (r : Register)
  | decimal (value : Int)
  | word (value : UInt32)
  deriving DecidableEq, Repr

def Term.text : Term → String
  | .register r => r.role
  | .decimal value => Int.repr value
  | .word value => Text.hexWord value

/-- What a register is set to when its value is not known. -/
inductive Expression where
  | copy (a : Register)
  | negate (a : Register)
  | apply (op : Alu) (a : Register) (b : Term)
  deriving DecidableEq, Repr

def Expression.text : Expression → String
  | .copy a => a.role
  | .negate a => "-" ++ a.role
  | .apply op a b =>
    match op with
    | .add => a.role ++ " + " ++ b.text
    | .sub => a.role ++ " - " ++ b.text
    | .and => a.role ++ " & " ++ b.text
    | .xor => a.role ++ " ^ " ++ b.text
    | .or => a.role ++ " | " ++ b.text
    | .mul => a.role ++ " * " ++ b.text
    | .sll => a.role ++ " << " ++ b.text
    | .sra => "arith " ++ a.role ++ " >> " ++ b.text
    | .srl => "logical " ++ a.role ++ " >> " ++ b.text
    | .ror => a.role ++ " ror " ++ b.text

/-- A value that is written somewhere: what is known of a register, or the register. -/
inductive Operand where
  | known (value : Int32)
  | register (r : Register)
  deriving DecidableEq, Repr

def Operand.text (symbols : Symbols) : Operand → String
  | .known value => symbols.valueText value
  | .register r => r.role

inductive Statement where
  /-- `d` is set to a value that is known. -/
  | constant (d : Register) (value : Int32)
  | assign (d : Register) (source : Expression)
  /-- `d` is set to `k` in its upper half. -/
  | setHigh (d : Register) (k : Int32)
  | branch (op : Branch) (target : UInt32)
  | registerBranch (op : RegisterBranch) (d : Register)
  | load (access : Access) (d a : Register) (i : Int32)
  | store (access : Access) (d : Register) (i : Int32) (source : Operand)
  | sprRead (d a : Register) (k : Int32)
  | sprWrite (a : Register) (k : Int32) (source : Operand)
  | compare (relation : Comparison) (a b : Register)
  | compareImmediate (relation : Comparison) (a : Register) (i : Int32)
  | verbatim (op : Bare)
  deriving DecidableEq, Repr

/-- How a relation reads the registers, and its sign. -/
def relationText : Comparison → String × String
  | .eq => ("", "==")
  | .ne => ("", "!=")
  | .gtu => ("unsigned ", ">")
  | .geu => ("unsigned ", ">=")
  | .ltu => ("unsigned ", "<")
  | .leu => ("unsigned ", "<=")
  | .gts => ("signed ", ">")
  | .ges => ("signed ", ">=")
  | .lts => ("signed ", "<")
  | .les => ("signed ", "<=")

/-- A comparison with the right-hand side given. -/
def comparisonText (relation : Comparison) (a : Register) (right : String) : String :=
  let (reading, sign) := relationText relation
  "FLAG = " ++ reading ++ a.role ++ " " ++ sign ++ " " ++ right

/-- The memory cell at a register and displacement. -/
def cellText (access : Access) (base : Register) (i : Int32) : String :=
  "[" ++ access.name ++ " " ++ base.role ++ displacementText i ++ "]"

/-- A half word in the upper half of a word. -/
def highText (k : Int32) : String :=
  if k = 0 then "0" else "0x" ++ Text.hexPadded 4 (k &&& 0xffff).toInt.toNat ++ "0000"

def Statement.text (symbols : Symbols) : Statement → String
  | .constant d value => d.role ++ " = " ++ symbols.valueText value
  | .assign d source => d.role ++ " = " ++ source.text
  | .setHigh d k => d.role ++ " = " ++ highText k
  | .branch op target =>
    match op with
    | .bf => "if (FLAG) goto " ++ symbols.label target
    | .bnf => "if (!FLAG) goto " ++ symbols.label target
    | .j => "goto " ++ symbols.label target
    | .jal => "call " ++ symbols.label target
  | .registerBranch .jalr d => "call " ++ d.role
  | .registerBranch .jr d => if d = Register.link then "return" else "goto " ++ d.role
  | .load access d a i => d.role ++ " = " ++ cellText access a i
  | .store access d i source => cellText access d i ++ " = " ++ source.text symbols
  | .sprRead d a k => d.role ++ " = SPR(" ++ sprText a k ++ ")"
  | .sprWrite a k source => "SPR(" ++ sprText a k ++ ") = " ++ source.text symbols
  | .compare relation a b => comparisonText relation a b.role
  | .compareImmediate relation a i => comparisonText relation a (Isa.comparandText i)
  | .verbatim op => "asm \"" ++ op.name ++ "\""

end Disassembly.Pseudocode
